import Benri.Worker.Leases

namespace Benri.Worker

open Benri.Data Benri.Domain Benri.Postgres Benri.Redis Benri.Transition

/-! # `SystemTaskChecker`

Any number of checkers run beside the pollers, consumers and recoveries of the
workers, under a lock key of their own.  A check counts the active sweep tasks and
creates one when there is none; nobody else creates tasks of that type.
-/

def SystemChecker.LOCK_TTL_SECS : Nat := 60

/-- `check_once` by the call it makes next; a check that did not get the lock is
`denied`, and one that did ends as `finished`. -/
inductive CheckPhase where
  | acquire
  | countActive (token : LockToken)
  | create (token : LockToken)
  | release (token : LockToken) (result : Except String Unit)
  | finished (result : Except String Unit)
  | denied (result : Except String Unit)
  | crashed
deriving DecidableEq

structure Cluster where
  workers : State
  /-- What the checkers' key stores. -/
  lock : Option Lease
  issued : Nat
  checks : List CheckPhase

def Cluster.initial (now : Instant) : Cluster where
  workers := .initial now
  lock := none
  issued := 0
  checks := []

inductive ClusterEvent where
  | worker (event : Event)
  | startCheck
  | check (index : Nat) (fault : Fault)
  | create (index : Nat) (fault : Fault) (id : TaskId) (traceId : Option String)
  | crashCheck (index : Nat)

def checkAcquire (cluster : Cluster) (fault : Fault) : Cluster × CheckPhase :=
  let token : LockToken := ⟨cluster.issued⟩
  let drawn := { cluster with issued := cluster.issued + 1 }
  let answer := Redis.acquire cluster.lock token SystemChecker.LOCK_TTL_SECS cluster.workers.now
  match attempt fault lockError drawn { drawn with lock := answer.1 } answer.2 with
  | (reached, .ok (some token)) => (reached, .countActive token)
  | (reached, .ok none) => (reached, .denied (.ok ()))
  | (reached, .error error) => (reached, .denied (.error error))

/-- The first half of `ensure_active`. -/
def checkCount (cluster : Cluster) (fault : Fault) (token : LockToken) : CheckPhase :=
  match (attempt fault databaseError cluster cluster (countActiveByType cluster.workers.tasks
    CleanupStaleVideosTaskMetadata.METADATA_TYPE)).2 with
  | .error error => .release token (.error error)
  | .ok active => if 0 < active then .release token (.ok ()) else .create token

/-- The second half, `schedule_standalone`. -/
def checkCreate (cluster : Cluster) (fault : Fault) (token : LockToken) (id : TaskId)
    (traceId : Option String) : Cluster × CheckPhase :=
  match cluster.workers.tasks.insert? (buildPendingTask CleanupStaleVideosTaskMetadata.mk none id
    traceId cluster.workers.now) with
  | none => (cluster, .release token (.error duplicateKey))
  | some tasks =>
      match attempt fault databaseError cluster
        { cluster with workers := { cluster.workers with tasks } } () with
      | (reached, .ok ()) => (reached, .release token (.ok ()))
      | (reached, .error error) => (reached, .release token (.error error))

/-- The result of the release is dropped. -/
def checkRelease (cluster : Cluster) (fault : Fault) (token : LockToken)
    (result : Except String Unit) : Cluster × CheckPhase :=
  ((attempt fault lockError cluster { cluster with
    lock := Redis.release cluster.lock token cluster.workers.now } ()).1, .finished result)

def checkStep (cluster : Cluster) (fault : Fault) : CheckPhase → Option (Cluster × CheckPhase)
  | .acquire => some (checkAcquire cluster fault)
  | .countActive token => some (cluster, checkCount cluster fault token)
  | .release token result => some (checkRelease cluster fault token result)
  | .create _ | .finished _ | .denied _ | .crashed => none

def Cluster.setCheck (cluster : Cluster) (index : Nat) (phase : CheckPhase) : Cluster :=
  { cluster with checks := cluster.checks.set index phase }

/-- The tasks that the workers come by otherwise are of the other types. -/
def foreign : Event → Bool
  | .create task => decide (task.metadataType ≠ CleanupStaleVideosTaskMetadata.METADATA_TYPE)
  | _ => true

def clusterStep (decoders : Decoders) (cluster : Cluster) : ClusterEvent → Option Cluster
  | .worker event =>
      if foreign event then
        (step decoders cluster.workers event).map fun workers => { cluster with workers }
      else none
  | .startCheck => some { cluster with checks := cluster.checks ++ [.acquire] }
  | .check index fault =>
      cluster.checks[index]?.bind fun phase =>
        (checkStep cluster fault phase).map fun answer => answer.1.setCheck index answer.2
  | .create index fault id traceId =>
      match cluster.checks[index]? with
      | some (.create token) =>
          let answer := checkCreate cluster fault token id traceId
          some (answer.1.setCheck index answer.2)
      | _ => none
  | .crashCheck index => some (cluster.setCheck index .crashed)

/-! ## What a step can do -/

/-- The rows of the sweep's type that are pending or in progress. -/
def activeSweeps (tasks : TaskTable) : Nat :=
  tasks.rows.countP fun task =>
    decide (task.metadataType = CleanupStaleVideosTaskMetadata.METADATA_TYPE ∧
      task.status ∈ [.pending, .inProgress])

theorem countActiveByType_sweeps (tasks : TaskTable) :
    countActiveByType tasks CleanupStaleVideosTaskMetadata.METADATA_TYPE = activeSweeps tasks := by
  rw [countActiveByType, Table.select, activeSweeps, List.countP_eq_length_filter]
  congr 2
  funext task
  simp [activeOfType]

inductive CheckEffect (cluster : Cluster) : CheckPhase → Cluster → CheckPhase → Prop where
  | acquired (lock : Option Lease) :
      CheckEffect cluster .acquire { cluster with issued := cluster.issued + 1, lock }
        (.countActive ⟨cluster.issued⟩)
  | denied (lock : Option Lease) (result : Except String Unit) :
      CheckEffect cluster .acquire { cluster with issued := cluster.issued + 1, lock }
        (.denied result)
  | present (token : LockToken) (active : 0 < activeSweeps cluster.workers.tasks) :
      CheckEffect cluster (.countActive token) cluster (.release token (.ok ()))
  | missing (token : LockToken) (absent : activeSweeps cluster.workers.tasks = 0) :
      CheckEffect cluster (.countActive token) cluster (.create token)
  | failed (phase : CheckPhase) (token : LockToken) (error : String)
      (origin : phase = .countActive token ∨ phase = .create token) :
      CheckEffect cluster phase cluster (.release token (.error error))
  | created (token : LockToken) (task : Task) (tasks : TaskTable) (result : Except String Unit)
      (inserted : cluster.workers.tasks.insert? task = some tasks) (fresh : task.isNew = true)
      (sweep : task.metadataType = CleanupStaleVideosTaskMetadata.METADATA_TYPE) :
      CheckEffect cluster (.create token)
        { cluster with workers := { cluster.workers with tasks } } (.release token result)
  | released (token : LockToken) (lock : Option Lease) (result : Except String Unit) :
      CheckEffect cluster (.release token result) { cluster with lock } (.finished result)

inductive ClusterEffect (decoders : Decoders) (before : Cluster) : ClusterEvent → Cluster → Prop where
  | worker (event : Event) (workers : State) (others : foreign event = true)
      (stepped : step decoders before.workers event = some workers) :
      ClusterEffect decoders before (.worker event) { before with workers }
  | startCheck :
      ClusterEffect decoders before .startCheck { before with checks := before.checks ++ [.acquire] }
  | check (event : ClusterEvent) (index : Nat) (phase next : CheckPhase) (reached : Cluster)
      (own : ∀ inner, event ≠ .worker inner) (slot : before.checks[index]? = some phase)
      (effect : CheckEffect before phase reached next) :
      ClusterEffect decoders before event (reached.setCheck index next)
  | crashCheck (index : Nat) :
      ClusterEffect decoders before (.crashCheck index) (before.setCheck index .crashed)

variable {decoders : Decoders} {before after cluster : Cluster} {event : ClusterEvent}

theorem checkAcquire_effect (cluster : Cluster) (fault : Fault) :
    CheckEffect cluster .acquire (checkAcquire cluster fault).1 (checkAcquire cluster fault).2 := by
  unfold checkAcquire
  cases fault with
  | none =>
      simp only [attempt_none]
      cases held : holder cluster.lock cluster.workers.now <;> simp only [Redis.acquire, held]
      · exact .acquired _
      · exact .denied _ _
  | error applied message => cases applied <;> exact .denied _ _

theorem checkCount_effect (cluster : Cluster) (fault : Fault) (token : LockToken) :
    CheckEffect cluster (.countActive token) cluster (checkCount cluster fault token) := by
  rw [checkCount, countActiveByType_sweeps]
  cases fault with
  | none =>
      simp only [attempt_none]
      split
      · exact .present token ‹_›
      · exact .missing token (Nat.eq_zero_of_not_pos ‹_›)
  | error applied message => exact .failed _ token _ (.inl rfl)

theorem checkCreate_effect (cluster : Cluster) (fault : Fault) (token : LockToken) (id : TaskId)
    (traceId : Option String) :
    CheckEffect cluster (.create token) (checkCreate cluster fault token id traceId).1
      (checkCreate cluster fault token id traceId).2 := by
  unfold checkCreate
  split
  · exact .failed _ token _ (.inr rfl)
  · rename_i tasks inserted
    cases fault with
    | none => exact .created token _ tasks _ inserted rfl rfl
    | error applied message =>
        cases applied
        · exact .failed _ token _ (.inr rfl)
        · exact .created token _ tasks _ inserted rfl rfl

theorem checkRelease_effect (cluster : Cluster) (fault : Fault) (token : LockToken)
    (result : Except String Unit) :
    CheckEffect cluster (.release token result) (checkRelease cluster fault token result).1
      (checkRelease cluster fault token result).2 := by
  unfold checkRelease
  cases fault with
  | none => exact .released token _ result
  | error applied message => cases applied <;> exact .released token _ result

theorem clusterStep_effect (stepped : clusterStep decoders before event = some after) :
    ClusterEffect decoders before event after := by
  cases event with
  | worker event =>
      simp only [clusterStep] at stepped
      split at stepped
      · obtain ⟨workers, moved, rfl⟩ := Option.map_eq_some_iff.mp stepped
        exact .worker event workers ‹_› moved
      · contradiction
  | startCheck => cases stepped; exact .startCheck
  | check index fault =>
      obtain ⟨phase, slot, mapped⟩ := Option.bind_eq_some_iff.mp stepped
      obtain ⟨⟨reached, next⟩, moved, rfl⟩ := Option.map_eq_some_iff.mp mapped
      refine .check _ index phase next reached (fun _ same => by cases same) slot ?_
      cases phase <;> simp only [checkStep, reduceCtorEq, Option.some.injEq] at moved
      · have effect := checkAcquire_effect before fault
        rwa [moved] at effect
      · rename_i token
        have effect := checkCount_effect before fault token
        obtain ⟨rfl, rfl⟩ := Prod.mk.inj moved
        exact effect
      · rename_i token result
        have effect := checkRelease_effect before fault token result
        rwa [moved] at effect
  | create index fault id traceId =>
      simp only [clusterStep] at stepped
      split at stepped
      · rename_i token slot
        cases stepped
        exact .check _ index _ _ _ (fun _ same => by cases same) slot
          (checkCreate_effect before fault token id traceId)
      · contradiction
  | crashCheck index => cases stepped; exact .crashCheck index

end Benri.Worker
