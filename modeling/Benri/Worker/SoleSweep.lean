import Benri.Worker.SystemChecker

namespace Benri.Worker

open Benri.Data Benri.Domain Benri.Postgres Benri.Redis Benri.Transition

/-! # One active sweep task

A check creates a sweep task when it has counted none, and while its lease lasts no
other check does.  Nothing else brings one: an outcome is written to a row in
progress only, so a row that has ended stays so.
-/

variable {decoders : Decoders} {before after cluster start finish : Cluster}
  {event : ClusterEvent}

/-- The token a check works under, from `acquire` to `release`. -/
def CheckPhase.tokens : CheckPhase → List LockToken
  | .countActive token | .create token | .release token _ => [token]
  | .acquire | .finished _ | .denied _ | .crashed => []

/-- At `now` every check would still work under its own live lease. -/
def ChecksLive (cluster : Cluster) (now : Instant) : Prop :=
  ∀ check ∈ cluster.checks, ∀ token ∈ check.tokens,
    (holder cluster.lock now).map Lease.token = some token

instance (cluster : Cluster) (now : Instant) : Decidable (ChecksLive cluster now) :=
  inferInstanceAs (Decidable (∀ check ∈ cluster.checks, ∀ token ∈ check.tokens,
    (holder cluster.lock now).map Lease.token = some token))

def clockAfter (cluster : Cluster) : ClusterEvent → Instant
  | .worker (.advance now) => now
  | _ => cluster.workers.now

def WorkersKept (cluster : Cluster) : ClusterEvent → Prop
  | .worker event => Kept cluster.workers event
  | _ => True

instance (cluster : Cluster) (event : ClusterEvent) : Decidable (WorkersKept cluster event) :=
  match event with
  | .worker event => inferInstanceAs (Decidable (Kept cluster.workers event))
  | .startCheck | .check _ _ | .create _ _ _ _ | .crashCheck _ => .isTrue trivial

/-- No lease, of a poller or of a checker, expires while its holder is at work, and no
task is reset while its id is queued or being processed. -/
def Regular (cluster : Cluster) (event : ClusterEvent) : Prop :=
  ChecksLive cluster (clockAfter cluster event) ∧ WorkersKept cluster event

instance (cluster : Cluster) (event : ClusterEvent) : Decidable (Regular cluster event) :=
  inferInstanceAs (Decidable (_ ∧ _))

/-! ## The sweep rows -/

section Workers

variable {state later : State} {inner : Event}

/-- No statement rewrites a row's type. -/
theorem Effect.metadataType_kept (effect : Effect decoders state inner later) {id : TaskId}
    {row : Task} (found : later.tasks.find? id = some row) :
    (∃ old, state.tasks.find? id = some old ∧ old.metadataType = row.metadataType) ∨
      inner = .create row := by
  have mapped : ∀ change : Task → Task, (∀ old, (change old).metadataType = old.metadataType) →
      later.tasks.find? id = (state.tasks.find? id).map change →
      ∃ old, state.tasks.find? id = some old ∧ old.metadataType = row.metadataType := by
    intro change keeps same
    rw [same] at found
    obtain ⟨old, there, rfl⟩ := Option.map_eq_some_iff.mp found
    exact ⟨old, there, (keeps old).symm⟩
  cases effect with
  | create task tasks fresh inserted =>
      simp only [Table.find?_insert? inserted] at found
      split at found
      · exact .inr (by rw [Option.some.inj found])
      · exact .inl ⟨row, found, rfl⟩
  | poll index fault phase next reached slot effect =>
      cases effect with
      | marked token now ids =>
          refine .inl (mapped _ (fun old => ?_) (find?_markInProgress _ _ _ _))
          split <;> rfl
      | markFailed token now ids tasks perhaps result =>
          rcases perhaps with rfl | rfl
          · exact .inl ⟨row, found, rfl⟩
          · refine .inl (mapped _ (fun old => ?_) (find?_markInProgress _ _ _ _))
            split <;> rfl
      | acquired | denied | clock | nothing | found | published | released =>
          exact .inl ⟨row, found, rfl⟩
  | written index fault owner outcome tasks slot perhaps =>
      rcases perhaps with rfl | rfl
      · exact .inl ⟨row, found, rfl⟩
      · refine .inl (mapped _ (fun old => ?_) (find?_batchUpdate_single _ _ _))
        split <;> rfl
  | resetStale =>
      refine .inl (mapped _ (fun old => ?_) (find?_resetStale _ _ _))
      split <;> rfl
  | advance | startPoll | crashPoll | popped | popFailed | dispatched | skipped | handled |
    crashRun | wipeQueue => exact .inl ⟨row, found, rfl⟩

theorem terminal_of_not_active {status : TaskStatus}
    (idle : (decide (status = .pending) || decide (status = .inProgress)) = false) :
    status.terminal = true := by
  cases status <;> first | rfl | cases idle

/-- The workers bring no active sweep task. -/
theorem Exclusive.activeSweeps_step (exclusive : Exclusive state) (permitted : Orderly state inner)
    (others : foreign inner = true) (effect : Effect decoders state inner later) :
    activeSweeps later.tasks ≤ activeSweeps state.tasks := by
  rw [← countActiveByType_sweeps, ← countActiveByType_sweeps]
  refine countActiveByType_le fun id row found active => ?_
  obtain ⟨sweep, alive⟩ := Bool.and_eq_true_iff.mp active
  rcases effect.metadataType_kept found with ⟨old, there, same⟩ | rfl
  · refine ⟨old, there, ?_⟩
    rw [activeOfType, same, sweep, Bool.true_and]
    cases status : decide (old.status = .pending) || decide (old.status = .inProgress) with
    | true => rfl
    | false =>
        -- A row that has ended stays as it is, so the active row is another one.
        have stays := exclusive.terminal_step permitted effect there (terminal_of_not_active status)
        rw [found] at stays
        cases stays
        rw [alive] at status
        cases status
  · rw [foreign, decide_eq_true_iff] at others
    exact absurd (of_decide_eq_true sweep) others

end Workers

/-! ## The invariant -/

structure Sole (cluster : Cluster) : Prop where
  exclusive : Exclusive cluster.workers
  brief : Brief cluster.workers
  drawn : ∀ check ∈ cluster.checks, ∀ token ∈ check.tokens, token.serial < cluster.issued
  apart : ∀ token, AtMostOne (fun check : CheckPhase => token ∈ check.tokens) cluster.checks
  /-- What a check has counted still is so when it creates. -/
  counted : ∀ token, .create token ∈ cluster.checks → activeSweeps cluster.workers.tasks = 0
  once : activeSweeps cluster.workers.tasks ≤ 1

theorem Sole.initial (now : Instant) : Sole (.initial now) where
  exclusive := .initial now
  brief := .initial now
  drawn _ member := absurd member List.not_mem_nil
  apart _ := .nil _
  counted _ member := absurd member List.not_mem_nil
  once := Nat.zero_le _

/-- A check in a slot moves on under the token it has, or under none. -/
theorem Sole.moved (sole : Sole before) {index : Nat} {phase : CheckPhase} (next : CheckPhase)
    (slot : before.checks[index]? = some phase) (tokens : next.tokens ⊆ phase.tokens) :
    (∀ check ∈ before.checks.set index next, ∀ token ∈ check.tokens,
      token.serial < before.issued) ∧
    ∀ token, AtMostOne (fun check : CheckPhase => token ∈ check.tokens)
      (before.checks.set index next) := by
  refine ⟨forall_mem_set sole.drawn fun token member => ?_, fun token => ?_⟩
  · exact sole.drawn phase (List.mem_of_getElem? slot) token (tokens member)
  · exact (sole.apart token).set slot fun holds => .inl (tokens holds)

/-- A check moves on without a write to the tasks. -/
theorem Sole.quiet (sole : Sole before) {index : Nat} {phase : CheckPhase} (next : CheckPhase)
    (slot : before.checks[index]? = some phase) (tokens : next.tokens ⊆ phase.tokens)
    (counted : ∀ token, next = .create token → activeSweeps before.workers.tasks = 0)
    (workers : after.workers = before.workers) (issued : after.issued = before.issued)
    (checks : after.checks = before.checks.set index next) : Sole after := by
  obtain ⟨drawn, apart⟩ := sole.moved next slot tokens
  refine ⟨workers ▸ sole.exclusive, workers ▸ sole.brief, ?_, ?_, fun token member => ?_, ?_⟩
  · rw [checks, issued]
    exact drawn
  · rw [checks]
    exact apart
  · rw [workers]
    rw [checks] at member
    rcases List.mem_or_eq_of_mem_set member with older | same
    · exact sole.counted token older
    · exact counted token same.symm
  · rw [workers]
    exact sole.once

/-- The workers take a step of their own. -/
theorem Sole.worker (sole : Sole before) {inner : Event} {workers : State}
    (kept : Kept before.workers inner) (others : foreign inner = true)
    (stepped : step decoders before.workers inner = some workers) :
    Sole { before with workers } := by
  have permitted := sole.brief.orderly kept
  have effect := step_effect stepped
  have fewer := sole.exclusive.activeSweeps_step permitted others effect
  refine ⟨sole.exclusive.step permitted effect, sole.brief.step sole.exclusive permitted stepped,
    sole.drawn, sole.apart, fun token member => ?_, Nat.le_trans fewer sole.once⟩
  have none := sole.counted token member
  dsimp only at fewer ⊢
  omega

/-- The check that has counted none creates one. -/
theorem Sole.one (sole : Sole before) {token : LockToken} {task : Task} {tasks : TaskTable}
    (member : .create token ∈ before.checks)
    (inserted : before.workers.tasks.insert? task = some tasks) (fresh : task.isNew = true)
    (sweep : task.metadataType = CleanupStaleVideosTaskMetadata.METADATA_TYPE) :
    activeSweeps tasks = 1 := by
  have pending : task.status = .pending := by
    simp only [Task.isNew, Bool.and_eq_true, decide_eq_true_eq] at fresh
    exact fresh.1.1.1.1
  have active : activeOfType CleanupStaleVideosTaskMetadata.METADATA_TYPE task = true := by
    simp [activeOfType, sweep, pending]
  have more := countActiveByType_insert inserted active
  rw [countActiveByType_sweeps, countActiveByType_sweeps, sole.counted token member] at more
  exact more

theorem Sole.created (decoders : Decoders) (sole : Sole before)
    (live : ChecksLive before before.workers.now) {index : Nat} {token : LockToken}
    {result : Except String Unit} {task : Task} {tasks : TaskTable}
    (slot : before.checks[index]? = some (.create token))
    (inserted : before.workers.tasks.insert? task = some tasks) (fresh : task.isNew = true)
    (sweep : task.metadataType = CleanupStaleVideosTaskMetadata.METADATA_TYPE) :
    Sole (({ before with workers := { before.workers with tasks } } : Cluster).setCheck index
      (.release token result)) := by
  have member := List.mem_of_getElem? slot
  have stepped : step decoders before.workers (.create task) =
      some { before.workers with tasks } := by
    simp [Worker.step, fresh, inserted]
  have permitted : Orderly before.workers (.create task) := ⟨trivial, trivial⟩
  have effect := step_effect stepped
  obtain ⟨drawn, apart⟩ := sole.moved (.release token result) slot (List.Subset.refl _)
  refine ⟨sole.exclusive.step permitted effect,
    sole.brief.step sole.exclusive permitted stepped, drawn, apart, fun other inside => ?_,
    Nat.le_of_eq (sole.one member inserted fresh sweep)⟩
  -- No other check is about to create: it would work under the same lease.
  exfalso
  obtain ⟨place, there⟩ := List.mem_iff_getElem?.mp inside
  rcases getElem?_set_cases there with ⟨_, same⟩ | ⟨different, older⟩
  · cases same
  · have mine := live _ member token (List.mem_singleton_self _)
    have theirs := live _ (List.mem_of_getElem? older) other (List.mem_singleton_self _)
    rw [mine] at theirs
    cases theirs
    exact different (sole.apart token place index _ _ older slot (List.mem_singleton_self _)
      (List.mem_singleton_self _))

theorem Sole.acquired (sole : Sole before) {index : Nat} {lock : Option Lease}
    (slot : before.checks[index]? = some .acquire) :
    Sole (({ before with issued := before.issued + 1, lock } : Cluster).setCheck index
      (.countActive ⟨before.issued⟩)) := by
  have unused : ∀ check ∈ before.checks, (⟨before.issued⟩ : LockToken) ∉ check.tokens :=
    fun check member own => Nat.lt_irrefl _ (sole.drawn check member _ own)
  refine ⟨sole.exclusive, sole.brief, ?_, fun token => ?_, fun token inside => ?_, sole.once⟩
  · refine forall_mem_set (fun check member token own => ?_) fun token own => ?_
    · exact Nat.lt_succ_of_lt (sole.drawn check member token own)
    · rw [List.mem_singleton.mp own]
      exact Nat.lt_succ_self _
  · refine (sole.apart token).set slot fun own => .inr fun check member other => ?_
    rw [List.mem_singleton.mp own] at other
    exact unused check member other
  · rcases List.mem_or_eq_of_mem_set inside with older | same
    · exact sole.counted token older
    · cases same

theorem Sole.check (decoders : Decoders) (sole : Sole before)
    (live : ChecksLive before before.workers.now) {index : Nat} {phase next : CheckPhase}
    {reached : Cluster} (slot : before.checks[index]? = some phase)
    (effect : CheckEffect before phase reached next) : Sole (reached.setCheck index next) := by
  cases effect with
  | acquired lock => exact sole.acquired slot
  | denied lock result =>
      obtain ⟨drawn, apart⟩ := sole.moved (.denied result) slot (List.nil_subset _)
      refine ⟨sole.exclusive, sole.brief, fun check member token own => ?_, apart,
        fun token inside => ?_, sole.once⟩
      · exact Nat.lt_succ_of_lt (drawn check member token own)
      · rcases List.mem_or_eq_of_mem_set inside with older | same
        · exact sole.counted token older
        · cases same
  | present token active =>
      exact sole.quiet (.release token (.ok ())) slot (List.Subset.refl _)
        (fun _ same => by cases same) rfl rfl rfl
  | missing token absent =>
      exact sole.quiet (.create token) slot (List.Subset.refl _) (fun _ _ => absent) rfl rfl rfl
  | failed phase token error origin =>
      have tokens : phase.tokens = [token] := by rcases origin with rfl | rfl <;> rfl
      exact sole.quiet (.release token (.error error)) slot (tokens ▸ List.Subset.refl _)
        (fun _ same => by cases same) rfl rfl rfl
  | created token task tasks result inserted fresh sweep =>
      exact sole.created decoders live slot inserted fresh sweep
  | released token lock result =>
      exact sole.quiet (.finished result) slot (List.nil_subset _) (fun _ same => by cases same)
        rfl rfl rfl

theorem Sole.step (sole : Sole before) (regular : Regular before event)
    (stepped : clusterStep decoders before event = some after) : Sole after := by
  cases clusterStep_effect stepped with
  | worker inner workers others moved => exact sole.worker regular.2 others moved
  | startCheck =>
      have idle : ∀ token, token ∉ CheckPhase.acquire.tokens := fun _ => List.not_mem_nil
      refine ⟨sole.exclusive, sole.brief,
        forall_mem_snoc sole.drawn fun token own => absurd own (idle token),
        fun token => (sole.apart token).snoc (idle token), fun token inside => ?_, sole.once⟩
      rcases List.mem_append.mp inside with older | new
      · exact sole.counted token older
      · cases List.mem_singleton.mp new
  | check _ index phase next reached own slot effect =>
      refine sole.check decoders ?_ slot effect
      cases event with
      | worker inner => exact absurd rfl (own inner)
      | startCheck | check | create | crashCheck => exact regular.1
  | crashCheck index =>
      cases slot : before.checks[index]? with
      | none =>
          rw [Cluster.setCheck, set_missing slot]
          exact sole
      | some phase =>
          exact sole.quiet .crashed slot (List.nil_subset _) (fun _ same => by cases same)
            rfl rfl rfl

theorem sole_of_reaches {now : Instant}
    (reached : Reaches (clusterStep decoders) Regular (.initial now) cluster) : Sole cluster :=
  reached.preserves Sole (.initial now) fun sole permitted stepped => sole.step permitted stepped

/-! ## What a check comes to -/

/-- The lock was held, and `do_check` has returned `Ok`. -/
def CheckPhase.succeeded : CheckPhase → Bool
  | .release _ (.ok _) | .finished (.ok _) => true
  | _ => false

/-- A check that has succeeded has seen exactly one active sweep task since it began. -/
theorem moment_of_reaches {now : Instant}
    (earlier : Reaches (clusterStep decoders) Regular (.initial now) start) {index : Nat}
    (begun : start.checks[index]? = some .acquire)
    (onward : Reaches (clusterStep decoders) Regular start finish) :
    ∃ phase, finish.checks[index]? = some phase ∧ (phase.succeeded = true → ∃ middle,
      Reaches (clusterStep decoders) Regular start middle ∧
      Reaches (clusterStep decoders) Regular middle finish ∧
      activeSweeps middle.workers.tasks = 1) := by
  induction onward with
  | refl => exact ⟨.acquire, begun, fun succeeded => by cases succeeded⟩
  | @tail before after event path permitted stepped ih =>
      obtain ⟨phase, there, moment⟩ := ih
      have sole := sole_of_reaches (earlier.trans path)
      have kept : ∀ {next}, (next = true → phase.succeeded = true) → next = true → ∃ middle,
          Reaches (clusterStep decoders) Regular start middle ∧
          Reaches (clusterStep decoders) Regular middle after ∧
          activeSweeps middle.workers.tasks = 1 := by
        intro next origin succeeded
        obtain ⟨middle, first, rest, one⟩ := moment (origin succeeded)
        exact ⟨middle, first, .tail rest permitted stepped, one⟩
      have same : after.checks[index]? = some phase → ∃ phase, after.checks[index]? = some phase ∧
          (phase.succeeded = true → ∃ middle, Reaches (clusterStep decoders) Regular start middle ∧
            Reaches (clusterStep decoders) Regular middle after ∧
            activeSweeps middle.workers.tasks = 1) :=
        fun still => ⟨phase, still, kept id⟩
      obtain ⟨bound, _⟩ := List.getElem?_eq_some_iff.mp there
      cases clusterStep_effect stepped with
      | worker inner workers others moved => exact same there
      | startCheck => exact same (by rw [List.getElem?_append_left bound, there])
      | crashCheck place =>
          by_cases own : place = index
          · subst own
            exact ⟨.crashed, by rw [Cluster.setCheck, List.getElem?_set_self bound],
              fun succeeded => by cases succeeded⟩
          · exact same (by rw [Cluster.setCheck, List.getElem?_set_ne own, there])
      | check _ place old next reached own slot effect =>
          have checks : reached.checks = before.checks := by cases effect <;> rfl
          by_cases mine : place = index
          · subst mine
            rw [there] at slot
            cases slot
            refine ⟨next, by rw [Cluster.setCheck, checks, List.getElem?_set_self bound],
              fun succeeded => ?_⟩
            cases effect with
            | acquired lock | denied lock result | missing token absent
              | failed token error origin => cases succeeded
            | present token active =>
                exact ⟨before, path, .single _ permitted stepped,
                  Nat.le_antisymm sole.once active⟩
            | created token task tasks result inserted fresh sweep =>
                exact ⟨_, .tail path permitted stepped, .refl,
                  sole.one (List.mem_of_getElem? there) inserted fresh sweep⟩
            | released token lock result =>
                cases result with
                | error error => cases succeeded
                | ok done => exact kept (fun _ => rfl) succeeded
          · exact same (by rw [Cluster.setCheck, checks, List.getElem?_set_ne mine, there])

/-- At most one sweep task is active, and a check that held the lock and returned `Ok`
contains a moment at which one is. -/
theorem sole_active_sweep {now : Instant}
    (reached : Reaches (clusterStep decoders) Regular (.initial now) cluster) :
    activeSweeps cluster.workers.tasks ≤ 1 ∧
    ∀ (index : Nat) (finish : Cluster), cluster.checks[index]? = some .acquire →
      Reaches (clusterStep decoders) Regular cluster finish →
      finish.checks[index]? = some (.finished (.ok ())) →
      ∃ middle, Reaches (clusterStep decoders) Regular cluster middle ∧
        Reaches (clusterStep decoders) Regular middle finish ∧
        activeSweeps middle.workers.tasks = 1 := by
  refine ⟨(sole_of_reaches reached).once, fun index finish begun onward ended => ?_⟩
  obtain ⟨phase, there, moment⟩ := moment_of_reaches reached begun onward
  rw [ended] at there
  cases there
  exact moment rfl

private def checkDecoders : Decoders where
  processVideo _ := .error "unused"
  deleteVideo _ := .error "unused"
  cleanupStaleVideos _ := .ok ⟨⟩

/-- A check that finds no sweep task, from its `acquire` to its `release`. -/
def coldCheck (index : Nat) (id : TaskId) : List ClusterEvent :=
  [.check index .none, .check index .none, .create index .none id none, .check index .none]

/-- What becomes of the task: it is polled, handled and rescheduled. -/
def sweepRun : List ClusterEvent :=
  ([.startPoll, .poll 0 .none, .poll 0 .none, .poll 0 .none, .poll 0 .none, .poll 0 .none,
    .poll 0 .none, .pop .none, .fetch 0 .none, .finish 0 (.success none none),
    .write 0 .none] : List Event).map .worker

theorem sole_active_sweep_coldCheck : ∃ cluster finish middle,
    Reaches (clusterStep checkDecoders) Regular (.initial 0) cluster ∧
    Reaches (clusterStep checkDecoders) Regular cluster middle ∧
    Reaches (clusterStep checkDecoders) Regular middle finish ∧
    activeSweeps middle.workers.tasks = 1 := by
  have passed : ((run (clusterStep checkDecoders) Regular (.initial 0) [.startCheck]).map
      fun cluster => decide (cluster.checks[0]? = some .acquire) &&
        (run (clusterStep checkDecoders) Regular cluster
          (coldCheck 0 ⟨.ofNat 7⟩ ++ sweepRun)).any fun finish =>
            decide (finish.checks[0]? = some (.finished (.ok ())))) = some true := by decide +kernel
  obtain ⟨cluster, reached, passed⟩ := reaches_of_check _ passed
  obtain ⟨begun, passed⟩ := Bool.and_eq_true_iff.mp passed
  obtain ⟨finish, ran, ended⟩ := (Option.any_eq_true _ _).mp passed
  obtain ⟨middle, before, after, one⟩ := (sole_active_sweep reached).2 0 finish
    (of_decide_eq_true begun) (reaches_of_run _ ran) (of_decide_eq_true ended)
  exact ⟨cluster, finish, middle, reached, before, after, one⟩

end Benri.Worker
