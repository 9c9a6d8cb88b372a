import Benri.Postgres.TaskRepository
import Benri.Postgres.VideoRepository
import Benri.Storage.Objects
import Benri.Transition.Run

namespace Benri.Service

open Benri.Data Benri.Domain Benri.Postgres Benri.Storage Benri.Transition

/-! # What the use cases share

The two tables and the object store, with the clock.  `issued` and `tokens` are
history: the ids that were given to videos, and the share tokens that reached a
row.
-/

structure Stores where
  now : Instant
  videos : VideoTable
  tasks : TaskTable
  objects : Objects
  issued : List VideoId
  tokens : List (VideoId × String)

def Stores.initial (now : Instant) : Stores where
  now := now
  videos := .empty
  tasks := .empty
  objects := .empty
  issued := []
  tokens := []

/-- The id and the trace id that `build_pending_task` takes from its runtime. -/
structure TaskSeed where
  id : TaskId
  traceId : Option String
deriving DecidableEq, Repr

section Scheduling

variable {M : Type} [TaskMetadata M]

def pendingTask (stores : Stores) (metadata : M) (seed : TaskSeed) : Task :=
  buildPendingTask metadata none seed.id seed.traceId stores.now

/-- `TaskScheduler::schedule_standalone`. -/
def scheduleStandalone (stores : Stores) (fault : Fault) (metadata : M) (seed : TaskSeed) :
    Stores × Except String Unit :=
  match stores.tasks.insert? (pendingTask stores metadata seed) with
  | none => (stores, .error duplicateKey)
  | some tasks => attempt fault databaseError stores { stores with tasks } ()

theorem scheduleStandalone_stores (stores : Stores) (fault : Fault) (metadata : M)
    (seed : TaskSeed) :
    ∃ tasks, (scheduleStandalone stores fault metadata seed).1 = { stores with tasks } ∧
      (tasks = stores.tasks ∨
        stores.tasks.insert? (pendingTask stores metadata seed) = some tasks) := by
  unfold scheduleStandalone
  cases inserted : stores.tasks.insert? (pendingTask stores metadata seed) with
  | none => exact ⟨stores.tasks, rfl, .inl rfl⟩
  | some tasks =>
      dsimp only
      rcases attempt_state fault databaseError stores { stores with tasks } () with same | same
      · exact ⟨stores.tasks, same, .inl rfl⟩
      · exact ⟨tasks, same, .inr rfl⟩

end Scheduling

/-! ## `PgTransactionPort::run` -/

inductive TxFault where
  | none
  | begin (message : String)
  | statement (index : Nat) (message : String)
  | commit (applied : Bool) (message : String)
deriving DecidableEq, Repr

/-- A statement inside a transaction. -/
def TxFault.guard (fault : TxFault) (index : Nat) {Answer : Type}
    (statement : Except String Answer) : Except String Answer :=
  match fault with
  | .statement failing message =>
      if failing = index then .error (databaseError message) else statement
  | _ => statement

/-- The closure runs against the scope; an error rolls back.  What the closure
stored outside is its answer, which callers read after a commit only. -/
def runTransaction {Answer : Type} (stores : Stores) (fault : TxFault)
    (closure : Stores → Except String (Stores × Answer)) : Stores × Except String Answer :=
  match fault with
  | .begin message => (stores, .error (databaseError message))
  | _ =>
      match closure stores with
      | .error error => (stores, .error error)
      | .ok (scope, answer) =>
          match fault with
          | .commit applied message =>
              (if applied then scope else stores, .error (databaseError message))
          | _ => (scope, .ok answer)

/-- `VideoMutations::update_status_if`. -/
def updateStatusInTx (fault : TxFault) (index : Nat) (scope : Stores) (id : VideoId)
    (expected newStatus : VideoStatus) : Except String (Stores × Bool) :=
  let answer := updateStatusIf scope.videos id expected newStatus
  fault.guard index (.ok ({ scope with videos := answer.1 }, answer.2))

/-- `TaskScheduler::schedule_in_tx`. -/
def scheduleInTx {M : Type} [TaskMetadata M] (fault : TxFault) (index : Nat) (scope : Stores)
    (metadata : M) (seed : TaskSeed) : Except String Stores :=
  fault.guard index (match scope.tasks.insert? (pendingTask scope metadata seed) with
    | none => .error duplicateKey
    | some tasks => .ok { scope with tasks })

/-- A transaction leaves what its closure did, or nothing. -/
theorem runTransaction_result {Answer : Type} {stores reached : Stores} {fault : TxFault}
    {closure : Stores → Except String (Stores × Answer)} {result : Except String Answer}
    (ran : runTransaction stores fault closure = (reached, result)) :
    (∃ answer, closure stores = .ok (reached, answer) ∧
      (result = .ok answer ∨ ∃ error, result = .error error)) ∨
      reached = stores ∧ ∃ error, result = .error error := by
  unfold runTransaction at ran
  cases done : closure stores with
  | error error =>
      cases fault <;> simp only [done] at ran <;> cases ran <;> exact .inr ⟨rfl, _, rfl⟩
  | ok pair =>
      obtain ⟨scope, answer⟩ := pair
      cases fault with
      | none => simp only [done] at ran; cases ran; exact .inl ⟨answer, rfl, .inl rfl⟩
      | begin message => cases ran; exact .inr ⟨rfl, _, rfl⟩
      | statement index message =>
          simp only [done] at ran; cases ran; exact .inl ⟨answer, rfl, .inl rfl⟩
      | commit applied message =>
          simp only [done] at ran
          cases applied <;> cases ran
          · exact .inr ⟨rfl, _, rfl⟩
          · exact .inl ⟨answer, rfl, .inr ⟨_, rfl⟩⟩

/-- A guarded statement that succeeds is the statement. -/
theorem TxFault.guard_ok {fault : TxFault} {index : Nat} {Answer : Type}
    {statement : Except String Answer} {answer : Answer}
    (succeeded : fault.guard index statement = .ok answer) : statement = .ok answer := by
  unfold TxFault.guard at succeeded
  split at succeeded
  · split at succeeded
    · cases succeeded
    · exact succeeded
  · exact succeeded

theorem updateStatusInTx_ok {fault : TxFault} {index : Nat} {scope reached : Stores}
    {id : VideoId} {expected newStatus : VideoStatus} {touched : Bool}
    (succeeded : updateStatusInTx fault index scope id expected newStatus = .ok (reached, touched)) :
    reached = { scope with videos := (updateStatusIf scope.videos id expected newStatus).1 } ∧
      touched = (updateStatusIf scope.videos id expected newStatus).2 := by
  unfold updateStatusInTx at succeeded
  have answer := TxFault.guard_ok succeeded
  cases answer
  exact ⟨rfl, rfl⟩

theorem scheduleInTx_ok {M : Type} [TaskMetadata M] {fault : TxFault} {index : Nat}
    {scope reached : Stores} {metadata : M} {seed : TaskSeed}
    (succeeded : scheduleInTx fault index scope metadata seed = .ok reached) :
    ∃ tasks, scope.tasks.insert? (pendingTask scope metadata seed) = some tasks ∧
      reached = { scope with tasks } := by
  unfold scheduleInTx at succeeded
  have answer := TxFault.guard_ok succeeded
  split at answer
  · cases answer
  · rename_i tasks inserted
    cases answer
    exact ⟨tasks, inserted, rfl⟩

end Benri.Service
