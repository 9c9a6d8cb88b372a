import Benri.Service.Rows

namespace Benri.Service

open Benri.Data Benri.Domain Benri.Postgres

/-! # Failing a video and scheduling its deletion as one decision -/

/-- The transaction never starts, or its commit does not apply. -/
def TxFault.lost : TxFault → Bool
  | .none | .statement _ _ => false
  | .begin _ => true
  | .commit applied _ => !applied

/-- One of the transaction's first `statements` statements errs. -/
def TxFault.hits (statements : Nat) : TxFault → Bool
  | .statement index _ => decide (index < statements)
  | .none | .begin _ | .commit _ _ => false

/-- Whether `fail_and_schedule_delete` leaves no trace.  Its second statement
also errs on a task id that is taken. -/
def failureDiscarded (stores : Stores) (fault : TxFault) (seed : TaskSeed) : Bool :=
  fault.lost || fault.hits 2 || (stores.tasks.find? seed.id).isSome

/-- Both writes, or none: the row moves from `PROCESSING` to `FAILED` and its
deletion is scheduled, or the two tables are as they were. -/
def OneDecision (before after : Stores) (id : VideoId) : Prop :=
  ((∃ row, before.videos.find? id = some row ∧ row.status = .processing) ∧
    (∀ wanted, after.videos.find? wanted = (before.videos.find? wanted).map fun row =>
      if wanted = id then { row with status := .failed } else row) ∧
    ∃ task, deletesVideo task id = true ∧ after.tasks.rows = before.tasks.rows ++ [task]) ∨
  (after.videos = before.videos ∧ after.tasks = before.tasks)

/-! ## What the transaction does -/

variable {stores : Stores} {fault : TxFault} {id : VideoId} {seed : TaskSeed}

theorem TxFault.guard_of_miss {index statements : Nat} (miss : fault.hits statements = false)
    (below : index < statements) {Answer : Type} (statement : Except String Answer) :
    fault.guard index statement = statement := by
  cases fault with
  | none | begin message | commit applied message => rfl
  | statement failing message =>
      simp only [hits, decide_eq_false_iff_not] at miss
      refine if_neg fun same => miss ?_
      rwa [same]

theorem runTransaction_of_ok {Answer : Type} {closure : Stores → Except String (Stores × Answer)}
    {scope : Stores} {answer : Answer} (closed : closure stores = .ok (scope, answer)) :
    (runTransaction stores fault closure).1 = if fault.lost then stores else scope := by
  cases fault with
  | begin message => rfl
  | none | statement index message => simp [runTransaction, closed, TxFault.lost]
  | commit applied message => cases applied <;> simp [runTransaction, closed, TxFault.lost]

theorem runTransaction_of_error {Answer : Type}
    {closure : Stores → Except String (Stores × Answer)} {error : String}
    (closed : closure stores = .error error) :
    (runTransaction stores fault closure).1 = stores := by
  cases fault <;> simp [runTransaction, closed]

theorem failClosure_of_miss (miss : fault.hits 2 = false) {tasks : TaskTable}
    (inserted : stores.tasks.insert? (pendingTask stores (DeleteVideoTaskMetadata.mk id) seed) =
      some tasks) :
    failClosure fault id seed stores = .ok ({ stores with
      videos := (updateStatusIf stores.videos id .processing .failed).1, tasks }, ()) := by
  have unmoved : ∀ videos, pendingTask { stores with videos } (DeleteVideoTaskMetadata.mk id) seed =
      pendingTask stores (DeleteVideoTaskMetadata.mk id) seed := fun _ => rfl
  simp only [failClosure, updateStatusInTx, scheduleInTx,
    TxFault.guard_of_miss miss Nat.zero_lt_two, TxFault.guard_of_miss miss Nat.one_lt_two,
    unmoved, inserted]

theorem failClosure_of_hit (stores : Stores) (id : VideoId) (seed : TaskSeed)
    (hit : fault.hits 2 = true) :
    ∃ error, failClosure fault id seed stores = .error error := by
  cases fault with
  | none | begin message | commit applied message => cases hit
  | statement index message =>
      have bound : index < 2 := of_decide_eq_true hit
      have which : index = 0 ∨ index = 1 := by omega
      rcases which with rfl | rfl
      · exact ⟨_, rfl⟩
      · exact ⟨databaseError message, by simp [failClosure, updateStatusInTx, scheduleInTx,
          TxFault.guard]⟩

theorem failAndScheduleDelete_discarded (discarded : failureDiscarded stores fault seed = true) :
    failAndScheduleDelete stores fault id seed = stores := by
  unfold failAndScheduleDelete
  cases closed : failClosure fault id seed stores with
  | error error => exact runTransaction_of_error closed
  | ok answer =>
      obtain ⟨scope, _⟩ := answer
      rw [runTransaction_of_ok closed]
      obtain ⟨tasks, inserted, _⟩ := failClosure_result closed
      have fresh : stores.tasks.find? seed.id = none := (Table.insert?_eq_some inserted).1
      have missed : fault.hits 2 = false := by
        refine Bool.eq_false_iff.mpr fun hit => ?_
        obtain ⟨error, failed⟩ := failClosure_of_hit stores id seed hit
        rw [failed] at closed
        cases closed
      rw [if_pos (by simpa [failureDiscarded, missed, fresh] using discarded)]

theorem failAndScheduleDelete_kept (id : VideoId)
    (kept : failureDiscarded stores fault seed = false) :
    ∃ tasks, stores.tasks.insert? (pendingTask stores (DeleteVideoTaskMetadata.mk id) seed) =
        some tasks ∧
      failAndScheduleDelete stores fault id seed = { stores with
        videos := (updateStatusIf stores.videos id .processing .failed).1, tasks } := by
  simp only [failureDiscarded, Bool.or_eq_false_iff, Option.isSome_eq_false_iff,
    Option.isNone_iff_eq_none] at kept
  obtain ⟨⟨effective, missed⟩, fresh⟩ := kept
  obtain ⟨tasks, inserted⟩ : ∃ tasks, stores.tasks.insert?
      (pendingTask stores (DeleteVideoTaskMetadata.mk id) seed) = some tasks :=
    Table.insert?_of_absent fresh
  refine ⟨tasks, inserted, ?_⟩
  rw [failAndScheduleDelete, runTransaction_of_ok (failClosure_of_miss missed inserted), effective]
  rfl

/-! ## When the two writes are one decision -/

/-- The update's answer is dropped, so the deletion is scheduled whenever the
transaction takes effect, whatever became of the row. -/
theorem failAndScheduleDelete_oneDecision_iff (stores : Stores) (fault : TxFault) (id : VideoId)
    (seed : TaskSeed) :
    OneDecision stores (failAndScheduleDelete stores fault id seed) id ↔
      (∃ row, stores.videos.find? id = some row ∧ row.status = .processing) ∨
        failureDiscarded stores fault seed = true := by
  cases discarded : failureDiscarded stores fault seed with
  | true =>
      rw [failAndScheduleDelete_discarded discarded]
      exact ⟨fun _ => .inr rfl, fun _ => .inr ⟨rfl, rfl⟩⟩
  | false =>
      obtain ⟨tasks, inserted, same⟩ := failAndScheduleDelete_kept id discarded
      have added := (Table.insert?_eq_some inserted).2
      rw [same]
      constructor
      · rintro (⟨processing, _⟩ | ⟨_, unchanged⟩)
        · exact .inl processing
        · have grown := congrArg List.length added
          simp [show tasks = stores.tasks from unchanged] at grown
      · rintro (⟨row, found, processing⟩ | impossible)
        · refine .inl ⟨⟨row, found, processing⟩, fun wanted => ?_,
            ⟨_, by simp, added⟩⟩
          rw [find?_updateStatusIf]
          refine Option.map_congr fun other foundOther => ?_
          by_cases addressed : wanted = id
          · subst addressed
            obtain rfl := Option.some.inj (found.symm.trans foundOther)
            rw [if_pos ⟨rfl, processing⟩, if_pos rfl]
          · rw [if_neg fun both => addressed both.1, if_neg addressed]
        · cases impossible

/-- A `PROCESSED` row, as `mark_processed` leaves it whether or not it reports so. -/
private def watchedVideo : Video :=
  { newVideo (.initial 0) ⟨.ofNat 5⟩ "clip" .mp4 with
    status := .processed, shareToken := some "token" }

private def watchedStores : Stores :=
  { Stores.initial 0 with videos := ⟨[watchedVideo], List.nodup_singleton _⟩ }

/-- The deletion of a video that is not failed. -/
theorem failAndScheduleDelete_processed :
    ¬OneDecision watchedStores
      (failAndScheduleDelete watchedStores .none watchedVideo.id ⟨⟨.ofNat 1⟩, none⟩)
      watchedVideo.id := by
  rintro (⟨⟨row, found, processing⟩, _⟩ | ⟨_, unchanged⟩)
  · cases found
    cases processing
  · exact absurd (congrArg (fun tasks : TaskTable => tasks.rows.length) unchanged) (by decide)

end Benri.Service
