import Benri.Domain.Rescheduling
import Benri.Postgres.TaskRepository
import Benri.Worker.Handlers

namespace Benri.Worker

open Benri.Data Benri.Domain Benri.Postgres TaskMetadata

/-! # Outcomes as row transitions

What the metrics, the poller and the outbox read off an outcome: how its status,
its next run time and its kind belong together, and what a row is like once the
outcome is written to it.
-/

/-- An outcome of the dispatcher: computed from a handler's result, whose delay
fits in `i64` milliseconds, or dead-lettered without one. -/
inductive Produced (task : Task) (now : Instant) : Option TaskResult → TaskRunOutcome → Prop where
  | computed {M : Type} [TaskMetadata M] (metadata : M) (result : TaskResult)
      (fits : ∀ delay, (Handled.mk task metadata result).source = .requested delay →
        delay.asMillis < 2 ^ 63) :
      Produced task now (some result) (task.computeUpdate metadata result now)
  | deadLettered (error : String) : Produced task now none (deadLetterOutcome task error now)

/-- The fields of an outcome agree with each other and with the task. -/
structure Coherent (task : Task) (now : Instant) (result : Option TaskResult)
    (outcome : TaskRunOutcome) : Prop where
  own : outcome.update.taskId = task.id
  ended : outcome.update.status ≠ .inProgress
  scheduled : outcome.update.nextRunAt.isSome = true ↔ outcome.update.status = .pending
  failed : outcome.kind = .failed ↔ outcome.update.status = .deadLetter
  retried : outcome.kind = .retried ↔
    (∃ error retryAfter, result = some (.retryableFailure error retryAfter)) ∧
      outcome.update.status = .pending
  stamped : outcome.update.updatedAt = now
  forward : ∀ next, outcome.update.nextRunAt = some next → now ≤ next

/-- The columns no update writes. -/
structure Unwritten (before after : Task) : Prop where
  id : after.id = before.id
  metadataType : after.metadataType = before.metadataType
  metadata : after.metadata = before.metadata
  orderingKey : after.orderingKey = before.orderingKey
  traceId : after.traceId = before.traceId
  startedAt : after.startedAt = before.startedAt
  createdAt : after.createdAt = before.createdAt

variable {M : Type} [TaskMetadata M] {task : Task} {now : Instant}

theorem le_add_millisI64 {delay : Duration} (fits : delay.asMillis < 2 ^ 63) :
    now ≤ now + delay.millisI64 := by
  rw [Duration.millisI64_of_lt fits]
  exact Int.le_add_of_nonneg_right (Int.natCast_nonneg _)

theorem onSuccess_coherent (metadata : M) (message : Option String)
    (rescheduleAfter : Option Duration)
    (fits : ∀ delay, rescheduleAfter.or (executionInterval metadata) = some delay →
      delay.asMillis < 2 ^ 63) :
    Coherent task now (some (.success message rescheduleAfter))
      (task.onSuccess metadata rescheduleAfter now) := by
  simp only [Task.onSuccess]
  cases requested : rescheduleAfter.or (executionInterval metadata) with
  | none => constructor <;> simp
  | some delay =>
      have later : now ≤ now + delay.millisI64 := le_add_millisI64 (fits delay requested)
      constructor <;> simp [later]

theorem onSkip_coherent (metadata : M) (reason : String)
    (fits : ∀ delay, executionInterval metadata = some delay → delay.asMillis < 2 ^ 63) :
    Coherent task now (some (.skip reason)) (task.onSkip metadata reason now) := by
  simp only [Task.onSkip]
  cases interval : executionInterval metadata with
  | none => constructor <;> simp
  | some delay =>
      have later : now ≤ now + delay.millisI64 := le_add_millisI64 (fits delay interval)
      constructor <;> simp [later]

theorem onRetryableFailure_coherent (metadata : M) (error : String)
    (retryAfter : Option Duration)
    (fits : ∀ delay, task.canRetry metadata = true → retryAfter = some delay →
      delay.asMillis < 2 ^ 63) :
    Coherent task now (some (.retryableFailure error retryAfter))
      (task.onRetryableFailure metadata error retryAfter now) := by
  simp only [Task.onRetryableFailure]
  rw [← Task.canRetry]
  cases retry : task.canRetry metadata with
  | false => constructor <;> simp [Task.onPermanentFailure]
  | true =>
      have later : now ≤ now + (retryAfter.map Duration.millisI64).getD
          (calculateRetryDelay metadata task.attemptCount) := by
        cases retryAfter with
        | none =>
            rw [Option.map_none, Option.getD_none]
            exact Int.le_add_of_nonneg_right (calculateRetryDelay_bounds metadata _).1
        | some delay =>
            rw [Option.map_some, Option.getD_some]
            exact le_add_millisI64 (fits delay retry rfl)
      constructor <;> simp [later]

theorem Produced.coherent {result : Option TaskResult} {outcome : TaskRunOutcome}
    (produced : Produced task now result outcome) : Coherent task now result outcome := by
  cases produced with
  | deadLettered error => constructor <;> simp [deadLetterOutcome]
  | computed metadata result fits =>
      cases result with
      | success message rescheduleAfter =>
          apply onSuccess_coherent metadata message rescheduleAfter
          intro delay requested
          exact fits delay (congrArg DelaySource.ofRequest requested)
      | retryableFailure error retryAfter =>
          apply onRetryableFailure_coherent metadata error retryAfter
          rintro delay retry rfl
          exact fits delay (if_pos retry)
      | permanentFailure error =>
          constructor <;> simp [Task.computeUpdate, Task.onPermanentFailure]
      | skip reason =>
          apply onSkip_coherent metadata reason
          intro delay interval
          exact fits delay (congrArg DelaySource.ofRequest interval)
      | terminate reason => constructor <;> simp [Task.computeUpdate, Task.onTerminate]

/-! ## Written to the row -/

/-- `COALESCE` leaves a next run time only where the update brings one. -/
theorem Coherent.assign_forward {result : Option TaskResult} {outcome : TaskRunOutcome} {row : Task}
    (coherent : Coherent task now result outcome)
    (pending : (TaskUpdate.assign outcome.update row).status = .pending) :
    now ≤ (TaskUpdate.assign outcome.update row).nextRunAt := by
  obtain ⟨next, written⟩ := Option.isSome_iff_exists.mp (coherent.scheduled.mpr pending)
  simp only [TaskUpdate.assign, written, Option.getD_some]
  exact coherent.forward next written

theorem assign_unwritten (update : TaskUpdate) (row : Task) :
    Unwritten row (TaskUpdate.assign update row) := by
  constructor <;> rfl

/-- In a batch of updates to different tasks each row gets its own. -/
theorem find?_batchUpdate {tasks : TaskTable} {updates : List TaskUpdate} {update : TaskUpdate}
    {row : Task} (distinct : (updates.map TaskUpdate.taskId).Nodup) (sent : update ∈ updates)
    (found : tasks.find? update.taskId = some row) :
    (batchUpdate tasks updates).find? update.taskId = some (TaskUpdate.assign update row) := by
  have key : row.id = update.taskId := Table.key_of_find? found
  have first : updates.find? (fun other => decide (other.taskId = row.id)) = some update := by
    rw [key]
    exact @Table.find?_of_mem _ _ TaskUpdate.taskId _ ⟨updates, distinct⟩ _ sent
  rw [batchUpdate, Table.find?_update, found, Option.map_some, if_pos rfl, first]

/-- An outcome is coherent, and writing it makes its task's row what the outcome says. -/
theorem outcome_transition {tasks : TaskTable} {updates : List TaskUpdate} {row : Task}
    {result : Option TaskResult} {outcome : TaskRunOutcome}
    (produced : Produced task now result outcome) (found : tasks.find? task.id = some row)
    (distinct : (updates.map TaskUpdate.taskId).Nodup) (sent : outcome.update ∈ updates) :
    Coherent task now result outcome ∧
      ∃ after, (batchUpdate tasks updates).find? task.id = some after ∧
        (after.status = .pending → after.updatedAt = now ∧ now ≤ after.nextRunAt) ∧
        Unwritten row after := by
  have coherent := produced.coherent
  have own := coherent.own
  have written := find?_batchUpdate distinct sent (own ▸ found)
  rw [own] at written
  refine ⟨coherent, _, written, fun pending => ?_, assign_unwritten _ _⟩
  exact ⟨coherent.stamped, coherent.assign_forward pending⟩

/-- A sweep that another one kept from its lock. -/
def busySweep : TaskRunOutcome :=
  sweepInProgress.computeUpdate CleanupStaleVideosTaskMetadata.mk
    (.retryableFailure "busy" (some (.fromSecs 45))) 1767225600000

theorem busySweep_transition :
    Coherent sweepInProgress 1767225600000 (some (.retryableFailure "busy" (some (.fromSecs 45))))
        busySweep ∧
      ∃ after, (batchUpdate ⟨[sweepInProgress], List.nodup_singleton _⟩ [busySweep.update]).find?
          sweepInProgress.id = some after ∧
        after.updatedAt = 1767225600000 ∧ 1767225600000 ≤ after.nextRunAt ∧
        Unwritten sweepInProgress after := by
  have produced : Produced sweepInProgress 1767225600000
      (some (.retryableFailure "busy" (some (.fromSecs 45)))) busySweep :=
    .computed CleanupStaleVideosTaskMetadata.mk _ (by rintro delay ⟨⟩; decide)
  have found : (⟨[sweepInProgress], List.nodup_singleton _⟩ : TaskTable).find? sweepInProgress.id =
      some sweepInProgress := rfl
  have distinct : ([busySweep.update].map TaskUpdate.taskId).Nodup := List.nodup_singleton _
  obtain ⟨coherent, after, written, forward, unwritten⟩ :=
    outcome_transition produced found distinct (List.mem_singleton_self _)
  have pending : after.status = .pending := by
    cases written
    rfl
  exact ⟨coherent, after, written, (forward pending).1, (forward pending).2, unwritten⟩

end Benri.Worker
