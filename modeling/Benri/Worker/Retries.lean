import Benri.Postgres.TaskRepository
import Mathlib.Data.List.Induction

namespace Benri.Worker

open Benri.Data Benri.Domain Benri.Postgres TaskMetadata

/-! # Retry accounting

The results of one task, fed to its row one after another, with no crash and no
stale recovery in between.  `failuresSince` counts the failures from the results
alone; the row's `attempt_count` is compared with it.
-/

/-- A handler's result, with the times at which its attempt is marked in
progress and written back. -/
structure Report where
  result : TaskResult
  startedAt : Instant
  now : Instant

variable {M : Type} [TaskMetadata M]

/-- One attempt at a task.  A finished row is never picked up again. -/
def attemptTask (metadata : M) (id : TaskId) (tasks : TaskTable) (report : Report) :
    Option TaskTable :=
  match tasks.find? id with
  | none => none
  | some task =>
      if task.status.terminal then none
      else
        let outcome := task.computeUpdate metadata report.result report.now
        some (batchUpdate (markInProgress tasks [id] report.startedAt) [outcome.update])

def feed (metadata : M) (id : TaskId) (tasks : TaskTable) (reports : List Report) :
    Option TaskTable :=
  reports.foldlM (attemptTask metadata id) tasks

/-- `max_retries`, where `None` and negative values allow no retry. -/
def retryBudget (metadata : M) : Nat := ((maxRetries metadata).getD 0).toNat

/-- The failure count after one more result. -/
def countFailure (metadata : M) (failures : Nat) : TaskResult → Nat
  | .retryableFailure _ _ => failures + 1
  | .success _ rescheduleAfter =>
      if (rescheduleAfter.or (executionInterval metadata)).isSome then 0 else failures
  | .permanentFailure _ | .skip _ | .terminate _ => failures

/-- The retryable failures since creation or the last success that rescheduled. -/
def failuresSince (metadata : M) (reports : List Report) : Nat :=
  reports.foldl (fun failures report => countFailure metadata failures report.result) 0

@[simp] theorem failuresSince_append (metadata : M) (reports : List Report) (report : Report) :
    failuresSince metadata (reports ++ [report]) =
      countFailure metadata (failuresSince metadata reports) report.result := by
  simp [failuresSince]

theorem feed_append (metadata : M) (id : TaskId) (tasks : TaskTable) (reports : List Report)
    (report : Report) :
    feed metadata id tasks (reports ++ [report]) =
      (feed metadata id tasks reports).bind fun before =>
        attemptTask metadata id before report := by
  simp only [feed, List.foldlM_append, List.foldlM_cons, List.foldlM_nil, bind_pure]
  rfl

/-! ## One attempt -/

/-- An attempt writes what `compute_update` says into the row it was computed for. -/
theorem attemptTask_row (metadata : M) (report : Report) {id : TaskId} {before : TaskTable}
    {task : Task} (row : before.find? id = some task) (live : task.status.terminal = false) :
    ∃ after new, attemptTask metadata id before report = some after ∧ after.find? id = some new ∧
      new.status = (task.computeUpdate metadata report.result report.now).update.status ∧
      new.attemptCount =
        (task.computeUpdate metadata report.result report.now).update.attemptCount := by
  have addressed : (task.computeUpdate metadata report.result report.now).update.taskId = id :=
    (task.computeUpdate_shape metadata report.result report.now).1.trans (Table.key_of_find? row)
  have step : attemptTask metadata id before report =
      some (batchUpdate (markInProgress before [id] report.startedAt)
        [(task.computeUpdate metadata report.result report.now).update]) := by
    simp [attemptTask, row, live]
  have written := find?_batchUpdate_single (markInProgress before [id] report.startedAt)
    (task.computeUpdate metadata report.result report.now).update id
  rw [find?_markInProgress, row, Option.map_some, Option.map_some, if_pos addressed] at written
  exact ⟨_, _, step, written, rfl, rfl⟩

theorem attemptTask_live {metadata : M} {id : TaskId} {before after : TaskTable} {report : Report}
    (fed : attemptTask metadata id before report = some after) :
    ∃ task, before.find? id = some task ∧ task.status.terminal = false := by
  cases row : before.find? id with
  | none => simp [attemptTask, row] at fed
  | some task =>
      refine ⟨task, rfl, ?_⟩
      by_contra finished
      simp [attemptTask, row, finished] at fed

/-- What the row records about the failures counted so far: the count itself as
long as the budget covers it, and the budget once it is exceeded. -/
structure Counted (metadata : M) (failures : Nat) (task : Task) : Prop where
  recorded : task.attemptCount = (min failures (retryBudget metadata) : Nat)
  spent : failures ≤ retryBudget metadata + 1
  live : task.status.terminal = false → failures ≤ retryBudget metadata

theorem canRetry_iff (metadata : M) (failures : Nat) :
    ((maxRetries metadata).elim false fun limit => decide ((failures : Int) < limit)) = true ↔
      failures < retryBudget metadata := by
  unfold retryBudget
  cases maxRetries metadata with
  | none => simp
  | some limit =>
      simp only [Option.elim_some, decide_eq_true_eq, Option.getD_some]
      omega

section Kinds

variable {metadata : M} {failures : Nat} {task new : Task} {now : Instant}

theorem Counted.recorded_live (counted : Counted metadata failures task)
    (live : task.status.terminal = false) : task.attemptCount = (failures : Int) := by
  rw [counted.recorded, Nat.min_eq_left (counted.live live)]

/-- An update that keeps the count and does not dead-letter keeps the record. -/
theorem Counted.kept (counted : Counted metadata failures task)
    (live : task.status.terminal = false) (attempts : new.attemptCount = task.attemptCount)
    (alive : new.status ≠ .deadLetter) :
    Counted metadata failures new ∧
      (new.status = .deadLetter ↔ failures = retryBudget metadata + 1) := by
  have covered := counted.live live
  refine ⟨⟨by rw [attempts, counted.recorded], counted.spent, fun _ => covered⟩, ?_⟩
  simp only [alive, false_iff]
  omega

theorem onSuccess_counted (message : Option String) {rescheduleAfter : Option Duration}
    (counted : Counted metadata failures task) (live : task.status.terminal = false)
    (status : new.status = (task.onSuccess metadata rescheduleAfter now).update.status)
    (attempts : new.attemptCount =
      (task.onSuccess metadata rescheduleAfter now).update.attemptCount) :
    Counted metadata (countFailure metadata failures (.success message rescheduleAfter)) new ∧
      (new.status = .deadLetter ↔
        countFailure metadata failures (.success message rescheduleAfter) =
          retryBudget metadata + 1) := by
  unfold Task.onSuccess at status attempts
  cases delay : rescheduleAfter.or (executionInterval metadata) with
  | some next =>
      simp only [delay, Option.map_some] at status attempts
      simp only [countFailure, delay, Option.isSome_some, if_true]
      exact ⟨⟨by simp [attempts], by simp, fun _ => by simp⟩, by simp [status]⟩
  | none =>
      simp only [delay, Option.map_none] at status attempts
      simp only [countFailure, delay, Option.isSome_none, Bool.false_eq_true, if_false]
      exact counted.kept live attempts (by simp [status])

theorem onRetryableFailure_counted {error : String} {retryAfter : Option Duration}
    (counted : Counted metadata failures task) (live : task.status.terminal = false)
    (status : new.status =
      (task.onRetryableFailure metadata error retryAfter now).update.status)
    (attempts : new.attemptCount =
      (task.onRetryableFailure metadata error retryAfter now).update.attemptCount) :
    Counted metadata (failures + 1) new ∧
      (new.status = .deadLetter ↔ failures + 1 = retryBudget metadata + 1) := by
  have covered := counted.live live
  have recorded := counted.recorded_live live
  have decision := canRetry_iff metadata failures
  simp only [Task.onRetryableFailure, recorded] at status attempts
  by_cases room : failures < retryBudget metadata
  · simp only [decision.mpr room, Bool.not_true, Bool.false_eq_true, if_false] at status attempts
    refine ⟨⟨?_, Nat.le_succ_of_le room, fun _ => room⟩, ?_⟩
    · rw [attempts, Nat.min_eq_left room]
      rfl
    · simp only [status, reduceCtorEq, false_iff]
      omega
  · -- the budget is spent: the count stays as it was, and the task is given up
    have full : failures = retryBudget metadata := by omega
    simp only [Bool.eq_false_iff.mpr fun retry => room (decision.mp retry), Bool.not_false,
      if_true, Task.onPermanentFailure] at status attempts
    refine ⟨⟨?_, by rw [full], fun stillLive => ?_⟩, by simp [status, full]⟩
    · rw [attempts, recorded, full, Nat.min_eq_right (Nat.le_succ _)]
    · rw [status] at stillLive
      cases stillLive

/-- Each kind of result keeps the record, and tells when it dead-letters. -/
theorem computeUpdate_counted {result : TaskResult} (counted : Counted metadata failures task)
    (live : task.status.terminal = false)
    (status : new.status = (task.computeUpdate metadata result now).update.status)
    (attempts : new.attemptCount = (task.computeUpdate metadata result now).update.attemptCount) :
    Counted metadata (countFailure metadata failures result) new ∧
      (new.status = .deadLetter ↔
        (∃ error, result = .permanentFailure error) ∨
          countFailure metadata failures result = retryBudget metadata + 1) := by
  cases result with
  | success message rescheduleAfter =>
      simpa using onSuccess_counted message counted live status attempts
  | retryableFailure error retryAfter =>
      simpa [countFailure] using onRetryableFailure_counted counted live status attempts
  | permanentFailure error =>
      simp only [Task.computeUpdate, Task.onPermanentFailure] at status attempts
      refine ⟨⟨by rw [attempts, counted.recorded]; rfl, counted.spent, fun stillLive => ?_⟩, ?_⟩
      · rw [status] at stillLive
        cases stillLive
      · simp [status]
  | skip reason =>
      have kept : new.attemptCount = task.attemptCount ∧ new.status ≠ .deadLetter := by
        simp only [Task.computeUpdate, Task.onSkip] at status attempts
        rw [status, attempts]
        cases executionInterval metadata with
        | none => exact ⟨rfl, by simp⟩
        | some interval => exact ⟨rfl, by simp⟩
      simpa [countFailure] using counted.kept live kept.1 kept.2
  | terminate reason =>
      simp only [Task.computeUpdate, Task.onTerminate] at status attempts
      simpa [countFailure] using counted.kept live attempts (by simp [status])

/-- Only one more retryable failure exceeds a budget that covered those before. -/
theorem retryable_of_exceeds {result : TaskResult} (covered : failures ≤ retryBudget metadata)
    (exceeded : countFailure metadata failures result = retryBudget metadata + 1) :
    ∃ error retryAfter, result = .retryableFailure error retryAfter := by
  cases result with
  | retryableFailure error retryAfter => exact ⟨error, retryAfter, rfl⟩
  | success message rescheduleAfter =>
      rw [countFailure] at exceeded
      split at exceeded <;> omega
  | permanentFailure error | skip reason | terminate reason =>
      rw [countFailure] at exceeded
      omega

end Kinds

/-! ## A whole sequence -/

/-- A fresh transcoding task, which may be retried once. -/
private def transcoding : ProcessVideoTaskMetadata := ⟨⟨.ofNat 5⟩⟩

private def transcodingTask : Task := buildPendingTask transcoding none ⟨.ofNat 7⟩ none 0

private def transcodingTasks : TaskTable := ⟨[transcodingTask], List.nodup_singleton _⟩

private def failedReport : Report := ⟨.retryableFailure "boom" none, 0, 0⟩

section Sequence

variable {metadata : M} {id : TaskId} {tasks : TaskTable} {task : Task}

theorem counted_of_feed (row : tasks.find? id = some task) (fresh : task.attemptCount = 0)
    {reports : List Report} {after : TaskTable}
    (fed : feed metadata id tasks reports = some after) :
    ∃ new, after.find? id = some new ∧ Counted metadata (failuresSince metadata reports) new := by
  induction reports using List.reverseRecOn generalizing after with
  | nil =>
      cases fed
      exact ⟨task, row, by simp [fresh, failuresSince], Nat.zero_le _, fun _ => Nat.zero_le _⟩
  | append_singleton reports report ih =>
      rw [feed_append] at fed
      obtain ⟨before, earlier, last⟩ := Option.bind_eq_some_iff.mp fed
      obtain ⟨old, oldRow, counted⟩ := ih earlier
      obtain ⟨live, found, running⟩ := attemptTask_live last
      rw [oldRow] at found
      obtain rfl := Option.some.inj found
      obtain ⟨written, new, wrote, newRow, status, attempts⟩ :=
        attemptTask_row metadata report oldRow running
      rw [last] at wrote
      obtain rfl := Option.some.inj wrote
      refine ⟨new, newRow, ?_⟩
      rw [failuresSince_append]
      exact (computeUpdate_counted counted running status attempts).1

/-- A row that is not finished has spent at most its budget and takes any further
result: a retryable failure dead-letters it exactly when it is the first one
beyond the budget, a permanent failure at once, another result never.  The sum
`compute_update` forms stays inside `i32`. -/
theorem deadLetter_at_budget (metadata : M)
    (bounded : ∀ limit, maxRetries metadata = some limit → limit < 2 ^ 31 - 1)
    (tasks : TaskTable) (id : TaskId) (task : Task) (row : tasks.find? id = some task)
    (fresh : task.attemptCount = 0) (reports : List Report) (before : TaskTable)
    (fed : feed metadata id tasks reports = some before) :
    ∃ old, before.find? id = some old ∧ (old.status.terminal = false →
      failuresSince metadata reports ≤ retryBudget metadata ∧ old.attemptCount + 1 < 2 ^ 31 ∧
      ∀ report, ∃ after new, attemptTask metadata id before report = some after ∧
        after.find? id = some new ∧
        (∀ error retryAfter, report.result = .retryableFailure error retryAfter →
          (new.status = .deadLetter ↔
            failuresSince metadata (reports ++ [report]) = retryBudget metadata + 1)) ∧
        (∀ error, report.result = .permanentFailure error → new.status = .deadLetter) ∧
        (new.status = .deadLetter →
          (∃ error retryAfter, report.result = .retryableFailure error retryAfter) ∨
            ∃ error, report.result = .permanentFailure error)) := by
  obtain ⟨old, oldRow, counted⟩ := counted_of_feed row fresh fed
  refine ⟨old, oldRow, fun live => ?_⟩
  have covered := counted.live live
  have small : retryBudget metadata < 2 ^ 31 - 1 := by
    unfold retryBudget
    cases limited : maxRetries metadata with
    | none => simp
    | some limit =>
        have := bounded limit limited
        simp only [Option.getD_some]
        omega
  refine ⟨covered, ?_, fun report => ?_⟩
  · rw [counted.recorded, Nat.min_eq_left covered]
    omega
  · obtain ⟨after, new, fedOne, newRow, status, attempts⟩ :=
      attemptTask_row metadata report oldRow live
    have decided := (computeUpdate_counted counted live status attempts).2
    rw [failuresSince_append]
    refine ⟨after, new, fedOne, newRow, fun error retryAfter failed => ?_, fun error failed => ?_,
      fun dead => ?_⟩
    · rw [decided, failed]
      simp
    · exact decided.mpr (.inl ⟨error, failed⟩)
    · rcases decided.mp dead with permanent | exceeded
      · exact .inr permanent
      · exact .inl (retryable_of_exceeds covered exceeded)

theorem deadLetter_at_budget_transcoding :
    ∃ before after new,
      feed transcoding ⟨.ofNat 7⟩ transcodingTasks [failedReport] = some before ∧
      attemptTask transcoding ⟨.ofNat 7⟩ before failedReport = some after ∧
      after.find? ⟨.ofNat 7⟩ = some new ∧ new.status = .deadLetter := by
  obtain ⟨old, oldRow, live⟩ := deadLetter_at_budget transcoding
    (by rintro limit ⟨⟩; decide) transcodingTasks ⟨.ofNat 7⟩ transcodingTask rfl rfl
    [failedReport] _ rfl
  cases oldRow
  obtain ⟨after, new, fed, newRow, failed, _⟩ := (live rfl).2.2 failedReport
  exact ⟨_, after, new, rfl, fed, newRow, (failed "boom" none rfl).mpr rfl⟩

/-- The row's count is right after every step exactly when the results never
exceed the budget: the update that does exceed it writes the old count. -/
theorem attemptCount_counts_iff (metadata : M) (tasks : TaskTable) (id : TaskId) (task : Task)
    (row : tasks.find? id = some task) (fresh : task.attemptCount = 0) (reports : List Report)
    (after : TaskTable) (fed : feed metadata id tasks reports = some after) :
    (∀ front middle counted, front <+: reports → feed metadata id tasks front = some middle →
      middle.find? id = some counted →
        counted.attemptCount = failuresSince metadata front) ↔
      ∀ front, front <+: reports → failuresSince metadata front ≤ retryBudget metadata := by
  constructor
  · rintro right front ⟨back, rfl⟩
    obtain ⟨middle, early⟩ : ∃ middle, feed metadata id tasks front = some middle := by
      rw [feed, List.foldlM_append] at fed
      obtain ⟨middle, early, _⟩ := Option.bind_eq_some_iff.mp fed
      exact ⟨middle, early⟩
    obtain ⟨old, oldRow, counted⟩ := counted_of_feed row fresh early
    have same := right front middle old ⟨back, rfl⟩ early oldRow
    rw [counted.recorded] at same
    omega
  · intro covered front middle old ahead early oldRow
    obtain ⟨found, foundRow, counted⟩ := counted_of_feed row fresh early
    rw [oldRow] at foundRow
    obtain rfl := Option.some.inj foundRow
    rw [counted.recorded, Nat.min_eq_left (covered front ahead)]

theorem attemptCount_counts_iff_transcoding :
    ∃ middle counted, feed transcoding ⟨.ofNat 7⟩ transcodingTasks [failedReport] = some middle ∧
      middle.find? ⟨.ofNat 7⟩ = some counted ∧
      counted.attemptCount = failuresSince transcoding [failedReport] := by
  refine ⟨_, _, rfl, rfl, ?_⟩
  refine (attemptCount_counts_iff transcoding transcodingTasks ⟨.ofNat 7⟩ transcodingTask rfl rfl
    [failedReport] _ rfl).mpr (fun front ahead => ?_) [failedReport] _ _
      List.prefix_rfl rfl rfl
  rcases List.prefix_cons_iff.mp ahead with rfl | ⟨rest, rfl, none⟩
  · decide
  · rw [List.prefix_nil.mp none]
    decide

/-- The second failure exhausts the budget of one retry and is not counted. -/
theorem attemptCount_misses_last :
    ∃ after counted,
      feed transcoding ⟨.ofNat 7⟩ transcodingTasks [failedReport, failedReport] = some after ∧
      after.find? ⟨.ofNat 7⟩ = some counted ∧ counted.status = .deadLetter ∧
      counted.attemptCount ≠ failuresSince transcoding [failedReport, failedReport] :=
  ⟨_, _, rfl, rfl, rfl, by decide⟩

end Sequence

end Benri.Worker
