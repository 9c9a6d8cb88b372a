import Benri.Domain.Identifier
import Mathlib.Data.String.Basic

namespace Benri.Domain

/-! # Tasks

The task row, the trait every task type implements, the three task types, and
`Task::compute_update`, which turns a handler's result into the next row state.
-/

structure TaskId where
  uuid : Uuid
deriving DecidableEq, Repr

structure VideoId where
  uuid : Uuid
deriving DecidableEq, Repr

/-- `serde_json::Value`; a number is kept as the text it was written with. -/
inductive Json where
  | null
  | bool (value : Bool)
  | number (literal : String)
  | string (text : String)
  | array (items : List Json)
  | object (fields : List (String × Json))
deriving Repr

inductive TaskStatus where
  | pending
  | inProgress
  | completed
  | deadLetter
deriving DecidableEq, Repr

def TaskStatus.asStr : TaskStatus → String
  | .pending => "PENDING"
  | .inProgress => "IN_PROGRESS"
  | .completed => "COMPLETED"
  | .deadLetter => "DEAD_LETTER"

def TaskStatus.fromStr (text : String) : Option TaskStatus :=
  match text with
  | "PENDING" => some .pending
  | "IN_PROGRESS" => some .inProgress
  | "COMPLETED" => some .completed
  | "DEAD_LETTER" => some .deadLetter
  | _ => none

/-- The status column survives the trip through its text. -/
theorem TaskStatus.fromStr_asStr (status : TaskStatus) : fromStr status.asStr = some status := by
  cases status <;> rfl

def TaskStatus.terminal : TaskStatus → Bool
  | .completed | .deadLetter => true
  | .pending | .inProgress => false

structure Task where
  id : TaskId
  metadataType : String
  metadata : Json
  status : TaskStatus
  orderingKey : Option String
  traceId : Option String
  attemptCount : Int
  nextRunAt : Instant
  error : Option String
  startedAt : Option Instant
  completedAt : Option Instant
  createdAt : Instant
  updatedAt : Instant
deriving Repr

structure TaskUpdate where
  taskId : TaskId
  status : TaskStatus
  attemptCount : Int
  nextRunAt : Option Instant
  error : Option String
  completedAt : Option Instant
  updatedAt : Instant
deriving DecidableEq, Repr

inductive OutcomeKind where
  | success
  | retried
  | failed
deriving DecidableEq, Repr

structure TaskRunOutcome where
  update : TaskUpdate
  kind : OutcomeKind
deriving DecidableEq, Repr

inductive TaskResult where
  | success (message : Option String) (rescheduleAfter : Option Duration)
  | retryableFailure (error : String) (retryAfter : Option Duration)
  | permanentFailure (error : String)
  | skip (reason : String)
  | terminate (reason : String)
deriving DecidableEq, Repr

/-- Scheduling configuration and routing for a task type.  `processingTimeout`
is documented to stay below 30 minutes. -/
class TaskMetadata (M : Type) where
  processingTimeout : M → Duration := fun _ => .fromSecs 300
  executionInterval : M → Option Duration := fun _ => none
  maxRetries : M → Option Int := fun _ => none
  retryBaseDelay : M → Duration := fun _ => .fromSecs 30
  orderingKey : M → Option String := fun _ => none
  isSystemTask : M → Bool := fun _ => false
  metadataTypeName : M → String
  /-- `serde_json::to_value`. -/
  toValue : M → Json

structure ProcessVideoTaskMetadata where
  videoId : VideoId
deriving DecidableEq, Repr

def ProcessVideoTaskMetadata.METADATA_TYPE : String := "ProcessVideoTaskMetadata"

instance : TaskMetadata ProcessVideoTaskMetadata where
  metadataTypeName _ := ProcessVideoTaskMetadata.METADATA_TYPE
  orderingKey metadata := some ("video_process:" ++ metadata.videoId.uuid.text)
  maxRetries _ := some 1
  retryBaseDelay _ := .fromSecs 60
  processingTimeout _ := .fromSecs (2 * 60 * 60)
  toValue metadata := .object [("video_id", .string metadata.videoId.uuid.text)]

structure DeleteVideoTaskMetadata where
  videoId : VideoId
deriving DecidableEq, Repr

def DeleteVideoTaskMetadata.METADATA_TYPE : String := "DeleteVideoTaskMetadata"

instance : TaskMetadata DeleteVideoTaskMetadata where
  metadataTypeName _ := DeleteVideoTaskMetadata.METADATA_TYPE
  orderingKey metadata := some ("video_delete:" ++ metadata.videoId.uuid.text)
  maxRetries _ := some 5
  retryBaseDelay _ := .fromSecs 60
  processingTimeout _ := .fromSecs (5 * 60)
  toValue metadata := .object [("video_id", .string metadata.videoId.uuid.text)]

structure CleanupStaleVideosTaskMetadata where
deriving DecidableEq, Repr

def CleanupStaleVideosTaskMetadata.METADATA_TYPE : String := "CleanupStaleVideosTaskMetadata"

instance : TaskMetadata CleanupStaleVideosTaskMetadata where
  metadataTypeName _ := CleanupStaleVideosTaskMetadata.METADATA_TYPE
  orderingKey _ := some "cleanup_stale_videos"
  maxRetries _ := some 3
  retryBaseDelay _ := .fromSecs (5 * 60)
  executionInterval _ := some (.fromSecs (24 * 60 * 60))
  processingTimeout _ := .fromSecs (30 * 60)
  isSystemTask _ := true
  toValue _ := .null

/-! ## The next row state -/

def MAX_RETRY_BACKOFF_SECS : Int := 30 * 60
def MAX_BACKOFF_EXPONENT : Int := 10

def saturateI64 (value : Int) : Int := max (-2 ^ 63) (min value (2 ^ 63 - 1))

/-- `value as u32`. -/
def castU32 (value : Int) : Nat := (value % 2 ^ 32).toNat

/-- `1i64 << exp` in a release build, which looks at the exponent modulo 64. -/
def shiftOneI64 (exp : Nat) : Int := Int.bmod (2 ^ (exp % 64)) (2 ^ 64)

section ComputeUpdate

variable {M : Type} [TaskMetadata M]

open TaskMetadata

/-- The backoff in milliseconds: whole seconds, between zero and half an hour. -/
def calculateRetryDelay (metadata : M) (attemptCount : Int) : Int :=
  let baseMs := (retryBaseDelay metadata).millisI64
  let exp := castU32 (min attemptCount MAX_BACKOFF_EXPONENT)
  let delayMs := saturateI64 (baseMs * shiftOneI64 exp)
  let cappedSecs := min (delayMs.tdiv 1000) MAX_RETRY_BACKOFF_SECS
  max cappedSecs 0 * 1000

def Task.onSuccess (task : Task) (metadata : M) (rescheduleAfter : Option Duration)
    (now : Instant) : TaskRunOutcome :=
  let nextRunAt := (rescheduleAfter.or (executionInterval metadata)).map fun delay =>
    now + delay.millisI64
  match nextRunAt with
  | some next =>
      { update := {
          taskId := task.id, status := .pending, attemptCount := 0, nextRunAt := some next,
          error := none, completedAt := some now, updatedAt := now }
        kind := .success }
  | none =>
      { update := {
          taskId := task.id, status := .completed, attemptCount := task.attemptCount,
          nextRunAt := none, error := none, completedAt := some now, updatedAt := now }
        kind := .success }

def Task.onPermanentFailure (task : Task) (error : String) (now : Instant)
    (kind : OutcomeKind) : TaskRunOutcome :=
  { update := {
      taskId := task.id, status := .deadLetter, attemptCount := task.attemptCount,
      nextRunAt := none, error := some error, completedAt := some now, updatedAt := now }
    kind }

def Task.onRetryableFailure (task : Task) (metadata : M) (error : String)
    (retryAfter : Option Duration) (now : Instant) : TaskRunOutcome :=
  let newAttempt := task.attemptCount + 1
  let canRetry := (maxRetries metadata).elim false fun limit => decide (task.attemptCount < limit)
  if !canRetry then task.onPermanentFailure error now .failed
  else
    let delay := (retryAfter.map Duration.millisI64).getD
      (calculateRetryDelay metadata task.attemptCount)
    { update := {
        taskId := task.id, status := .pending, attemptCount := newAttempt,
        nextRunAt := some (now + delay), error := some error, completedAt := none,
        updatedAt := now }
      kind := .retried }

def Task.onSkip (task : Task) (metadata : M) (reason : String) (now : Instant) :
    TaskRunOutcome :=
  match executionInterval metadata with
  | some interval =>
      { update := {
          taskId := task.id, status := .pending, attemptCount := task.attemptCount,
          nextRunAt := some (now + interval.millisI64), error := some ("Skipped: " ++ reason),
          completedAt := none, updatedAt := now }
        kind := .success }
  | none =>
      { update := {
          taskId := task.id, status := .completed, attemptCount := task.attemptCount,
          nextRunAt := none, error := some ("Skipped: " ++ reason), completedAt := some now,
          updatedAt := now }
        kind := .success }

def Task.onTerminate (task : Task) (reason : String) (now : Instant) : TaskRunOutcome :=
  { update := {
      taskId := task.id, status := .completed, attemptCount := task.attemptCount,
      nextRunAt := none, error := some ("Terminated: " ++ reason), completedAt := some now,
      updatedAt := now }
    kind := .success }

def Task.computeUpdate (task : Task) (metadata : M) (result : TaskResult) (now : Instant) :
    TaskRunOutcome :=
  match result with
  | .success _ rescheduleAfter => task.onSuccess metadata rescheduleAfter now
  | .retryableFailure error retryAfter => task.onRetryableFailure metadata error retryAfter now
  | .permanentFailure error => task.onPermanentFailure error now .failed
  | .skip reason => task.onSkip metadata reason now
  | .terminate reason => task.onTerminate reason now

/-- Every outcome is addressed to the task it was computed for, and no outcome
puts a task back in progress. -/
theorem Task.computeUpdate_shape (task : Task) (metadata : M) (result : TaskResult)
    (now : Instant) :
    (task.computeUpdate metadata result now).update.taskId = task.id ∧
      (task.computeUpdate metadata result now).update.status ≠ .inProgress := by
  cases result with
  | success message rescheduleAfter =>
      simp only [computeUpdate, onSuccess]
      split <;> simp
  | retryableFailure error retryAfter =>
      simp only [computeUpdate, onRetryableFailure, onPermanentFailure]
      split <;> simp
  | permanentFailure error => simp [computeUpdate, onPermanentFailure]
  | skip reason =>
      simp only [computeUpdate, onSkip]
      split <;> simp
  | terminate reason => simp [computeUpdate, onTerminate]

/-! ## New rows -/

/-- `TaskScheduler::build_pending_task`; the id, the clock and the ambient trace
id are read by the caller's runtime. -/
def buildPendingTask (metadata : M) (runAt : Option Instant) (id : TaskId)
    (traceId : Option String) (now : Instant) : Task where
  id := id
  metadataType := metadataTypeName metadata
  metadata := toValue metadata
  status := .pending
  orderingKey := orderingKey metadata
  traceId := traceId
  attemptCount := 0
  nextRunAt := runAt.getD now
  error := none
  startedAt := none
  completedAt := none
  createdAt := now
  updatedAt := now

/-- The state every row is inserted in. -/
def Task.isNew (task : Task) : Bool :=
  decide (task.status = .pending) && decide (task.attemptCount = 0) && task.error.isNone &&
    task.startedAt.isNone && task.completedAt.isNone

theorem buildPendingTask_isNew (metadata : M) (runAt : Option Instant) (id : TaskId)
    (traceId : Option String) (now : Instant) :
    (buildPendingTask metadata runAt id traceId now).isNew = true := rfl

end ComputeUpdate

end Benri.Domain
