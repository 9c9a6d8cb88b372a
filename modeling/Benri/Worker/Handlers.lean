import Benri.Domain.Task

namespace Benri.Worker

open Benri.Domain

/-! # Handler dispatch

The worker registers one handler for each of the three task types.  Dispatching
a row decodes its metadata with the registered type's decoder; a row that no
type is registered for, or that does not decode, is dead-lettered without a
handler running.
-/

/-- `serde_json::from_value` at each registered metadata type. -/
structure Decoders where
  processVideo : Json → Except String ProcessVideoTaskMetadata
  deleteVideo : Json → Except String DeleteVideoTaskMetadata
  cleanupStaleVideos : Json → Except String CleanupStaleVideosTaskMetadata

inductive RegisteredMetadata where
  | processVideo (metadata : ProcessVideoTaskMetadata)
  | deleteVideo (metadata : DeleteVideoTaskMetadata)
  | cleanupStaleVideos (metadata : CleanupStaleVideosTaskMetadata)
deriving DecidableEq, Repr

def RegisteredMetadata.processingTimeout : RegisteredMetadata → Duration
  | .processVideo metadata => TaskMetadata.processingTimeout metadata
  | .deleteVideo metadata => TaskMetadata.processingTimeout metadata
  | .cleanupStaleVideos metadata => TaskMetadata.processingTimeout metadata

def RegisteredMetadata.computeUpdate (metadata : RegisteredMetadata) (task : Task)
    (result : TaskResult) (now : Instant) : TaskRunOutcome :=
  match metadata with
  | .processVideo metadata => task.computeUpdate metadata result now
  | .deleteVideo metadata => task.computeUpdate metadata result now
  | .cleanupStaleVideos metadata => task.computeUpdate metadata result now

/-- The handler map that `main` builds. -/
def handlerFor (decoders : Decoders) (metadataType : String) :
    Option (Json → Except String RegisteredMetadata) :=
  if metadataType = ProcessVideoTaskMetadata.METADATA_TYPE then
    some fun json => (decoders.processVideo json).map .processVideo
  else if metadataType = CleanupStaleVideosTaskMetadata.METADATA_TYPE then
    some fun json => (decoders.cleanupStaleVideos json).map .cleanupStaleVideos
  else if metadataType = DeleteVideoTaskMetadata.METADATA_TYPE then
    some fun json => (decoders.deleteVideo json).map .deleteVideo
  else none

def deadLetterOutcome (task : Task) (error : String) (now : Instant) : TaskRunOutcome :=
  { update := {
      taskId := task.id, status := .deadLetter, attemptCount := task.attemptCount,
      nextRunAt := none, error := some error, completedAt := some now, updatedAt := now }
    kind := .failed }

/-- What `dispatch` knows before a handler runs: the typed metadata, or the
error of the dead-letter outcome. -/
def route (decoders : Decoders) (task : Task) : Except String RegisteredMetadata :=
  match handlerFor decoders task.metadataType with
  | none => .error ("no handler registered for metadata type: " ++ task.metadataType)
  | some decode => (decode task.metadata).mapError fun error =>
      "failed to deserialize metadata for " ++ task.metadataType ++ ": " ++ error

/-- The fraction `digits`-many decimal digits hold, without trailing zeros. -/
private def fractionText (fraction : Nat) : Nat → String
  | 0 => ""
  | digits + 1 =>
      if fraction = 0 then ""
      else toString (fraction / 10 ^ digits) ++ fractionText (fraction % 10 ^ digits) digits

private def decimalText (whole fraction digits : Nat) (unit : String) : String :=
  if fraction = 0 then toString whole ++ unit
  else toString whole ++ "." ++ fractionText fraction digits ++ unit

/-- `{:?}` of a duration: the largest unit that leaves a whole part. -/
def durationDebug (duration : Duration) : String :=
  let nanos := duration.nanos
  if 10 ^ 9 ≤ nanos then decimalText (nanos / 10 ^ 9) (nanos % 10 ^ 9) 9 "s"
  else if 10 ^ 6 ≤ nanos then decimalText (nanos / 10 ^ 6) (nanos % 10 ^ 6) 6 "ms"
  else if 10 ^ 3 ≤ nanos then decimalText (nanos / 10 ^ 3) (nanos % 10 ^ 3) 3 "µs"
  else toString nanos ++ "ns"

/-- The result that replaces a handler's when its time is up. -/
def timeoutResult (metadata : RegisteredMetadata) : TaskResult :=
  .retryableFailure ("handler timed out after " ++ durationDebug metadata.processingTimeout) none

example : durationDebug ⟨1500000000, by decide⟩ = "1.5s" := by decide

theorem RegisteredMetadata.computeUpdate_shape (metadata : RegisteredMetadata) (task : Task)
    (result : TaskResult) (now : Instant) :
    (metadata.computeUpdate task result now).update.taskId = task.id ∧
      (metadata.computeUpdate task result now).update.status ≠ .inProgress := by
  cases metadata <;> exact task.computeUpdate_shape _ result now

/-- After a plain success a task is finished, or waits for a day. -/
theorem RegisteredMetadata.computeUpdate_success (metadata : RegisteredMetadata) (task : Task)
    (message : Option String) (now : Instant) :
    (metadata.computeUpdate task (.success message none) now).update.status = .pending →
      (metadata.computeUpdate task (.success message none) now).update.nextRunAt =
        some (now + 86400000) := by
  cases metadata with
  | processVideo metadata => intro pending; cases pending
  | deleteVideo metadata => intro pending; cases pending
  | cleanupStaleVideos metadata =>
      intro _
      have day : (Duration.fromSecs (24 * 60 * 60)).millisI64 = 86400000 := by decide
      change some (now + (Duration.fromSecs (24 * 60 * 60)).millisI64) = some (now + 86400000)
      rw [day]

end Benri.Worker
