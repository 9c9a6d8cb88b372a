import Benri.Postgres.Schema
import Benri.Worker.Handlers

namespace Benri.Worker

open Benri.Domain Benri.Postgres TaskMetadata

/-! # From a stored row to a handler

A task is stored with its metadata as text.  Reading it back, the dispatcher
decodes the metadata for the type the row names; what cannot be read as JSON has
become `null` by then.
-/

/-- The parts of the serialization libraries that the decoders are made of. -/
structure Serde where
  /-- `serde_json::from_str` -/
  fromStr : String → Except String Json
  /-- `Uuid`, read from a string. -/
  parseUuid : String → Except String Uuid
  /-- The error for a value that does not have the shape of the named struct. -/
  mismatch : String → Json → String

/-- The derived decoder of a struct whose one field is `video_id`. -/
def Serde.videoId (serde : Serde) (name : String) (json : Json) : Except String VideoId :=
  match json with
  | .object fields =>
      match fields.lookup "video_id" with
      | some (.string text) => (serde.parseUuid text).map .mk
      | _ => .error (serde.mismatch name json)
  | .array [.string text] => (serde.parseUuid text).map .mk
  | _ => .error (serde.mismatch name json)

/-- The derived decoder of a struct without fields. -/
def Serde.unitStruct (serde : Serde) (name : String) (json : Json) : Except String Unit :=
  match json with
  | .null => .ok ()
  | _ => .error (serde.mismatch name json)

def Serde.decoders (serde : Serde) : Decoders where
  processVideo json := (serde.videoId "ProcessVideoTaskMetadata" json).map .mk
  deleteVideo json := (serde.videoId "DeleteVideoTaskMetadata" json).map .mk
  cleanupStaleVideos json :=
    (serde.unitStruct "CleanupStaleVideosTaskMetadata" json).map fun _ => .mk

structure TaskExecutionContext where
  taskId : TaskId
  attemptCount : Int
deriving DecidableEq, Repr

/-- The handler that was called, by the metadata it was given, and the outcome. -/
structure Dispatched where
  called : Option RegisteredMetadata
  outcome : TaskRunOutcome
deriving DecidableEq, Repr

/-- `HandlerDispatch::dispatch`, for handlers that answer with `handle`. -/
def dispatch (decoders : Decoders) (handle : RegisteredMetadata → TaskExecutionContext → TaskResult)
    (task : Task) (now : Instant) : Dispatched :=
  match route decoders task with
  | .error error => ⟨none, deadLetterOutcome task error now⟩
  | .ok metadata =>
      ⟨some metadata,
        metadata.computeUpdate task (handle metadata ⟨task.id, task.attemptCount⟩) now⟩

/-! ## What is scheduled is dispatched -/

namespace RegisteredMetadata

def toValue : RegisteredMetadata → Json
  | .processVideo metadata => TaskMetadata.toValue metadata
  | .deleteVideo metadata => TaskMetadata.toValue metadata
  | .cleanupStaleVideos metadata => TaskMetadata.toValue metadata

def metadataTypeName : RegisteredMetadata → String
  | .processVideo metadata => TaskMetadata.metadataTypeName metadata
  | .deleteVideo metadata => TaskMetadata.metadataTypeName metadata
  | .cleanupStaleVideos metadata => TaskMetadata.metadataTypeName metadata

def buildPendingTask (metadata : RegisteredMetadata) (runAt : Option Instant) (id : TaskId)
    (traceId : Option String) (now : Instant) : Task :=
  match metadata with
  | .processVideo metadata => Domain.buildPendingTask metadata runAt id traceId now
  | .deleteVideo metadata => Domain.buildPendingTask metadata runAt id traceId now
  | .cleanupStaleVideos metadata => Domain.buildPendingTask metadata runAt id traceId now

/-- The video a task is about. -/
def videoId? : RegisteredMetadata → Option VideoId
  | .processVideo metadata => some metadata.videoId
  | .deleteVideo metadata => some metadata.videoId
  | .cleanupStaleVideos _ => none

theorem buildPendingTask_metadata (metadata : RegisteredMetadata) (runAt : Option Instant)
    (id : TaskId) (traceId : Option String) (now : Instant) :
    (metadata.buildPendingTask runAt id traceId now).metadata = metadata.toValue ∧
      (metadata.buildPendingTask runAt id traceId now).metadataType = metadata.metadataTypeName := by
  cases metadata <;> exact ⟨rfl, rfl⟩

end RegisteredMetadata

section HandlerMap

variable (decoders : Decoders)

@[simp] theorem handlerFor_processVideo :
    handlerFor decoders ProcessVideoTaskMetadata.METADATA_TYPE =
      some fun json => (decoders.processVideo json).map .processVideo := if_pos rfl

@[simp] theorem handlerFor_cleanupStaleVideos :
    handlerFor decoders CleanupStaleVideosTaskMetadata.METADATA_TYPE =
      some fun json => (decoders.cleanupStaleVideos json).map .cleanupStaleVideos := by
  rw [handlerFor, if_neg (by decide), if_pos rfl]

@[simp] theorem handlerFor_deleteVideo :
    handlerFor decoders DeleteVideoTaskMetadata.METADATA_TYPE =
      some fun json => (decoders.deleteVideo json).map .deleteVideo := by
  rw [handlerFor, if_neg (by decide), if_neg (by decide), if_pos rfl]

end HandlerMap

/-- What was written for a task is read as it was: its JSON, and the identifier
of its video. -/
structure Serde.Reads (serde : Serde) (metadata : RegisteredMetadata) : Prop where
  json : serde.fromStr (jsonText metadata.toValue) = .ok metadata.toValue
  uuid : ∀ id, metadata.videoId? = some id → serde.parseUuid id.uuid.text = .ok id.uuid

theorem Serde.videoId_text {serde : Serde} {id : VideoId} (name : String)
    (parsed : serde.parseUuid id.uuid.text = .ok id.uuid) :
    serde.videoId name (.object [("video_id", .string id.uuid.text)]) = .ok id := by
  simp [videoId, parsed, Except.map]

section Written

variable {serde : Serde} {metadata : RegisteredMetadata} {task : Task}

/-- Each type's decoder reads back what its metadata was written as. -/
theorem Serde.handler_written
    (parsed : ∀ id, metadata.videoId? = some id → serde.parseUuid id.uuid.text = .ok id.uuid) :
    ∃ decode, handlerFor serde.decoders metadata.metadataTypeName = some decode ∧
      decode metadata.toValue = .ok metadata := by
  cases metadata with
  | processVideo metadata =>
      have decoded := Serde.videoId_text "ProcessVideoTaskMetadata" (parsed _ rfl)
      refine ⟨_, handlerFor_processVideo _, ?_⟩
      exact congrArg (fun read => (read.map ProcessVideoTaskMetadata.mk).map
        RegisteredMetadata.processVideo) decoded
  | deleteVideo metadata =>
      have decoded := Serde.videoId_text "DeleteVideoTaskMetadata" (parsed _ rfl)
      refine ⟨_, handlerFor_deleteVideo _, ?_⟩
      exact congrArg (fun read => (read.map DeleteVideoTaskMetadata.mk).map
        RegisteredMetadata.deleteVideo) decoded
  | cleanupStaleVideos metadata => exact ⟨_, handlerFor_cleanupStaleVideos _, rfl⟩

theorem Serde.route_written
    (parsed : ∀ id, metadata.videoId? = some id → serde.parseUuid id.uuid.text = .ok id.uuid)
    (type : task.metadataType = metadata.metadataTypeName)
    (value : task.metadata = metadata.toValue) : route serde.decoders task = .ok metadata := by
  obtain ⟨decode, registered, decoded⟩ := Serde.handler_written parsed
  simp only [Worker.route, type, value, registered, decoded, Except.mapError]

end Written

/-- A task that was scheduled, stored and read back reaches its own handler. -/
theorem Serde.Reads.dispatched {serde : Serde} {metadata : RegisteredMetadata}
    (reads : serde.Reads metadata) (runAt : Option Instant) (id : TaskId) (traceId : Option String)
    (created : Instant) :
    ∃ task, rowToTask serde.fromStr
        (Task.toRow (metadata.buildPendingTask runAt id traceId created)) = some task ∧
      ∀ handle now, (dispatch serde.decoders handle task now).called = some metadata := by
  obtain ⟨value, type⟩ := metadata.buildPendingTask_metadata runAt id traceId created
  have routed := Serde.route_written reads.uuid type value
  refine ⟨_, rowToTask_toRow (by rw [value]; exact reads.json), fun handle now => ?_⟩
  simp only [dispatch, routed]

/-! ## Rows that cannot be run -/

/-- The three ways in which a row names no work: its text is not JSON, its JSON
is not the metadata of its type, or its type has no handler. -/
def Serde.Bad (serde : Serde) (row : TaskRow) : Prop :=
  (∃ error, serde.fromStr row.metadata = .error error) ∨
    (∃ json decode error, serde.fromStr row.metadata = .ok json ∧
      handlerFor serde.decoders row.metadataType = some decode ∧ decode json = .error error) ∨
    handlerFor serde.decoders row.metadataType = none

structure Dispatched.DeadLettered (dispatched : Dispatched) : Prop where
  uncalled : dispatched.called = none
  status : dispatched.outcome.update.status = .deadLetter
  kind : dispatched.outcome.kind = .failed

/-- The one corrupt row that still reaches a handler: `null` stands for the text
that is not JSON, and a struct without fields is read from `null`. -/
def Serde.Mistaken (serde : Serde) (row : TaskRow) : Prop :=
  row.metadataType = CleanupStaleVideosTaskMetadata.METADATA_TYPE ∧
    ∃ error, serde.fromStr row.metadata = .error error

section Rows

variable {decoders : Decoders} {task : Task} {now : Instant}
  {handle : RegisteredMetadata → TaskExecutionContext → TaskResult}

theorem deadLettered_iff :
    (dispatch decoders handle task now).DeadLettered ↔
      ∃ error, route decoders task = .error error := by
  simp only [dispatch]
  cases routed : route decoders task with
  | error error => exact ⟨fun _ => ⟨error, rfl⟩, fun _ => ⟨rfl, rfl, rfl⟩⟩
  | ok metadata =>
      constructor
      · rintro ⟨called, _, _⟩
        cases called
      · rintro ⟨error, same⟩
        cases same

theorem route_error_iff :
    (∃ error, route decoders task = .error error) ↔
      handlerFor decoders task.metadataType = none ∨
        ∃ decode error, handlerFor decoders task.metadataType = some decode ∧
          decode task.metadata = .error error := by
  simp only [route]
  cases registered : handlerFor decoders task.metadataType with
  | none => simp
  | some decode =>
      cases decoded : decode task.metadata <;> simp [Except.mapError, decoded]

/-- `null` is the metadata of sweeps alone. -/
theorem Serde.route_null {serde : Serde} (null : task.metadata = .null)
    (other : task.metadataType ≠ CleanupStaleVideosTaskMetadata.METADATA_TYPE) :
    ∃ error, route serde.decoders task = .error error := by
  rw [route_error_iff, null, handlerFor, if_neg other]
  split
  · exact .inr ⟨_, _, rfl, rfl⟩
  · split
    · exact .inr ⟨_, _, rfl, rfl⟩
    · exact .inl rfl

theorem Serde.route_null_sweep {serde : Serde} (null : task.metadata = .null)
    (sweep : task.metadataType = CleanupStaleVideosTaskMetadata.METADATA_TYPE) :
    route serde.decoders task = .ok (.cleanupStaleVideos .mk) := by
  rw [route, sweep, handlerFor_cleanupStaleVideos, null]
  rfl

/-- A bad row is dead-lettered without a handler, unless it is mistaken for a sweep. -/
theorem Serde.bad_deadLettered_iff {serde : Serde} {row : TaskRow}
    (read : rowToTask serde.fromStr row = some task) :
    (serde.Bad row → (dispatch serde.decoders handle task now).DeadLettered) ↔
      ¬serde.Mistaken row := by
  obtain ⟨type, kept⟩ := rowToTask_metadata read
  rw [deadLettered_iff]
  constructor
  · rintro rejects ⟨sweep, error, corrupt⟩
    have null : task.metadata = .null := by
      rcases kept with valid | ⟨_, _, null⟩
      · rw [corrupt] at valid
        cases valid
      · exact null
    obtain ⟨_, rejected⟩ := rejects (.inl ⟨error, corrupt⟩)
    rw [route_null_sweep null (type.trans sweep)] at rejected
    cases rejected
  · rintro genuine bad
    rcases kept with valid | ⟨error, corrupt, null⟩
    · rw [route_error_iff, type]
      rcases bad with ⟨_, corrupt⟩ | ⟨json, decode, error, parsed, registered, rejected⟩ | unknown
      · rw [valid] at corrupt
        cases corrupt
      · rw [valid] at parsed
        cases parsed
        exact .inr ⟨decode, error, registered, rejected⟩
      · exact .inl unknown
    · apply route_null null
      intro sweep
      exact genuine ⟨type ▸ sweep, error, corrupt⟩

end Rows

/-- What was scheduled is dispatched as it was, and a bad row is dead-lettered without a
handler exactly when it is not mistaken for a sweep. -/
theorem scheduling_dispatch_inverse {serde : Serde} {metadata : RegisteredMetadata}
    (reads : serde.Reads metadata) {row : TaskRow} {stored : Task}
    (read : rowToTask serde.fromStr row = some stored) :
    (∀ runAt id traceId created, ∃ task,
        rowToTask serde.fromStr
          (Task.toRow (metadata.buildPendingTask runAt id traceId created)) = some task ∧
        ∀ handle now, (dispatch serde.decoders handle task now).called = some metadata) ∧
      ∀ handle now, (serde.Bad row → (dispatch serde.decoders handle stored now).DeadLettered) ↔
        ¬serde.Mistaken row :=
  ⟨fun runAt id traceId created => reads.dispatched runAt id traceId created,
    fun _ _ => Serde.bad_deadLettered_iff read⟩

def videoSeven : RegisteredMetadata := .processVideo ⟨⟨.ofNat 7⟩⟩

/-- Libraries that read the row of one task. -/
def oneTask : Serde where
  fromStr text :=
    if text = jsonText videoSeven.toValue then .ok videoSeven.toValue
    else .error "expected value at line 1 column 1"
  parseUuid text :=
    if text = (Uuid.ofNat 7).text then .ok (.ofNat 7) else .error "invalid character"
  mismatch name _ := "invalid type, expected struct " ++ name

theorem scheduling_dispatch_inverse_seven :
    ∃ task, rowToTask oneTask.fromStr
        (Task.toRow (videoSeven.buildPendingTask none ⟨.ofNat 9⟩ none 0)) = some task ∧
      (dispatch oneTask.decoders (fun _ _ => .terminate "done") task 0).called =
        some videoSeven := by
  have reads : oneTask.Reads videoSeven := by
    refine ⟨by simp [oneTask], ?_⟩
    rintro id ⟨⟩
    simp [oneTask]
  obtain ⟨stored, read, _⟩ := reads.dispatched none ⟨.ofNat 9⟩ none 0
  obtain ⟨task, again, called⟩ := (scheduling_dispatch_inverse reads read).1 none ⟨.ofNat 9⟩ none 0
  exact ⟨task, again, called _ _⟩

/-- A sweep whose metadata lost a letter. -/
def corruptSweep : TaskRow :=
  { Task.toRow (buildPendingTask CleanupStaleVideosTaskMetadata.mk none ⟨.ofNat 9⟩ none 0) with
    metadata := "nul" }

theorem corruptSweep_called :
    oneTask.Bad corruptSweep ∧
      ∃ task, rowToTask oneTask.fromStr corruptSweep = some task ∧
        (dispatch oneTask.decoders (fun _ _ => .terminate "done") task 0).called =
          some (.cleanupStaleVideos .mk) ∧
        ¬(dispatch oneTask.decoders (fun _ _ => .terminate "done") task 0).DeadLettered := by
  refine ⟨.inl ⟨"expected value at line 1 column 1", rfl⟩, _, rfl, rfl, ?_⟩
  rintro ⟨called, _, _⟩
  cases called

end Benri.Worker
