import Benri.Service.CompletionEffect
import Benri.Service.InitiateUpload

namespace Benri.Api

open Benri.Data Benri.Domain Benri.Postgres Benri.Service Benri.Storage Benri.Transition

/-! # The trace id of a request

A request runs in the scope of its trace id, which every task it schedules takes
over.  The id is a header of the request as it stands, whatever its length.
-/

/-- The headers of a request under their lower-case names. -/
abbrev HeaderMap := List (String × List UInt8)

def HeaderMap.get (headers : HeaderMap) (name : String) : Option (List UInt8) :=
  (headers.find? fun header => decide (header.1 = name)).map Prod.snd

def visibleAscii (byte : UInt8) : Bool :=
  (decide (0x20 ≤ byte) && decide (byte < 0x7f)) || decide (byte = 0x09)

/-- `HeaderValue::to_str`. -/
def toStr (value : List UInt8) : Option String :=
  if value.all visibleAscii then
    some (String.ofList (value.map fun byte => Char.ofNat byte.toNat))
  else none

def X_REQUEST_ID : String := "x-request-id"
def TRACEPARENT : String := "traceparent"

/-- `fresh` is the UUID that is drawn when neither header can be read. -/
def resolveTraceId (headers : HeaderMap) (fresh : Uuid) : String :=
  (((headers.get X_REQUEST_ID).bind toStr).or ((headers.get TRACEPARENT).bind toStr)).getD
    fresh.simple

/-- `with_trace_id`: inside it every seed has the ambient trace id. -/
def withTraceId (traceId : Option String) : CompletionEvent → CompletionEvent
  | .call fault => .call fault
  | .reject fault seed => .reject fault { seed with traceId }
  | .transition fault seed => .transition fault { seed with traceId }
  | .cut => .cut

theorem visibleAscii_pos {byte : UInt8} (visible : visibleAscii byte = true) :
    0 < byte.toNat := by
  rcases (Bool.or_eq_true _ _).mp visible with printable | tab
  · have above := of_decide_eq_true (Bool.and_eq_true_iff.mp printable).1
    have bound : 0x20 ≤ byte.toNat := UInt8.le_iff_toNat_le.mp above
    omega
  · rw [of_decide_eq_true tab]
    decide

theorem toStr_nulFree {value : List UInt8} {text : String} (read : toStr value = some text) :
    NulFree text := by
  unfold toStr at read
  split at read
  · rename_i visible
    cases read
    intro member
    rw [String.toList_ofList] at member
    obtain ⟨byte, inside, same⟩ := List.mem_map.mp member
    have positive := visibleAscii_pos (List.all_eq_true.mp visible byte inside)
    have bound := byte.toNat_lt
    have valid : byte.toNat.isValidChar := .inl (by omega)
    rw [Char.ofNat, dif_pos valid] at same
    have code : byte.toNat = 0 := congrArg Char.toNat same
    omega
  · contradiction

theorem resolveTraceId_nulFree (headers : HeaderMap) (fresh : Uuid) :
    NulFree (resolveTraceId headers fresh) := by
  unfold resolveTraceId
  cases first : (headers.get X_REQUEST_ID).bind toStr with
  | some text =>
      obtain ⟨value, _, read⟩ := Option.bind_eq_some_iff.mp first
      exact toStr_nulFree read
  | none =>
      rw [Option.none_or]
      cases second : (headers.get TRACEPARENT).bind toStr with
      | some text =>
          obtain ⟨value, _, read⟩ := Option.bind_eq_some_iff.mp second
          exact toStr_nulFree read
      | none => exact fresh.simple_nul

/-- A request that brings no readable id gets one of its own. -/
theorem resolveTraceId_length_fresh {headers : HeaderMap} (fresh : Uuid)
    (requestId : (headers.get X_REQUEST_ID).bind toStr = none)
    (traceparent : (headers.get TRACEPARENT).bind toStr = none) :
    (resolveTraceId headers fresh).length = 32 := by
  rw [resolveTraceId, requestId, traceparent]
  exact fresh.simple_length

/-! ## The rows a request inserts -/

variable {stores reached : Stores}

theorem mem_insert? {tasks after : TaskTable} {row task : Task}
    (inserted : tasks.insert? row = some after) (member : task ∈ after.rows)
    (new : task ∉ tasks.rows) : task = row := by
  rw [(Table.insert?_eq_some inserted).2] at member
  rcases List.mem_append.mp member with older | added
  · exact absurd older new
  · exact List.mem_singleton.mp added

/-- The seed a step takes its new row's id and trace id from. -/
def seed? : CompletionEvent → Option TaskSeed
  | .reject _ seed | .transition _ seed => some seed
  | .call _ | .cut => none

/-- The one row that a step of a completion can insert. -/
def Scheduled (stores : Stores) (event : CompletionEvent) (task : Task) : Prop :=
  ∃ id seed, seed? event = some seed ∧
    (task = pendingTask stores (ProcessVideoTaskMetadata.mk id) seed ∨
      task = pendingTask stores (DeleteVideoTaskMetadata.mk id) seed)

theorem completionStep_scheduled {completion : Completion} {event : CompletionEvent}
    {next : CompletionPhase}
    (stepped : completionStep stores completion event = some (reached, next)) {task : Task}
    (member : task ∈ reached.tasks.rows) (new : task ∉ stores.tasks.rows) :
    Scheduled stores event task := by
  obtain ⟨id, phase⟩ := completion
  cases completionStep_turn stepped with
  | loaded | measured | oversized | signed | unsigned | gaveUp | cut => exact absurd member new
  | rejected video error seed tasks inserted =>
      rcases inserted with rfl | inserted
      · exact absurd member new
      · exact ⟨video.id, seed, rfl, .inr (mem_insert? inserted member new)⟩
  | transitioned video row seed tasks next found pending inserted =>
      exact ⟨video.id, seed, rfl, .inl (mem_insert? inserted member new)⟩

section TaskColumns

variable {M : Type} [TaskMetadata M]

/-- The columns that a task type decides fit. -/
structure MetadataFits (metadata : M) : Prop where
  metadataType : TextColumn.fits ⟨some 100, false⟩ (some (TaskMetadata.metadataTypeName metadata)) =
    true
  text : NulFree (jsonText (TaskMetadata.toValue metadata))
  orderingKey : TextColumn.fits ⟨some 200, true⟩ (TaskMetadata.orderingKey metadata) = true

theorem taskFits_pendingTask {metadata : M} (fits : MetadataFits metadata) (stores : Stores)
    (seed : TaskSeed) :
    taskFits (pendingTask stores metadata seed) =
      TextColumn.fits ⟨some 32, true⟩ seed.traceId := by
  have text : TextColumn.fits ⟨none, false⟩ (some (jsonText (TaskMetadata.toValue metadata))) =
      true := by
    rw [TextColumn.fits, decide_eq_true fits.text]
    rfl
  have status : TextColumn.fits ⟨some 20, false⟩ (some TaskStatus.pending.asStr) = true := by decide
  have attempts : integerFits 0 = true := by decide
  have error : TextColumn.fits ⟨none, true⟩ none = true := rfl
  simp only [taskFits, pendingTask, buildPendingTask, fits.metadataType, text, status,
    fits.orderingKey, attempts, error, Bool.true_and, Bool.and_true]

end TaskColumns

/-- A text before a UUID, in a column that is wide enough for both. -/
theorem fits_uuid {start : String} {limit : Nat} (id : VideoId) (clean : NulFree start)
    (short : start.length + 36 ≤ limit) :
    TextColumn.fits ⟨some limit, true⟩ (some (start ++ id.uuid.text)) = true := by
  have length : (start ++ id.uuid.text).length ≤ limit := by
    have width : id.uuid.text.length = 36 := id.uuid.text_length
    rw [String.length_append, width]
    exact short
  have nulFree : NulFree (start ++ id.uuid.text) :=
    (NulFree.append _ _).mpr ⟨clean, id.uuid.text_nul⟩
  rw [TextColumn.fits, decide_eq_true nulFree]
  exact decide_eq_true length

theorem processVideo_fits (id : VideoId) : MetadataFits (ProcessVideoTaskMetadata.mk id) where
  metadataType := show TextColumn.fits _ (some ProcessVideoTaskMetadata.METADATA_TYPE) = true by
    decide
  text := jsonText_videoId id
  orderingKey := fits_uuid id (by decide) (by decide)

theorem deleteVideo_fits (id : VideoId) : MetadataFits (DeleteVideoTaskMetadata.mk id) where
  metadataType := show TextColumn.fits _ (some DeleteVideoTaskMetadata.METADATA_TYPE) = true by
    decide
  text := jsonText_videoId id
  orderingKey := fits_uuid id (by decide) (by decide)

/-- What the check of a new task's columns does to the statement that inserts it. -/
def columnFault (index : Nat) (task : Task) : TxFault :=
  if taskFits task then .none else .statement index "value violates a column constraint"

/-- With nothing else in its way, the transaction of `complete_upload` commits just
when its task fits. -/
theorem transitionToUploaded_ok_iff {video row : Video} {seed : TaskSeed}
    (found : stores.videos.find? video.id = some row) (pending : row.status = .pendingUpload)
    (fresh : stores.tasks.find? seed.id = none) :
    let task := pendingTask stores (ProcessVideoTaskMetadata.mk video.id) seed
    (transitionToUploaded stores (columnFault 1 task) video seed).2 =
      .returned (.ok ⟨video.id, .uploaded⟩) ↔ taskFits task = true := by
  intro task
  have absent : stores.tasks.find? task.id = none := fresh
  obtain ⟨tasks, inserted⟩ := Table.insert?_of_absent absent
  have touched : (updateStatusIf stores.videos video.id .pendingUpload .uploaded).2 = true :=
    (touched_iff _ _ _).mpr ⟨row, found, pending⟩
  have inScope : ∀ videos, stores.tasks.insert?
      (pendingTask { stores with videos } (ProcessVideoTaskMetadata.mk video.id) seed) =
        some tasks := fun _ => inserted
  by_cases fits : taskFits task = true
  · simp [transitionToUploaded, columnFault, fits, runTransaction, transitionClosure,
      updateStatusInTx, scheduleInTx, TxFault.guard, touched, inScope]
  · simp [transitionToUploaded, columnFault, fits, runTransaction, transitionClosure,
      updateStatusInTx, scheduleInTx, TxFault.guard, touched]

/-- The rows of a request that passes the checks fit their columns, and are accepted,
just when the trimmed title holds no NUL and the trace id, which no check bounds, has
at most 32 characters. -/
theorem request_rows_fit (headers : HeaderMap) (fresh : Uuid) :
    (∀ stores input id video, buildVideo stores input id = .ok video →
      (videoFits video = true ↔ NulFree (trim input.title)) ∧
      (stores.videos.find? id = none → ∀ url,
        ((initiateUpload stores .none (.ok url) input id).2 = .ok ⟨id, url⟩ ↔
          NulFree (trim input.title)))) ∧
    (∀ stores completion event reached next, completionStep stores completion
        (withTraceId (some (resolveTraceId headers fresh)) event) = some (reached, next) →
      ∀ task ∈ reached.tasks.rows, task ∉ stores.tasks.rows →
        (taskFits task = true ↔ (resolveTraceId headers fresh).length ≤ 32)) ∧
    (∀ stores video row taskId, stores.videos.find? video.id = some row →
      row.status = .pendingUpload → stores.tasks.find? taskId = none →
      let seed : TaskSeed := ⟨taskId, some (resolveTraceId headers fresh)⟩
      let task := pendingTask stores (ProcessVideoTaskMetadata.mk video.id) seed
      ((transitionToUploaded stores (columnFault 1 task) video seed).2 =
        .returned (.ok ⟨video.id, .uploaded⟩) ↔ (resolveTraceId headers fresh).length ≤ 32)) := by
  have column : TextColumn.fits ⟨some 32, true⟩ (some (resolveTraceId headers fresh)) = true ↔
      (resolveTraceId headers fresh).length ≤ 32 := by
    rw [TextColumn.fits, decide_eq_true (resolveTraceId_nulFree headers fresh)]
    exact decide_eq_true_iff
  refine ⟨?_, ?_, ?_⟩
  · intro stores input id video built
    have fits := videoFits_iff built
    exact ⟨fits, fun absent url => (initiateUpload_ok_iff built absent url).trans fits⟩
  · intro stores completion event reached next stepped task member new
    obtain ⟨id, seed, seeded, shape⟩ := completionStep_scheduled stepped member new
    have traced : seed.traceId = some (resolveTraceId headers fresh) := by
      cases event <;> cases seeded <;> rfl
    rcases shape with rfl | rfl
    · rw [taskFits_pendingTask (processVideo_fits id), traced]
      exact column
    · rw [taskFits_pendingTask (deleteVideo_fits id), traced]
      exact column
  · intro stores video row taskId found pending absent
    refine (transitionToUploaded_ok_iff found pending absent).trans ?_
    rw [taskFits_pendingTask (processVideo_fits video.id)]
    exact column

/-- A request with one header, of ASCII text. -/
def oneHeader (name text : String) : HeaderMap :=
  [(name, text.toList.map fun char => UInt8.ofNat char.toNat)]

def standardTraceparent : HeaderMap :=
  oneHeader TRACEPARENT "00-4bf92f3577b34da6a3ce929d0e0e4736-00f067aa0ba902b7-01"

def pendingStores (id : VideoId) : Stores :=
  ((initiateUpload (.initial 0) .none (.ok "url") ⟨"clip", "video/mp4"⟩ id)).1

/-- The video of a clip, and the step that completes its upload under a trace id. -/
def clip : Video := newVideo (.initial 0) ⟨.ofNat 7⟩ "clip" .mp4

def clipUploaded (traceId : String) : Option (Stores × CompletionPhase) :=
  completionStep (pendingStores ⟨.ofNat 7⟩) ⟨⟨.ofNat 7⟩, .transition clip⟩
    (withTraceId (some traceId) (.transition .none ⟨⟨.ofNat 8⟩, none⟩))

theorem request_rows_fit_clip :
    (∃ video, buildVideo (.initial 0) ⟨" clip ", "video/mp4"⟩ ⟨.ofNat 7⟩ = .ok video ∧
      videoFits video = true) ∧
    (∃ reached next task, clipUploaded
        (resolveTraceId (oneHeader X_REQUEST_ID "request-7") (.ofNat 9)) =
          some (reached, next) ∧ task ∈ reached.tasks.rows ∧ taskFits task = true) ∧
    (transitionToUploaded (pendingStores ⟨.ofNat 7⟩) (columnFault 1
        (pendingTask (pendingStores ⟨.ofNat 7⟩) (ProcessVideoTaskMetadata.mk clip.id)
          ⟨⟨.ofNat 8⟩, some (resolveTraceId (oneHeader X_REQUEST_ID "request-7") (.ofNat 9))⟩))
      clip ⟨⟨.ofNat 8⟩, some (resolveTraceId (oneHeader X_REQUEST_ID "request-7") (.ofNat 9))⟩).2 =
        .returned (.ok ⟨clip.id, .uploaded⟩) := by
  obtain ⟨videos, tasks, uploads⟩ :=
    request_rows_fit (oneHeader X_REQUEST_ID "request-7") (.ofNat 9)
  have short : (resolveTraceId (oneHeader X_REQUEST_ID "request-7") (.ofNat 9)).length ≤ 32 := by
    decide
  have built : buildVideo (.initial 0) ⟨" clip ", "video/mp4"⟩ ⟨.ofNat 7⟩ = .ok clip := by decide
  refine ⟨⟨_, built, (videos _ _ _ _ built).1.mpr (by decide)⟩, ?_, ?_⟩
  · have stepped : ((clipUploaded
        (resolveTraceId (oneHeader X_REQUEST_ID "request-7") (.ofNat 9))).any fun answer =>
          !answer.1.tasks.rows.isEmpty) = true := by decide
    obtain ⟨⟨reached, next⟩, uploaded, some⟩ := (Option.any_eq_true _ _).mp stepped
    rw [Bool.not_eq_true', List.isEmpty_eq_false_iff] at some
    obtain ⟨task, member⟩ := List.exists_mem_of_ne_nil _ some
    have fits := tasks _ _ _ _ _ uploaded task member List.not_mem_nil
    exact ⟨reached, next, task, uploaded, member, fits.mpr short⟩
  · have found : (pendingStores ⟨.ofNat 7⟩).videos.find? clip.id = some clip := by decide
    exact (uploads _ clip clip ⟨.ofNat 8⟩ found rfl rfl).mpr short

/-- A `traceparent` has 55 characters, so the upload can not be completed; and a title
of one NUL can not be stored. -/
theorem traceparent_rejected :
    (∃ stores video, stores.videos.find? video.id = some video ∧ video.status = .pendingUpload ∧
      let seed : TaskSeed := ⟨⟨.ofNat 8⟩, some (resolveTraceId standardTraceparent (.ofNat 9))⟩
      let task := pendingTask stores (ProcessVideoTaskMetadata.mk video.id) seed
      taskFits task = false ∧
        ∃ error, (transitionToUploaded stores (columnFault 1 task) video seed).2 =
          .returned (.error (.internal error))) ∧
    ∃ video, buildVideo (.initial 0) ⟨"\x00", "video/mp4"⟩ ⟨.ofNat 7⟩ = .ok video ∧
      videoFits video = false := by
  refine ⟨⟨pendingStores ⟨.ofNat 7⟩, newVideo (.initial 0) ⟨.ofNat 7⟩ "clip" .mp4, ?_, ?_, ?_,
    ?_⟩, ?_⟩
  · decide
  · decide
  · decide
  · exact ⟨_, rfl⟩
  · exact ⟨newVideo (.initial 0) ⟨.ofNat 7⟩ "\x00" .mp4, by decide, by decide⟩

end Benri.Api
