import Benri.Service.FailureDecision
import Benri.Service.Guards

namespace Benri.Service

open Benri.Data Benri.Domain Benri.Postgres Benri.Storage Benri.Transition

/-! # What `complete_upload` makes of an object

One call from start to end, while the storage and the database answer it and
nobody replaces the object or touches the row.
-/

/-- The call's next step, without a fault. -/
def quietEvent (seed : TaskSeed) : CompletionPhase → Option CompletionEvent
  | .findById | .headObject _ | .readRange _ => some (.call .none)
  | .reject _ _ => some (.reject .none seed)
  | .transition _ => some (.transition .none seed)
  | .returned _ | .cut => none

def quietStep (id : VideoId) (seed : TaskSeed) (state : Stores × CompletionPhase) :
    Stores × CompletionPhase :=
  ((quietEvent seed state.2).bind (completionStep state.1 ⟨id, state.2⟩)).getD state

/-- The call's first `count` steps; before each, the rest of the system acts. -/
def quietCall (others : Nat → State → State) (start : State) (id : VideoId) (seed : TaskSeed) :
    Nat → State × CompletionPhase
  | 0 => (start, .findById)
  | count + 1 =>
      let call := quietCall others start id seed count
      let reached := others count call.1
      let answer := quietStep id seed (reached.stores, call.2)
      (reached.withStores answer.1, answer.2)

/-- The video waits for its upload, its object is there, and the task id is free. -/
structure Judgeable (row : Video) (object : Object) (seed : TaskSeed) (state : State) :
    Prop where
  found : state.stores.videos.find? row.id = some row
  stored : state.stores.objects.find? row.uploadKey = some object
  fresh : state.stores.tasks.find? seed.id = none

/-- The rest of the system takes any steps that leave the video, its object and
the task id alone. -/
structure Spares (others : State → State) (row : Video) (object : Object) (seed : TaskSeed) :
    Prop where
  reaches : ∀ state, Reaches step Anything state (others state)
  kept : ∀ state, Judgeable row object seed state → Judgeable row object seed (others state)

/-- The first bytes of a content, fewer if it is shorter. -/
def firstBytes (body : Body) (count : Nat) : List UInt8 :=
  match body with
  | .bytes content => (List.range (min count content.size)).map content.byte
  | .text content => content.toUTF8.data.toList.take count

/-- What a content deserves. -/
def verdict (id : VideoId) (format : VideoFormat) (body : Body) :
    Except CompleteUploadError CompleteUploadOutput :=
  if MAX_UPLOAD_SIZE_BYTES < body.size then .error .fileTooLarge
  else if format.validateSignature (firstBytes body FILE_SIGNATURE_READ_BYTES) then
    .ok ⟨id, .uploaded⟩
  else .error .invalidFileSignature

def refused : Except CompleteUploadError CompleteUploadOutput → Bool
  | .error .fileTooLarge | .error .invalidFileSignature => true
  | _ => false

def deleteRows (stores : Stores) (id : VideoId) : Nat :=
  stores.tasks.rows.countP fun task => deletesVideo task id

/-- The call reports the content's verdict, schedules a deletion for a refused
content only, and without success leaves the row, and no task that processes it. -/
structure Classified (before : Stores) (row : Video) (body : Body) (after : Stores)
    (result : Except CompleteUploadError CompleteUploadOutput) : Prop where
  answer : result = verdict row.id row.format body
  deletion : deleteRows after row.id = deleteRows before row.id + if refused result then 1 else 0
  kept : (∀ output, result ≠ .ok output) →
    after.videos.find? row.id = some row ∧ processRows after row.id = 0

/-! ## The ranged read -/

theorem range_eq_firstBytes (body : Body) :
    body.range 0 (FILE_SIGNATURE_READ_BYTES - 1) =
      if body.size = 0 then none else some (firstBytes body FILE_SIGNATURE_READ_BYTES) := by
  cases body with
  | bytes content =>
      by_cases empty : content.size = 0
      · simp [Body.range, Body.size, empty]
      · simp [Body.range, Body.size, empty, firstBytes, Nat.pos_of_ne_zero empty,
          FILE_SIGNATURE_READ_BYTES, List.range_eq_range']
  | text content =>
      by_cases empty : content.utf8ByteSize = 0
      · simp [Body.range, Body.size, empty]
      · simp [Body.range, Body.size, empty, firstBytes, Nat.pos_of_ne_zero empty,
          FILE_SIGNATURE_READ_BYTES]

/-! ## The paths through a call -/

section Paths

variable {stores : Stores} {row : Video} {object : Object} {seed : TaskSeed}

theorem quietStep_findById (found : stores.videos.find? row.id = some row)
    (pending : row.status = .pendingUpload) :
    quietStep row.id seed (stores, .findById) = (stores, .headObject row) := by
  simp [quietStep, quietEvent, completionStep, completionFind, found, pending]

theorem quietStep_headObject (stored : stores.objects.find? row.uploadKey = some object) :
    quietStep row.id seed (stores, .headObject row) = (stores,
      if MAX_UPLOAD_SIZE_BYTES < object.body.size then .reject row .fileTooLarge
      else .readRange row) := by
  simp [quietStep, quietEvent, completionStep, completionHead, headObject, stored]

theorem quietStep_readRange (seed : TaskSeed)
    (stored : stores.objects.find? row.uploadKey = some object) :
    quietStep row.id seed (stores, .readRange row) = (stores,
      if object.body.size = 0 then .returned (.error (.internal (storageError "service error")))
      else if row.format.validateSignature
        (firstBytes object.body FILE_SIGNATURE_READ_BYTES) then .transition row
      else .reject row .invalidFileSignature) := by
  simp only [quietStep, quietEvent, completionStep, completionRead, readRange, stored,
    Option.bind_some, attempt_none, range_eq_firstBytes, Option.getD_some]
  by_cases empty : object.body.size = 0
  · simp [empty]
  · rw [if_neg empty, if_neg empty]

theorem quietStep_reject (error : CompleteUploadError) :
    quietStep row.id seed (stores, .reject row error) =
      (scheduleDeleteAfterRejection stores .none row.id seed, .returned (.error error)) := rfl

theorem quietStep_transition (found : stores.videos.find? row.id = some row)
    (pending : row.status = .pendingUpload) (fresh : stores.tasks.find? seed.id = none) :
    ∃ tasks, stores.tasks.insert? (pendingTask stores (ProcessVideoTaskMetadata.mk row.id) seed) =
        some tasks ∧
      quietStep row.id seed (stores, .transition row) = ({ stores with
        videos := (updateStatusIf stores.videos row.id .pendingUpload .uploaded).1, tasks },
        .returned (.ok ⟨row.id, .uploaded⟩)) := by
  obtain ⟨tasks, inserted⟩ : ∃ tasks, stores.tasks.insert?
      (pendingTask stores (ProcessVideoTaskMetadata.mk row.id) seed) = some tasks :=
    Table.insert?_of_absent fresh
  have touched : (updateStatusIf stores.videos row.id .pendingUpload .uploaded).2 = true :=
    (touched_iff _ _ _).mpr ⟨row, found, pending⟩
  have closed : transitionClosure .none row.id seed stores = .ok ({ stores with
      videos := (updateStatusIf stores.videos row.id .pendingUpload .uploaded).1
      tasks }, true) := by
    have unmoved : ∀ videos, pendingTask { stores with videos }
        (ProcessVideoTaskMetadata.mk row.id) seed =
        pendingTask stores (ProcessVideoTaskMetadata.mk row.id) seed := fun _ => rfl
    simp only [transitionClosure, updateStatusInTx, TxFault.guard, touched, scheduleInTx, unmoved,
      inserted]
  refine ⟨tasks, inserted, ?_⟩
  simp only [quietStep, quietEvent, Option.bind_some, completionStep, transitionToUploaded,
    runTransaction, closed, Option.getD_some]

theorem scheduleDelete_rows (id : VideoId) (fresh : stores.tasks.find? seed.id = none) :
    ∃ tasks, scheduleDeleteAfterRejection stores .none id seed = { stores with tasks } ∧
      tasks.rows = stores.tasks.rows ++
        [pendingTask stores (DeleteVideoTaskMetadata.mk id) seed] := by
  obtain ⟨tasks, inserted⟩ : ∃ tasks, stores.tasks.insert?
      (pendingTask stores (DeleteVideoTaskMetadata.mk id) seed) = some tasks :=
    Table.insert?_of_absent fresh
  refine ⟨tasks, ?_, (Table.insert?_eq_some inserted).2⟩
  simp only [scheduleDeleteAfterRejection, scheduleStandalone, inserted, attempt_none]

/-- A call that refuses the content schedules its deletion, and touches nothing else. -/
theorem classified_refused {error : CompleteUploadError}
    (found : stores.videos.find? row.id = some row) (untouched : processRows stores row.id = 0)
    (fresh : stores.tasks.find? seed.id = none) (refuses : refused (.error error) = true)
    (deserved : .error error = verdict row.id row.format object.body) :
    Classified stores row object.body (scheduleDeleteAfterRejection stores .none row.id seed)
      (.error error) := by
  obtain ⟨tasks, same, rows⟩ := scheduleDelete_rows row.id fresh
  rw [same]
  refine ⟨deserved, ?_, fun _ => ⟨found, ?_⟩⟩
  · simp [deleteRows, rows, refuses, List.countP_append]
  · rw [processRows, rows, List.countP_append, ← processRows, untouched]
    simp

end Paths

/-! ## The classification -/

theorem quietCall_succ {others : Nat → State → State} {start before : State} {id : VideoId}
    {seed : TaskSeed} {count : Nat} {phase next : CompletionPhase} {stores : Stores}
    (called : quietCall others start id seed count = (before, phase))
    (stepped : quietStep id seed ((others count before).stores, phase) = (stores, next)) :
    quietCall others start id seed (count + 1) =
      ((others count before).withStores stores, next) := by
  simp only [quietCall, called, stepped]

/-- A call on an object that is there returns, and from the state that its last step finds
does as the content deserves exactly when there is some content: the read of an empty
object fails, and the call reports an internal error. -/
theorem quietCall_classified_iff {now : Instant} {start : State} {row : Video} {object : Object}
    {seed : TaskSeed} {others : Nat → State → State}
    (reached : Reaches step Anything (State.initial now) start)
    (judgeable : Judgeable row object seed start) (pending : row.status = .pendingUpload)
    (spares : ∀ count, Spares (others count) row object seed) :
    ∃ count before after result,
      before = others count (quietCall others start row.id seed count).1 ∧
      Reaches step Anything start before ∧
      quietCall others start row.id seed (count + 1) = (before.withStores after, .returned result) ∧
      (Classified before.stores row object.body after result ↔ object.body.size ≠ 0) := by
  have untouched : ∀ state, Reaches step Anything start state →
      Judgeable row object seed state → processRows state.stores row.id = 0 := by
    intro state later there
    rw [(outbox_of_reaches (reached.trans later)).1.pending row.id row there.found, if_pos pending]
  -- The states in which the call takes its four steps.
  have first := (spares 0).kept _ judgeable
  have second := (spares 1).kept _ first
  have third := (spares 2).kept _ second
  have fourth := (spares 3).kept _ third
  have reachedThird : Reaches step Anything start (others 2 (others 1 (others 0 start))) :=
    (((spares 0).reaches _).trans ((spares 1).reaches _)).trans ((spares 2).reaches _)
  have reachedFourth := reachedThird.trans ((spares 3).reaches _)
  have found : quietCall others start row.id seed 1 = (others 0 start, .headObject row) :=
    quietCall_succ rfl (quietStep_findById first.found pending)
  have headed := quietCall_succ found (quietStep_headObject second.stored)
  have thirdFound : others 2 (others 1 (others 0 start)) =
      others 2 (quietCall others start row.id seed 2).1 :=
    (congrArg (fun call => others 2 call.1) headed).symm
  by_cases large : MAX_UPLOAD_SIZE_BYTES < object.body.size
  · rw [if_pos large] at headed
    refine ⟨2, _, _, _, thirdFound, reachedThird,
      quietCall_succ headed (quietStep_reject _), fun _ empty => by omega, fun _ => ?_⟩
    exact classified_refused third.found (untouched _ reachedThird third) third.fresh rfl
      (by rw [verdict, if_pos large])
  rw [if_neg large] at headed
  have read := quietStep_readRange seed third.stored
  by_cases empty : object.body.size = 0
  · rw [if_pos empty] at read
    refine ⟨2, _, _, _, thirdFound, reachedThird, quietCall_succ headed read,
      fun classified => ?_, fun some => absurd empty some⟩
    have answer := classified.answer
    rw [verdict, if_neg large] at answer
    split at answer <;> cases answer
  rw [if_neg empty] at read
  have judged := quietCall_succ headed read
  have fourthFound : others 3 (others 2 (others 1 (others 0 start))) =
      others 3 (quietCall others start row.id seed 3).1 :=
    (congrArg (fun call => others 3 call.1) judged).symm
  by_cases valid : row.format.validateSignature
      (firstBytes object.body FILE_SIGNATURE_READ_BYTES) = true
  · obtain ⟨tasks, inserted, same⟩ := quietStep_transition fourth.found pending fourth.fresh
    rw [if_pos valid] at judged
    refine ⟨3, _, _, _, fourthFound, reachedFourth, quietCall_succ judged same,
      fun _ => empty, fun _ => ⟨?_, ?_, fun failed => absurd rfl (failed _)⟩⟩
    · rw [verdict, if_neg large, if_pos valid]
    · rw [deleteRows, (Table.insert?_eq_some inserted).2, List.countP_append, ← deleteRows]
      simp [refused]
  · rw [if_neg valid] at judged
    refine ⟨3, _, _, _, fourthFound, reachedFourth,
      quietCall_succ judged (quietStep_reject _), fun _ => empty, fun _ => ?_⟩
    exact classified_refused fourth.found (untouched _ reachedFourth fourth) fourth.fresh rfl
      (by rw [verdict, if_neg large, if_neg valid])

/-! ## An upload to judge -/

/-- A video is initiated, and a file is put. -/
private def offeredUpload (body : Body) : List Event :=
  [.initiate ⟨.ofNat 7⟩ "a title" .mkv true,
    .putOriginal ⟨.ofNat 7⟩ .mkv "video/x-matroska" body]

private def offered (body : Body) : State :=
  (run step Anything (State.initial 0) (offeredUpload body)).getD (State.initial 0)

private def offeredVideo : Video := newVideo (.initial 0) ⟨.ofNat 7⟩ "a title" .mkv

private def offeredObject (body : Body) : Object :=
  ⟨offeredVideo.uploadKey, "video/x-matroska", body⟩

private theorem offered_reached (body : Body) :
    Reaches step Anything (State.initial 0) (offered body) :=
  reaches_of_run (offeredUpload body) rfl

private theorem offered_judgeable (body : Body) :
    Judgeable offeredVideo (offeredObject body) ⟨⟨.ofNat 8⟩, none⟩ (offered body) :=
  ⟨rfl, rfl, rfl⟩

theorem quietCall_classified_iff_matroska : ∃ count before after result,
    before = (quietCall (fun _ state => state) (offered matroska) offeredVideo.id
      ⟨⟨.ofNat 8⟩, none⟩ count).1 ∧
    Reaches step Anything (offered matroska) before ∧
    quietCall (fun _ state => state) (offered matroska) offeredVideo.id ⟨⟨.ofNat 8⟩, none⟩
      (count + 1) = (before.withStores after, .returned result) ∧
    (Classified before.stores offeredVideo (offeredObject matroska).body after result ↔
      (offeredObject matroska).body.size ≠ 0) :=
  quietCall_classified_iff (offered_reached matroska) (offered_judgeable matroska) rfl
    fun _ => ⟨fun _ => .refl, fun _ judgeable => judgeable⟩

private def emptyBody : Body := .bytes ⟨0, fun _ => 0⟩

/-- An empty file is neither accepted nor refused. -/
theorem quietCall_empty :
    Reaches step Anything (State.initial 0) (offered emptyBody) ∧
    Judgeable offeredVideo (offeredObject emptyBody) ⟨⟨.ofNat 8⟩, none⟩ (offered emptyBody) ∧
    verdict offeredVideo.id offeredVideo.format emptyBody = .error .invalidFileSignature ∧
    quietCall (fun _ state => state) (offered emptyBody) offeredVideo.id ⟨⟨.ofNat 8⟩, none⟩ 3 =
      (offered emptyBody, .returned (.error (.internal (storageError "service error")))) ∧
    ¬Classified (offered emptyBody).stores offeredVideo emptyBody (offered emptyBody).stores
      (.error (.internal (storageError "service error"))) := by
  have deserved : verdict offeredVideo.id offeredVideo.format emptyBody =
      .error .invalidFileSignature := rfl
  refine ⟨offered_reached emptyBody, offered_judgeable emptyBody, deserved, rfl,
    fun classified => ?_⟩
  have answer := classified.answer
  rw [deserved] at answer
  cases answer

end Benri.Service
