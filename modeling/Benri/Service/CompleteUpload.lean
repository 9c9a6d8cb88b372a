import Benri.Service.Stores

namespace Benri.Service

open Benri.Data Benri.Domain Benri.Postgres Benri.Storage Benri.Transition

/-! # `CompleteUploadUseCase::execute`

A call by the port call it makes next.  `cut` is a call whose future was
dropped; a statement under way then may have taken effect, which is the
statement under a fault followed by the cut.
-/

def FILE_SIGNATURE_READ_BYTES : Nat := 16

inductive CompleteUploadError where
  | videoNotFound
  | alreadyCompleted
  | fileNotFoundInStorage
  | fileTooLarge
  | invalidFileSignature
  | internal (message : String)
deriving DecidableEq, Repr

structure CompleteUploadOutput where
  id : VideoId
  status : VideoStatus
deriving DecidableEq, Repr

inductive CompletionPhase where
  | findById
  | headObject (video : Video)
  | readRange (video : Video)
  | reject (video : Video) (error : CompleteUploadError)
  | transition (video : Video)
  | returned (result : Except CompleteUploadError CompleteUploadOutput)
  | cut

structure Completion where
  id : VideoId
  phase : CompletionPhase

inductive CompletionEvent where
  | call (fault : Fault)
  | reject (fault : Fault) (seed : TaskSeed)
  | transition (fault : TxFault) (seed : TaskSeed)
  | cut

def completionFind (stores : Stores) (fault : Fault) (id : VideoId) : CompletionPhase :=
  match (attempt fault databaseError stores stores (stores.videos.find? id)).2 with
  | .error error => .returned (.error (.internal error))
  | .ok none => .returned (.error .videoNotFound)
  | .ok (some video) =>
      if video.status ≠ .pendingUpload then .returned (.error .alreadyCompleted)
      else .headObject video

def completionHead (stores : Stores) (fault : Fault) (video : Video) : CompletionPhase :=
  match (attempt fault storageError stores stores
    (Storage.headObject stores.objects video.uploadKey)).2 with
  | .error error => .returned (.error (.internal error))
  | .ok none => .returned (.error .fileNotFoundInStorage)
  | .ok (some size) =>
      if MAX_UPLOAD_SIZE_BYTES < size then .reject video .fileTooLarge else .readRange video

/-- `read_range`; a key that is gone and an empty object are errors of the store. -/
def readRange (objects : Objects) (key : String) (start stop : Nat) :
    Except String (List UInt8) :=
  match (objects.find? key).bind fun object => object.body.range start stop with
  | some bytes => .ok bytes
  | none => .error (storageError "service error")

def completionRead (stores : Stores) (fault : Fault) (video : Video) : CompletionPhase :=
  match (attempt fault storageError stores stores
    (readRange stores.objects video.uploadKey 0 (FILE_SIGNATURE_READ_BYTES - 1))).2 with
  | .error error | .ok (.error error) => .returned (.error (.internal error))
  | .ok (.ok headerBytes) =>
      if video.format.validateSignature headerBytes then .transition video
      else .reject video .invalidFileSignature

/-- A failure to schedule is logged; the rejection is reported either way. -/
def scheduleDeleteAfterRejection (stores : Stores) (fault : Fault) (id : VideoId)
    (seed : TaskSeed) : Stores :=
  (scheduleStandalone stores fault (DeleteVideoTaskMetadata.mk id) seed).1

/-- The closure of `transition_to_uploaded`; its answer is the `transitioned` flag. -/
def transitionClosure (fault : TxFault) (id : VideoId) (seed : TaskSeed) (scope : Stores) :
    Except String (Stores × Bool) :=
  match updateStatusInTx fault 0 scope id .pendingUpload .uploaded with
  | .error error => .error error
  | .ok (moved, false) => .ok (moved, false)
  | .ok (moved, true) =>
      match scheduleInTx fault 1 moved (ProcessVideoTaskMetadata.mk id) seed with
      | .error error => .error error
      | .ok scheduled => .ok (scheduled, true)

def transitionToUploaded (stores : Stores) (fault : TxFault) (video : Video)
    (seed : TaskSeed) : Stores × CompletionPhase :=
  match runTransaction stores fault (transitionClosure fault video.id seed) with
  | (reached, .error error) => (reached, .returned (.error (.internal error)))
  | (reached, .ok false) => (reached, .returned (.error .alreadyCompleted))
  | (reached, .ok true) => (reached, .returned (.ok ⟨video.id, .uploaded⟩))

def completionStep (stores : Stores) (completion : Completion) :
    CompletionEvent → Option (Stores × CompletionPhase)
  | .call fault =>
      match completion.phase with
      | .findById => some (stores, completionFind stores fault completion.id)
      | .headObject video => some (stores, completionHead stores fault video)
      | .readRange video => some (stores, completionRead stores fault video)
      | _ => none
  | .reject fault seed =>
      match completion.phase with
      | .reject video error => some
          (scheduleDeleteAfterRejection stores fault video.id seed, .returned (.error error))
      | _ => none
  | .transition fault seed =>
      match completion.phase with
      | .transition video => some (transitionToUploaded stores fault video seed)
      | _ => none
  | .cut =>
      match completion.phase with
      | .returned _ => none
      | _ => some (stores, .cut)

/-! ## What one step does -/

/-- A step of a call for `id`, with its guards. -/
inductive CompletionTurn (stores : Stores) (id : VideoId) :
    CompletionPhase → CompletionEvent → Stores → CompletionPhase → Prop where
  | loaded (video : Video) (found : stores.videos.find? id = some video)
      (pending : video.status = .pendingUpload) :
      CompletionTurn stores id .findById (.call .none) stores (.headObject video)
  | measured (video : Video) (object : Object)
      (there : stores.objects.find? video.uploadKey = some object)
      (small : ¬MAX_UPLOAD_SIZE_BYTES < object.body.size) :
      CompletionTurn stores id (.headObject video) (.call .none) stores (.readRange video)
  | oversized (video : Video) (object : Object)
      (there : stores.objects.find? video.uploadKey = some object)
      (large : MAX_UPLOAD_SIZE_BYTES < object.body.size) :
      CompletionTurn stores id (.headObject video) (.call .none) stores
        (.reject video .fileTooLarge)
  | signed (video : Video) (object : Object) (headerBytes : List UInt8)
      (there : stores.objects.find? video.uploadKey = some object)
      (read : object.body.range 0 (FILE_SIGNATURE_READ_BYTES - 1) = some headerBytes)
      (valid : video.format.validateSignature headerBytes = true) :
      CompletionTurn stores id (.readRange video) (.call .none) stores (.transition video)
  | unsigned (video : Video) (object : Object) (headerBytes : List UInt8)
      (there : stores.objects.find? video.uploadKey = some object)
      (read : object.body.range 0 (FILE_SIGNATURE_READ_BYTES - 1) = some headerBytes)
      (invalid : ¬video.format.validateSignature headerBytes = true) :
      CompletionTurn stores id (.readRange video) (.call .none) stores
        (.reject video .invalidFileSignature)
  | rejected {fault : Fault} (video : Video) (error : CompleteUploadError) (seed : TaskSeed)
      (tasks : TaskTable)
      (inserted : tasks = stores.tasks ∨ stores.tasks.insert?
        (pendingTask stores (DeleteVideoTaskMetadata.mk video.id) seed) = some tasks) :
      CompletionTurn stores id (.reject video error) (.reject fault seed) { stores with tasks }
        (.returned (.error error))
  | transitioned {fault : TxFault} (video row : Video) (seed : TaskSeed) (tasks : TaskTable)
      (next : CompletionPhase) (found : stores.videos.find? video.id = some row)
      (pending : row.status = .pendingUpload)
      (inserted : stores.tasks.insert?
        (pendingTask stores (ProcessVideoTaskMetadata.mk video.id) seed) = some tasks)
      (answered : next = .returned (.ok ⟨video.id, .uploaded⟩) ∨
        ∃ message, next = .returned (.error (.internal message))) :
      CompletionTurn stores id (.transition video) (.transition fault seed) { stores with
        videos := (updateStatusIf stores.videos video.id .pendingUpload .uploaded).1, tasks } next
  | gaveUp {phase : CompletionPhase} {event : CompletionEvent} (error : CompleteUploadError)
      (other : error ≠ .fileTooLarge ∧ error ≠ .invalidFileSignature) :
      CompletionTurn stores id phase event stores (.returned (.error error))
  | cut {phase : CompletionPhase} : CompletionTurn stores id phase .cut stores .cut

variable {stores reached : Stores} {id : VideoId} {video : Video} {fault : Fault}
  {seed : TaskSeed}

theorem completionFind_turn :
    CompletionTurn stores id .findById (.call fault) stores (completionFind stores fault id) := by
  unfold completionFind
  cases fault with
  | error applied message => exact .gaveUp _ ⟨by simp, by simp⟩
  | none =>
      rw [attempt_none]
      cases found : stores.videos.find? id with
      | none => exact .gaveUp _ ⟨by simp, by simp⟩
      | some video =>
          dsimp only
          split
          · exact .gaveUp _ ⟨by simp, by simp⟩
          · rename_i pending
            exact .loaded video found (not_ne_iff.mp pending)

theorem completionHead_turn :
    CompletionTurn stores id (.headObject video) (.call fault) stores
      (completionHead stores fault video) := by
  unfold completionHead
  cases fault with
  | error applied message => exact .gaveUp _ ⟨by simp, by simp⟩
  | none =>
      rw [attempt_none, Storage.headObject]
      cases there : stores.objects.find? video.uploadKey with
      | none => exact .gaveUp _ ⟨by simp, by simp⟩
      | some object =>
          dsimp only [Option.map_some]
          split
          · exact .oversized video object there ‹_›
          · exact .measured video object there ‹_›

theorem completionRead_turn :
    CompletionTurn stores id (.readRange video) (.call fault) stores
      (completionRead stores fault video) := by
  unfold completionRead readRange
  cases fault with
  | error applied message => exact .gaveUp _ ⟨by simp, by simp⟩
  | none =>
      rw [attempt_none]
      cases there : stores.objects.find? video.uploadKey with
      | none => exact .gaveUp _ ⟨by simp, by simp⟩
      | some object =>
          dsimp only [Option.bind_some]
          cases read : object.body.range 0 (FILE_SIGNATURE_READ_BYTES - 1) with
          | none => exact .gaveUp _ ⟨by simp, by simp⟩
          | some headerBytes =>
              dsimp only
              split
              · exact .signed video object headerBytes there read ‹_›
              · exact .unsigned video object headerBytes there read ‹_›

theorem transitionClosure_result {fault : TxFault} {id : VideoId} {seed : TaskSeed}
    {transitioned : Bool}
    (ran : transitionClosure fault id seed stores = .ok (reached, transitioned)) :
    reached = stores ∧ transitioned = false ∨
      ∃ row tasks, stores.videos.find? id = some row ∧ row.status = .pendingUpload ∧
        stores.tasks.insert? (pendingTask stores (ProcessVideoTaskMetadata.mk id) seed) =
          some tasks ∧ transitioned = true ∧
        reached = { stores with
          videos := (updateStatusIf stores.videos id .pendingUpload .uploaded).1, tasks } := by
  unfold transitionClosure at ran
  split at ran
  · contradiction
  · rename_i moved updated
    cases ran
    obtain ⟨rfl, untouched⟩ := updateStatusInTx_ok updated
    rcases updateStatusIf_cases stores.videos id .pendingUpload .uploaded with
      same | ⟨_, _, _, same⟩
    · exact .inl ⟨by rw [same], rfl⟩
    · rw [same] at untouched
      cases untouched
  · rename_i moved updated
    obtain ⟨rfl, touched⟩ := updateStatusInTx_ok updated
    split at ran
    · contradiction
    · rename_i scheduled inserted
      cases ran
      obtain ⟨tasks, fresh, rfl⟩ := scheduleInTx_ok inserted
      rcases updateStatusIf_cases stores.videos id .pendingUpload .uploaded with
        same | ⟨row, found, pending, _⟩
      · rw [same] at touched
        cases touched
      · exact .inr ⟨row, tasks, found, pending, fresh, rfl, rfl⟩

theorem transitionToUploaded_turn {fault : TxFault} :
    CompletionTurn stores id (.transition video) (.transition fault seed)
      (transitionToUploaded stores fault video seed).1
      (transitionToUploaded stores fault video seed).2 := by
  unfold transitionToUploaded
  cases ran : runTransaction stores fault (transitionClosure fault video.id seed) with
  | mk scope result =>
      rcases runTransaction_result ran with ⟨transitioned, closed, answered⟩ | ⟨rfl, error, rfl⟩
      · rcases transitionClosure_result closed with
          ⟨rfl, rfl⟩ | ⟨row, tasks, found, pending, inserted, rfl, rfl⟩
        · rcases answered with rfl | ⟨error, rfl⟩
          · exact .gaveUp _ ⟨by simp, by simp⟩
          · exact .gaveUp _ ⟨by simp, by simp⟩
        · rcases answered with rfl | ⟨error, rfl⟩
          · exact .transitioned video row seed tasks _ found pending inserted (.inl rfl)
          · exact .transitioned video row seed tasks _ found pending inserted (.inr ⟨_, rfl⟩)
      · exact .gaveUp _ ⟨by simp, by simp⟩

theorem completionStep_turn {phase next : CompletionPhase} {event : CompletionEvent}
    (stepped : completionStep stores ⟨id, phase⟩ event = some (reached, next)) :
    CompletionTurn stores id phase event reached next := by
  cases event with
  | call fault =>
      cases phase <;> simp only [completionStep, reduceCtorEq] at stepped <;> cases stepped
      · exact completionFind_turn
      · exact completionHead_turn
      · exact completionRead_turn
  | reject fault seed =>
      cases phase <;> simp only [completionStep, reduceCtorEq] at stepped
      rename_i video error
      cases stepped
      obtain ⟨tasks, same, inserted⟩ :=
        scheduleStandalone_stores stores fault (DeleteVideoTaskMetadata.mk video.id) seed
      rw [scheduleDeleteAfterRejection, same]
      exact .rejected video error seed tasks inserted
  | transition fault seed =>
      cases phase <;> simp only [completionStep, reduceCtorEq] at stepped
      rename_i video
      have turn : CompletionTurn stores id (.transition video) (.transition fault seed)
          (transitionToUploaded stores fault video seed).1
          (transitionToUploaded stores fault video seed).2 := transitionToUploaded_turn
      rwa [Option.some.inj stepped] at turn
  | cut =>
      cases phase <;> simp only [completionStep, reduceCtorEq] at stepped <;> cases stepped <;>
        exact .cut

end Benri.Service
