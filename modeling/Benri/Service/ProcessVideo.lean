import Benri.Service.Stores
import Benri.Transcoder.Playable

namespace Benri.Service

open Benri.Data Benri.Domain Benri.Postgres Benri.Storage Benri.Transcoder Benri.Transition

/-! # `ProcessVideoUseCase::execute`

An execution is three concurrent parts: the handler itself, the transcode it
started (an `Upload`), and the early publisher it spawned.  When the handler's
future is dropped, by its timeout or otherwise, the other two go on; when its
process dies, `alive` says so and all three stop.
-/

inductive ProcessVideoError where
  | videoNotFound
  | internal (message : String)
deriving DecidableEq, Repr

inductive ExecutionPhase where
  | loadVideo
  | claim (video : Video)
  | probe (video : Video)
  | transcode (video : Video) (hasAudio : Bool)
  | uploading (video : Video)
  | joinPublisher (video : Video) (result : Except TranscoderError Unit)
  | finalize (video : Video)
  | cleanupOriginal (video : Video)
  | fail (video : Video)
  | returned (result : Except ProcessVideoError Unit)
  | cut

/-- The early publisher: before it is spawned, waiting for the signal, about to
write the token, and over. -/
inductive PublisherPhase where
  | absent
  | waiting
  | publishing
  | done
deriving DecidableEq, Repr

structure Execution where
  id : VideoId
  phase : ExecutionPhase
  /-- History: whether the claim was answered with `true`. -/
  claimed : Bool
  /-- The token the execution drew, once it did. -/
  shareToken : Option String
  publisher : PublisherPhase
  upload : Option Upload
  alive : Bool

def Execution.start (id : VideoId) : Execution where
  id := id
  phase := .loadVideo
  claimed := false
  shareToken := none
  publisher := .absent
  upload := none
  alive := true

inductive ExecutionEvent where
  | call (fault : Fault)
  | probed (result : Except String Bool) (shareToken : String)
  | spawn (started : Except String String)
  | upload (event : UploadEvent)
  | pipelinePanic (message : String)
  | join (pipeline : Except String Unit)
  | joinPublisher
  | publish (fault : Fault)
  | fail (fault : TxFault) (seed : TaskSeed)
  | cut
  | kill

def executionLoad (stores : Stores) (fault : Fault) (id : VideoId) : ExecutionPhase :=
  match (attempt fault databaseError stores stores (stores.videos.find? id)).2 with
  | .error error => .returned (.error (.internal error))
  | .ok none => .returned (.error .videoNotFound)
  | .ok (some video) => .claim video

def claimForProcessing (stores : Stores) (fault : Fault) (video : Video) :
    Stores × Except String Bool :=
  let answer := updateStatusIf stores.videos video.id .uploaded .processing
  attempt fault databaseError stores { stores with videos := answer.1 } answer.2

/-- A token statement, and the history of the tokens that reached a row. -/
def writeToken (stores : Stores) (fault : Fault) (id : VideoId) (shareToken : String)
    (updated : Option (VideoTable × Bool)) : Stores × Except String Bool :=
  match updated with
  | none => (stores, .error duplicateKey)
  | some (videos, touched) =>
      attempt fault databaseError stores { stores with
        videos
        tokens := if touched then stores.tokens ++ [(id, shareToken)] else stores.tokens } touched

/-- `publish_share_token` only logs its result. -/
def publishShareToken (stores : Stores) (fault : Fault) (id : VideoId) (shareToken : String) :
    Stores :=
  (writeToken stores fault id shareToken (setShareToken stores.videos id shareToken)).1

def finalizeExecution (stores : Stores) (fault : Fault) (video : Video) (shareToken : String) :
    Stores × ExecutionPhase :=
  match writeToken stores fault video.id shareToken
    (Postgres.markProcessed stores.videos video.id shareToken) with
  | (reached, .ok true) => (reached, .cleanupOriginal video)
  | (reached, .ok false) => (reached, .returned (.ok ()))
  | (reached, .error _) => (reached, .fail video)

def cleanupOriginalInline (stores : Stores) (fault : Fault) (video : Video) : Stores :=
  (attempt fault storageError stores { stores with
    objects := deleteObject stores.objects video.uploadKey } ()).1

/-- The closure of `fail_and_schedule_delete`, which drops the update's answer. -/
def failClosure (fault : TxFault) (id : VideoId) (seed : TaskSeed) (scope : Stores) :
    Except String (Stores × Unit) :=
  match updateStatusInTx fault 0 scope id .processing .failed with
  | .error error => .error error
  | .ok (moved, _) =>
      match scheduleInTx fault 1 moved (DeleteVideoTaskMetadata.mk id) seed with
      | .error error => .error error
      | .ok scheduled => .ok (scheduled, ())

def failAndScheduleDelete (stores : Stores) (fault : TxFault) (id : VideoId) (seed : TaskSeed) :
    Stores :=
  (runTransaction stores fault (failClosure fault id seed)).1

/-- A port call of the handler. -/
def executionCall (stores : Stores) (fault : Fault) (execution : Execution) :
    Option (Stores × Execution) :=
  match execution.phase with
  | .loadVideo => some (stores, { execution with phase := executionLoad stores fault execution.id })
  | .claim video =>
      match claimForProcessing stores fault video with
      | (reached, .ok true) => some
          (reached, { execution with phase := .probe video, claimed := true })
      | (reached, .ok false) => some (reached, { execution with phase := .returned (.ok ()) })
      | (reached, .error error) => some
          (reached, { execution with phase := .returned (.error (.internal error)) })
  | .finalize video =>
      execution.shareToken.map fun shareToken =>
        let answer := finalizeExecution stores fault video shareToken
        (answer.1, { execution with phase := answer.2 })
  | .cleanupOriginal video => some
      (cleanupOriginalInline stores fault video, { execution with phase := .returned (.ok ()) })
  | _ => none

/-- After the probe the handler draws the token and spawns the publisher. -/
def executionProbed (execution : Execution) (result : Except String Bool) (shareToken : String) :
    Option Execution :=
  match execution.phase, result with
  | .probe video, .error _ => some { execution with phase := .fail video }
  | .probe video, .ok hasAudio => some { execution with
      phase := .transcode video hasAudio
      shareToken := some shareToken
      publisher := .waiting }
  | _, _ => none

/-- `transcode_to_hls` up to the uploader's spawn, with the configured tier list. -/
def executionSpawn (execution : Execution) (started : Except String String) : Option Execution :=
  match execution.phase, started with
  | .transcode video _, .error message => some { execution with
      phase := .joinPublisher video (.error (.transcodeFailed message)) }
  | .transcode video hasAudio, .ok raw => some { execution with
      phase := .uploading video
      upload := some (.start video.storagePrefix (parseQualityTiers raw) hasAudio) }
  | _, _ => none

/-- `transcode_to_hls` returns once both the pipeline and the uploader are over. -/
def executionJoin (execution : Execution) (pipeline : Except String Unit) : Option Execution :=
  match execution.phase, execution.upload with
  | .uploading video, some upload =>
      match upload.pipeline, upload.uploader.phase with
      | false, .returned result => some { execution with
          phase := .joinPublisher video
            (match pipeline with
              | .error message => .error (.transcodeFailed message)
              | .ok () => result)
          upload := some upload.abandon }
      | _, _ => none
  | _, _ => none

/-- The early return of `transcode_to_hls` when the pipeline thread has panicked:
the uploader is left behind. -/
def executionPanic (execution : Execution) (message : String) : Option Execution :=
  match execution.phase, execution.upload with
  | .uploading video, some upload => some { execution with
      phase := .joinPublisher video (.error (.transcodeFailed ("pipeline task join: " ++ message)))
      upload := some { upload.abandon with pipeline := false } }
  | _, _ => none

/-- Whether the notifier is gone without having been fired. -/
def Execution.notifierDropped (execution : Execution) : Bool :=
  match execution.upload with
  | none =>
      match execution.phase with
      | .transcode _ _ => false
      | _ => true
  | some upload =>
      match upload.uploader.phase with
      | .returned _ => decide (upload.signals = 0)
      | _ => false

def Execution.signalled (execution : Execution) : Bool :=
  execution.upload.any fun upload => decide (0 < upload.signals)

def executionPublish (stores : Stores) (fault : Fault) (execution : Execution) :
    Option (Stores × Execution) :=
  match execution.publisher, execution.shareToken with
  | .waiting, _ =>
      if execution.signalled then some (stores, { execution with publisher := .publishing })
      else if execution.notifierDropped then some (stores, { execution with publisher := .done })
      else none
  | .publishing, some shareToken => some
      (publishShareToken stores fault execution.id shareToken,
        { execution with publisher := .done })
  | _, _ => none

/-- `publisher.await`, and what the handler does about the transcode's result. -/
def executionJoinPublisher (execution : Execution) : Option Execution :=
  match execution.phase, execution.publisher with
  | .joinPublisher video (.error _), .done => some { execution with phase := .fail video }
  | .joinPublisher video (.ok ()), .done => some { execution with phase := .finalize video }
  | _, _ => none

/-- A step of the transcode; only dropping the handler's future abandons it. -/
def executionUpload (stores : Stores) (execution : Execution) (event : UploadEvent) :
    Option (Stores × Execution) :=
  match event with
  | .abandon => none
  | event => execution.upload.bind fun upload =>
      (uploadStep stores.objects upload event).map fun answer =>
        ({ stores with objects := answer.1 }, { execution with upload := some answer.2 })

def executionCut (execution : Execution) : Option Execution :=
  match execution.phase with
  | .returned _ => none
  | _ => some { execution with phase := .cut, upload := execution.upload.map Upload.abandon }

def executionStep (stores : Stores) (execution : Execution) (event : ExecutionEvent) :
    Option (Stores × Execution) :=
  if execution.alive then
    match event with
    | .call fault => executionCall stores fault execution
    | .probed result shareToken =>
        (executionProbed execution result shareToken).map fun next => (stores, next)
    | .spawn started => (executionSpawn execution started).map fun next => (stores, next)
    | .upload event => executionUpload stores execution event
    | .pipelinePanic message => (executionPanic execution message).map fun next => (stores, next)
    | .join pipeline => (executionJoin execution pipeline).map fun next => (stores, next)
    | .publish fault => executionPublish stores fault execution
    | .joinPublisher => (executionJoinPublisher execution).map fun next => (stores, next)
    | .fail fault seed =>
        match execution.phase with
        | .fail video => some (failAndScheduleDelete stores fault video.id seed,
            { execution with phase := .returned (.ok ()) })
        | _ => none
    | .cut => (executionCut execution).map fun next => (stores, next)
    | .kill => some (stores, { execution with phase := .cut, alive := false })
  else none

/-! ## What one step does -/

/-- A step of an execution, with its guards.  Its statements on the row keep their
names here, each with a lemma of its own about what it does. -/
inductive ExecutionTurn (stores : Stores) (execution : Execution) :
    ExecutionEvent → Stores → Execution → Prop where
  | loaded (video : Video) (phase : execution.phase = .loadVideo)
      (found : stores.videos.find? execution.id = some video) :
      ExecutionTurn stores execution (.call .none) stores
        { execution with phase := .claim video }
  | unloaded {fault : Fault} (error : ProcessVideoError) (phase : execution.phase = .loadVideo) :
      ExecutionTurn stores execution (.call fault) stores
        { execution with phase := .returned (.error error) }
  | claimed {fault : Fault} (video : Video) (reached : Stores)
      (phase : execution.phase = .claim video)
      (answered : claimForProcessing stores fault video = (reached, .ok true)) :
      ExecutionTurn stores execution (.call fault) reached
        { execution with phase := .probe video, claimed := true }
  | unclaimed {fault : Fault} (video : Video) (reached : Stores)
      (phase : execution.phase = .claim video)
      (answered : claimForProcessing stores fault video = (reached, .ok false)) :
      ExecutionTurn stores execution (.call fault) reached
        { execution with phase := .returned (.ok ()) }
  | claimFailed {fault : Fault} (video : Video) (reached : Stores) (error : String)
      (phase : execution.phase = .claim video)
      (answered : claimForProcessing stores fault video = (reached, .error error)) :
      ExecutionTurn stores execution (.call fault) reached
        { execution with phase := .returned (.error (.internal error)) }
  | unprobed (video : Video) (error shareToken : String)
      (phase : execution.phase = .probe video) :
      ExecutionTurn stores execution (.probed (.error error) shareToken) stores
        { execution with phase := .fail video }
  | probed (video : Video) (hasAudio : Bool) (shareToken : String)
      (phase : execution.phase = .probe video) :
      ExecutionTurn stores execution (.probed (.ok hasAudio) shareToken) stores { execution with
        phase := .transcode video hasAudio
        shareToken := some shareToken
        publisher := .waiting }
  | unspawned (video : Video) (hasAudio : Bool) (message : String)
      (phase : execution.phase = .transcode video hasAudio) :
      ExecutionTurn stores execution (.spawn (.error message)) stores
        { execution with phase := .joinPublisher video (.error (.transcodeFailed message)) }
  | spawned (video : Video) (hasAudio : Bool) (raw : String)
      (phase : execution.phase = .transcode video hasAudio) :
      ExecutionTurn stores execution (.spawn (.ok raw)) stores { execution with
        phase := .uploading video
        upload := some (.start video.storagePrefix (parseQualityTiers raw) hasAudio) }
  | panicked (video : Video) (upload : Upload) (message : String)
      (phase : execution.phase = .uploading video) (before : execution.upload = some upload) :
      ExecutionTurn stores execution (.pipelinePanic message) stores { execution with
        phase := .joinPublisher video
          (.error (.transcodeFailed ("pipeline task join: " ++ message)))
        upload := some { upload.abandon with pipeline := false } }
  | joined {pipeline : Except String Unit} (video : Video) (upload : Upload)
      (result answer : Except TranscoderError Unit) (phase : execution.phase = .uploading video)
      (before : execution.upload = some upload) (ended : upload.pipeline = false)
      (returned : upload.uploader.phase = .returned result) :
      ExecutionTurn stores execution (.join pipeline) stores { execution with
        phase := .joinPublisher video answer
        upload := some upload.abandon }
  | uploaded (upload after : Upload) (objects : Objects) (event : UploadEvent)
      (before : execution.upload = some upload)
      (stepped : uploadStep stores.objects upload event = some (objects, after)) :
      ExecutionTurn stores execution (.upload event) { stores with objects }
        { execution with upload := some after }
  | signalled {fault : Fault} (waiting : execution.publisher = .waiting)
      (signal : execution.signalled = true) :
      ExecutionTurn stores execution (.publish fault) stores
        { execution with publisher := .publishing }
  | silenced {fault : Fault} (waiting : execution.publisher = .waiting)
      (dropped : execution.notifierDropped = true) :
      ExecutionTurn stores execution (.publish fault) stores { execution with publisher := .done }
  | published {fault : Fault} (shareToken : String) (publishing : execution.publisher = .publishing)
      (drawn : execution.shareToken = some shareToken) :
      ExecutionTurn stores execution (.publish fault)
        (publishShareToken stores fault execution.id shareToken)
        { execution with publisher := .done }
  | untranscoded (video : Video) (error : TranscoderError)
      (phase : execution.phase = .joinPublisher video (.error error))
      (done : execution.publisher = .done) :
      ExecutionTurn stores execution .joinPublisher stores { execution with phase := .fail video }
  | transcoded (video : Video) (phase : execution.phase = .joinPublisher video (.ok ()))
      (done : execution.publisher = .done) :
      ExecutionTurn stores execution .joinPublisher stores
        { execution with phase := .finalize video }
  | finalized {fault : Fault} (video : Video) (shareToken : String)
      (phase : execution.phase = .finalize video)
      (drawn : execution.shareToken = some shareToken) :
      ExecutionTurn stores execution (.call fault)
        (finalizeExecution stores fault video shareToken).1
        { execution with phase := (finalizeExecution stores fault video shareToken).2 }
  | cleaned {fault : Fault} (video : Video) (phase : execution.phase = .cleanupOriginal video) :
      ExecutionTurn stores execution (.call fault) (cleanupOriginalInline stores fault video)
        { execution with phase := .returned (.ok ()) }
  | failed (fault : TxFault) (seed : TaskSeed) (video : Video)
      (phase : execution.phase = .fail video) :
      ExecutionTurn stores execution (.fail fault seed)
        (failAndScheduleDelete stores fault video.id seed)
        { execution with phase := .returned (.ok ()) }
  | cut : ExecutionTurn stores execution .cut stores { execution with
      phase := .cut, upload := execution.upload.map Upload.abandon }
  | killed : ExecutionTurn stores execution .kill stores
      { execution with phase := .cut, alive := false }

variable {stores reached : Stores} {execution next : Execution}

theorem executionLoad_turn {fault : Fault} (phase : execution.phase = .loadVideo) :
    ExecutionTurn stores execution (.call fault) stores
      { execution with phase := executionLoad stores fault execution.id } := by
  unfold executionLoad
  cases fault with
  | error applied message => exact .unloaded _ phase
  | none =>
      rw [attempt_none]
      cases found : stores.videos.find? execution.id with
      | none => exact .unloaded _ phase
      | some video => exact .loaded video phase found

theorem executionCall_turn {fault : Fault}
    (stepped : executionCall stores fault execution = some (reached, next)) :
    ExecutionTurn stores execution (.call fault) reached next := by
  unfold executionCall at stepped
  split at stepped
  · rename_i phase
    cases stepped
    exact executionLoad_turn phase
  · rename_i video phase
    split at stepped
    · rename_i after answered
      cases stepped
      exact .claimed video _ phase answered
    · rename_i after answered
      cases stepped
      exact .unclaimed video _ phase answered
    · rename_i after error answered
      cases stepped
      exact .claimFailed video _ error phase answered
  · rename_i video phase
    obtain ⟨shareToken, drawn, same⟩ := Option.map_eq_some_iff.mp stepped
    cases same
    exact .finalized video shareToken phase drawn
  · rename_i video phase
    cases stepped
    exact .cleaned video phase
  · contradiction

theorem executionProbed_turn {result : Except String Bool} {shareToken : String}
    (moved : executionProbed execution result shareToken = some next) :
    ExecutionTurn stores execution (.probed result shareToken) stores next := by
  unfold executionProbed at moved
  split at moved
  · rename_i video error phase
    cases moved
    exact .unprobed video error shareToken phase
  · rename_i video hasAudio phase
    cases moved
    exact .probed video hasAudio shareToken phase
  · contradiction

theorem executionSpawn_turn {started : Except String String}
    (moved : executionSpawn execution started = some next) :
    ExecutionTurn stores execution (.spawn started) stores next := by
  unfold executionSpawn at moved
  split at moved
  · rename_i video hasAudio message phase
    cases moved
    exact .unspawned video hasAudio message phase
  · rename_i video hasAudio raw phase
    cases moved
    exact .spawned video hasAudio raw phase
  · contradiction

theorem executionPanic_turn {message : String}
    (moved : executionPanic execution message = some next) :
    ExecutionTurn stores execution (.pipelinePanic message) stores next := by
  unfold executionPanic at moved
  split at moved
  · rename_i video upload phase before
    cases moved
    exact .panicked video upload message phase before
  · contradiction

theorem executionJoin_turn {pipeline : Except String Unit}
    (moved : executionJoin execution pipeline = some next) :
    ExecutionTurn stores execution (.join pipeline) stores next := by
  unfold executionJoin at moved
  split at moved
  · rename_i video upload phase before
    split at moved
    · rename_i result ended returned
      cases moved
      exact .joined video upload result _ phase before ended returned
    · contradiction
  · contradiction

theorem executionPublish_turn {fault : Fault}
    (stepped : executionPublish stores fault execution = some (reached, next)) :
    ExecutionTurn stores execution (.publish fault) reached next := by
  unfold executionPublish at stepped
  split at stepped
  · rename_i waiting
    split at stepped
    · rename_i signal
      cases stepped
      exact .signalled waiting signal
    · split at stepped
      · rename_i dropped
        cases stepped
        exact .silenced waiting dropped
      · contradiction
  · rename_i shareToken publishing drawn
    cases stepped
    exact .published shareToken publishing drawn
  · contradiction

theorem executionJoinPublisher_turn (moved : executionJoinPublisher execution = some next) :
    ExecutionTurn stores execution .joinPublisher stores next := by
  unfold executionJoinPublisher at moved
  split at moved
  · rename_i video error phase done
    cases moved
    exact .untranscoded video error phase done
  · rename_i video phase done
    cases moved
    exact .transcoded video phase done
  · contradiction

theorem executionUpload_turn {event : UploadEvent}
    (stepped : executionUpload stores execution event = some (reached, next)) :
    ExecutionTurn stores execution (.upload event) reached next := by
  unfold executionUpload at stepped
  split at stepped
  · contradiction
  · obtain ⟨upload, before, mapped⟩ := Option.bind_eq_some_iff.mp stepped
    obtain ⟨⟨objects, after⟩, moved, same⟩ := Option.map_eq_some_iff.mp mapped
    cases same
    exact .uploaded upload after objects _ before moved

theorem executionCut_turn (moved : executionCut execution = some next) :
    ExecutionTurn stores execution .cut stores next := by
  unfold executionCut at moved
  split at moved
  · contradiction
  · cases moved
    exact .cut

/-- A step that leaves the stores alone. -/
theorem ExecutionTurn.of_map {event : ExecutionEvent} {moved : Option Execution}
    (turn : ∀ next, moved = some next → ExecutionTurn stores execution event stores next)
    (stepped : (moved.map fun next => (stores, next)) = some (reached, next)) :
    ExecutionTurn stores execution event reached next := by
  obtain ⟨after, advanced, same⟩ := Option.map_eq_some_iff.mp stepped
  cases same
  exact turn _ advanced

theorem executionStep_turn {event : ExecutionEvent}
    (stepped : executionStep stores execution event = some (reached, next)) :
    ExecutionTurn stores execution event reached next := by
  unfold executionStep at stepped
  split at stepped
  · cases event with
    | call fault => exact executionCall_turn stepped
    | probed result shareToken => exact .of_map (fun _ => executionProbed_turn) stepped
    | spawn started => exact .of_map (fun _ => executionSpawn_turn) stepped
    | upload event => exact executionUpload_turn stepped
    | pipelinePanic message => exact .of_map (fun _ => executionPanic_turn) stepped
    | join pipeline => exact .of_map (fun _ => executionJoin_turn) stepped
    | joinPublisher => exact .of_map (fun _ => executionJoinPublisher_turn) stepped
    | publish fault => exact executionPublish_turn stepped
    | fail fault seed =>
        dsimp only at stepped
        split at stepped
        · rename_i video phase
          cases stepped
          exact .failed fault seed video phase
        · contradiction
    | cut => exact .of_map (fun _ => executionCut_turn) stepped
    | kill => cases stepped; exact .killed
  · contradiction

theorem executionStep_alive {event : ExecutionEvent}
    (stepped : executionStep stores execution event = some (reached, next)) :
    execution.alive = true := by
  unfold executionStep at stepped
  split at stepped
  · assumption
  · contradiction

end Benri.Service
