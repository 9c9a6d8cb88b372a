import Benri.Service.CompletionEffect

namespace Benri.Service

open Benri.Data Benri.Domain Benri.Postgres Benri.Storage Benri.Transcoder Benri.Transition

/-! # What an execution step can do -/

/-- A step of an execution that writes nothing. -/
inductive Advance (stores : Stores) (execution : Execution) : Execution → Prop where
  | loaded (video : Video) (phase : execution.phase = .loadVideo)
      (found : stores.videos.find? execution.id = some video) :
      Advance stores execution { execution with phase := .claim video }
  | ended (result : Except ProcessVideoError Unit) :
      Advance stores execution { execution with phase := .returned result }
  | probed (video : Video) (hasAudio : Bool) (shareToken : String)
      (phase : execution.phase = .probe video) :
      Advance stores execution { execution with
        phase := .transcode video hasAudio
        shareToken := some shareToken
        publisher := .waiting }
  | failing (video : Video)
      (phase : execution.phase = .probe video ∨
        (∃ result, execution.phase = .joinPublisher video result) ∨
        execution.phase = .finalize video) :
      Advance stores execution { execution with phase := .fail video }
  | unspawned (video : Video) (hasAudio : Bool) (result : Except TranscoderError Unit)
      (phase : execution.phase = .transcode video hasAudio) :
      Advance stores execution { execution with phase := .joinPublisher video result }
  | spawned (video : Video) (hasAudio : Bool) (raw : String)
      (phase : execution.phase = .transcode video hasAudio) :
      Advance stores execution { execution with
        phase := .uploading video
        upload := some (.start video.storagePrefix (parseQualityTiers raw) hasAudio) }
  | joined (video : Video) (result : Except TranscoderError Unit) (upload : Upload)
      (pipeline : Bool) (phase : execution.phase = .uploading video)
      (before : execution.upload = some upload) :
      Advance stores execution { execution with
        phase := .joinPublisher video result
        upload := some { upload.abandon with pipeline } }
  | signalled (waiting : execution.publisher = .waiting) (signal : execution.signalled = true) :
      Advance stores execution { execution with publisher := .publishing }
  | silenced : Advance stores execution { execution with publisher := .done }
  | ready (video : Video) (phase : execution.phase = .joinPublisher video (.ok ())) :
      Advance stores execution { execution with phase := .finalize video }
  | cut : Advance stores execution { execution with
      phase := .cut, upload := execution.upload.map Upload.abandon }
  | killed : Advance stores execution { execution with phase := .cut, alive := false }

inductive ExecutionEffect (stores : Stores) (execution : Execution) :
    ExecutionEvent → Stores → Execution → Prop where
  | quiet {event : ExecutionEvent} (next : Execution) (advance : Advance stores execution next) :
      ExecutionEffect stores execution event stores next
  | claimed {fault : Fault} (video row : Video) (next : Execution)
      (phase : execution.phase = .claim video)
      (found : stores.videos.find? video.id = some row) (uploaded : row.status = .uploaded)
      (answered : next = { execution with phase := .probe video, claimed := true } ∨
        ∃ error, next = { execution with phase := .returned (.error error) }) :
      ExecutionEffect stores execution (.call fault) { stores with
        videos := (updateStatusIf stores.videos video.id .uploaded .processing).1 } next
  | published {fault : Fault} (shareToken : String) (row : Video) (videos : VideoTable)
      (publishing : execution.publisher = .publishing)
      (drawn : execution.shareToken = some shareToken)
      (found : stores.videos.find? execution.id = some row)
      (processing : row.status = .processing)
      (updated : setShareToken stores.videos execution.id shareToken = some (videos, true)) :
      ExecutionEffect stores execution (.publish fault)
        { stores with videos, tokens := stores.tokens ++ [(execution.id, shareToken)] }
        { execution with publisher := .done }
  | finalized {fault : Fault} (shareToken : String) (video row : Video) (videos : VideoTable)
      (next : ExecutionPhase) (phase : execution.phase = .finalize video)
      (drawn : execution.shareToken = some shareToken)
      (found : stores.videos.find? video.id = some row) (processing : row.status = .processing)
      (updated : Postgres.markProcessed stores.videos video.id shareToken = some (videos, true))
      (answered : next = .cleanupOriginal video ∨ next = .fail video) :
      ExecutionEffect stores execution (.call fault)
        { stores with videos, tokens := stores.tokens ++ [(video.id, shareToken)] }
        { execution with phase := next }
  | cleaned {fault : Fault} (video : Video) (result : Except ProcessVideoError Unit)
      (phase : execution.phase = .cleanupOriginal video) :
      ExecutionEffect stores execution (.call fault) { stores with
        objects := Storage.deleteObject stores.objects video.uploadKey }
        { execution with phase := .returned result }
  | failed {fault : TxFault} (video : Video) (seed : TaskSeed) (tasks : TaskTable)
      (result : Except ProcessVideoError Unit) (phase : execution.phase = .fail video)
      (change : TasksAdded stores.tasks tasks
        [pendingTask stores (DeleteVideoTaskMetadata.mk video.id) seed]) :
      ExecutionEffect stores execution (.fail fault seed) { stores with
        videos := (updateStatusIf stores.videos video.id .processing .failed).1, tasks }
        { execution with phase := .returned result }
  | uploaded (upload after : Upload) (objects : Objects) (event : UploadEvent)
      (before : execution.upload = some upload)
      (stepped : uploadStep stores.objects upload event = some (objects, after)) :
      ExecutionEffect stores execution (.upload event) { stores with objects }
        { execution with upload := some after }

theorem writeToken_cases (stores : Stores) (fault : Fault) (id : VideoId) (shareToken : String)
    (status : VideoStatus) :
    (∃ result, writeToken stores fault id shareToken
        (updateToken stores.videos id shareToken status) = (stores, result) ∧ result ≠ .ok true) ∨
      ∃ videos row result, updateToken stores.videos id shareToken status = some (videos, true) ∧
        stores.videos.find? id = some row ∧ row.status = .processing ∧
        writeToken stores fault id shareToken (updateToken stores.videos id shareToken status) =
          ({ stores with videos, tokens := stores.tokens ++ [(id, shareToken)] }, result) ∧
        (result = .ok true ∨ ∃ error, result = .error error) := by
  cases updated : updateToken stores.videos id shareToken status with
  | none => exact .inl ⟨_, rfl, fun same => by cases same⟩
  | some answer =>
      obtain ⟨videos, touched⟩ := answer
      have shape := updated
      simp only [updateToken] at shape
      split at shape
      · contradiction
      · cases touched with
        | false =>
            obtain ⟨moved, untouched⟩ := Prod.mk.inj (Option.some.inj shape)
            rw [update_untouched untouched] at moved
            subst moved
            left
            cases fault with
            | none => exact ⟨_, rfl, fun same => by cases same⟩
            | error applied message =>
                cases applied <;> exact ⟨_, rfl, fun same => by cases same⟩
        | true =>
            obtain ⟨_, touches⟩ := Prod.mk.inj (Option.some.inj shape)
            obtain ⟨row, found, processing⟩ := (touched_iff _ _ _).mp touches
            cases fault with
            | none => exact .inr ⟨videos, row, _, rfl, found, processing, rfl, .inl rfl⟩
            | error applied message =>
                cases applied
                · exact .inl ⟨_, rfl, fun same => by cases same⟩
                · exact .inr ⟨videos, row, _, rfl, found, processing, rfl, .inr ⟨_, rfl⟩⟩

variable {stores reached : Stores} {execution next : Execution}

theorem claimForProcessing_cases (stores : Stores) (fault : Fault) (video : Video) :
    (∃ answer, claimForProcessing stores fault video = (stores, answer) ∧ answer ≠ .ok true) ∨
      ∃ row answer, stores.videos.find? video.id = some row ∧ row.status = .uploaded ∧
        claimForProcessing stores fault video = ({ stores with
          videos := (updateStatusIf stores.videos video.id .uploaded .processing).1 }, answer) ∧
        answer ≠ .ok false := by
  unfold claimForProcessing
  rcases updateStatusIf_cases stores.videos video.id .uploaded .processing with
    same | ⟨row, found, uploaded, same⟩
  · rw [same]
    cases fault with
    | none => exact .inl ⟨_, rfl, fun same => by cases same⟩
    | error applied message => cases applied <;> exact .inl ⟨_, rfl, fun same => by cases same⟩
  · rw [same]
    cases fault with
    | none => exact .inr ⟨row, _, found, uploaded, rfl, fun same => by cases same⟩
    | error applied message =>
        cases applied
        · exact .inl ⟨_, rfl, fun same => by cases same⟩
        · exact .inr ⟨row, _, found, uploaded, rfl, fun same => by cases same⟩

theorem finalize_effect {fault : Fault} {video : Video} {shareToken : String}
    (phase : execution.phase = .finalize video) (drawn : execution.shareToken = some shareToken) :
    ExecutionEffect stores execution (.call fault)
      (finalizeExecution stores fault video shareToken).1
      { execution with phase := (finalizeExecution stores fault video shareToken).2 } := by
  unfold finalizeExecution
  rcases writeToken_cases stores fault video.id shareToken .processed with
    ⟨result, written, unmarked⟩ |
      ⟨videos, row, result, updated, found, processing, written, answered⟩
  · rw [Postgres.markProcessed, written]
    cases result with
    | error error => exact .quiet _ (.failing video (.inr (.inr phase)))
    | ok marked =>
        cases marked with
        | true => exact absurd rfl unmarked
        | false => exact .quiet _ (.ended _)
  · rw [Postgres.markProcessed, written]
    rcases answered with rfl | ⟨error, rfl⟩
    · exact .finalized shareToken video row videos _ phase drawn found processing updated (.inl rfl)
    · exact .finalized shareToken video row videos _ phase drawn found processing updated (.inr rfl)

theorem cleaned_effect {fault : Fault} {video : Video} {result : Except ProcessVideoError Unit}
    (phase : execution.phase = .cleanupOriginal video) :
    ExecutionEffect stores execution (.call fault) (cleanupOriginalInline stores fault video)
      { execution with phase := .returned result } := by
  unfold cleanupOriginalInline
  rcases attempt_state fault storageError stores { stores with
    objects := Storage.deleteObject stores.objects video.uploadKey } () with same | same
  · rw [same]
    exact .quiet _ (.ended _)
  · rw [same]
    exact .cleaned video _ phase

theorem publish_effect {fault : Fault} {shareToken : String}
    (publishing : execution.publisher = .publishing)
    (drawn : execution.shareToken = some shareToken) :
    ExecutionEffect stores execution (.publish fault)
      (publishShareToken stores fault execution.id shareToken)
      { execution with publisher := .done } := by
  unfold publishShareToken
  rcases writeToken_cases stores fault execution.id shareToken .processing with
    ⟨result, written, _⟩ | ⟨videos, row, result, updated, found, processing, written, _⟩
  · rw [setShareToken, written]
    exact .quiet _ .silenced
  · rw [setShareToken, written]
    exact .published shareToken row videos publishing drawn found processing updated

theorem failClosure_result {fault : TxFault} {id : VideoId} {seed : TaskSeed} {answer : Unit}
    (ran : failClosure fault id seed stores = .ok (reached, answer)) :
    ∃ tasks, stores.tasks.insert? (pendingTask stores (DeleteVideoTaskMetadata.mk id) seed) =
        some tasks ∧
      reached = { stores with
        videos := (updateStatusIf stores.videos id .processing .failed).1, tasks } := by
  unfold failClosure at ran
  split at ran
  · contradiction
  · rename_i moved touched updated
    obtain ⟨rfl, _⟩ := updateStatusInTx_ok updated
    split at ran
    · contradiction
    · rename_i scheduled inserted
      cases ran
      obtain ⟨tasks, fresh, rfl⟩ := scheduleInTx_ok inserted
      exact ⟨tasks, fresh, rfl⟩

theorem fail_effect {fault : TxFault} {seed : TaskSeed} {video : Video}
    {result : Except ProcessVideoError Unit} (phase : execution.phase = .fail video) :
    ExecutionEffect stores execution (.fail fault seed)
      (failAndScheduleDelete stores fault video.id seed)
      { execution with phase := .returned result } := by
  unfold failAndScheduleDelete
  cases ran : runTransaction stores fault (failClosure fault video.id seed) with
  | mk reached answered =>
      rcases runTransaction_result ran with ⟨answer, closed, _⟩ | ⟨rfl, _⟩
      · obtain ⟨tasks, inserted, rfl⟩ := failClosure_result closed
        exact .failed video seed tasks _ phase (.insert inserted)
      · exact .quiet _ (.ended _)

theorem executionStep_effect {event : ExecutionEvent}
    (stepped : executionStep stores execution event = some (reached, next)) :
    ExecutionEffect stores execution event reached next := by
  cases executionStep_turn stepped with
  | loaded video phase found => exact .quiet _ (.loaded video phase found)
  | unloaded => exact .quiet _ (.ended _)
  | claimed video reached phase answered =>
      rcases claimForProcessing_cases stores _ video with
        ⟨answer, same, lost⟩ | ⟨row, answer, found, uploaded, same, won⟩
      · cases answered.symm.trans same
        exact absurd rfl lost
      · cases answered.symm.trans same
        exact .claimed video row _ phase found uploaded (.inl rfl)
  | unclaimed video reached phase answered =>
      rcases claimForProcessing_cases stores _ video with
        ⟨answer, same, lost⟩ | ⟨row, answer, found, uploaded, same, won⟩
      · cases answered.symm.trans same
        exact .quiet _ (.ended _)
      · cases answered.symm.trans same
        exact absurd rfl won
  | claimFailed video reached error phase answered =>
      rcases claimForProcessing_cases stores _ video with
        ⟨answer, same, lost⟩ | ⟨row, answer, found, uploaded, same, won⟩
      · cases answered.symm.trans same
        exact .quiet _ (.ended _)
      · cases answered.symm.trans same
        exact .claimed video row _ phase found uploaded (.inr ⟨_, rfl⟩)
  | unprobed video error shareToken phase => exact .quiet _ (.failing video (.inl phase))
  | probed video hasAudio shareToken phase =>
      exact .quiet _ (.probed video hasAudio shareToken phase)
  | unspawned video hasAudio message phase => exact .quiet _ (.unspawned video hasAudio _ phase)
  | spawned video hasAudio raw phase => exact .quiet _ (.spawned video hasAudio raw phase)
  | panicked video upload message phase before =>
      exact .quiet _ (.joined video _ upload false phase before)
  | joined video upload result answer phase before =>
      exact .quiet _ (.joined video answer upload upload.pipeline phase before)
  | uploaded upload after objects event before moved =>
      exact .uploaded upload after objects event before moved
  | signalled waiting signal => exact .quiet _ (.signalled waiting signal)
  | silenced => exact .quiet _ .silenced
  | published shareToken publishing drawn => exact publish_effect publishing drawn
  | untranscoded video error phase =>
      exact .quiet _ (.failing video (.inr (.inl ⟨_, phase⟩)))
  | transcoded video phase => exact .quiet _ (.ready video phase)
  | finalized video shareToken phase drawn => exact finalize_effect phase drawn
  | cleaned video phase => exact cleaned_effect phase
  | failed fault seed video phase => exact fail_effect phase
  | cut => exact .quiet _ .cut
  | killed => exact .quiet _ .killed

end Benri.Service
