import Benri.Service.ProcessVideo
import Benri.Transcoder.Unwind

namespace Benri.Service

open Benri.Data Benri.Domain Benri.Postgres Benri.Storage Benri.Transcoder Benri.Transition

/-! # The transcode inside an execution

An execution knows of its transcode the uploader, the flag of the pipeline and the answer.
The race behind that answer, with its driver and its cancellation, does nothing that an
execution does not do.
-/

variable {stores : Stores} {execution reached : Execution} {video : Video}
  {objects written : Objects} {transcode after : Transcode} {event : TranscodeEvent}

def executionRun (world : Stores × Execution) (event : ExecutionEvent) :
    Option (Stores × Execution) :=
  executionStep world.1 world.2 event

def calm : TranscodeEvent → Bool
  | .driver (.panic _) | .uploaderPanic _ => false
  | _ => true

/-- Neither thread panics. -/
def Unbroken (_ : Objects × Transcode) (event : TranscodeEvent) : Prop :=
  calm event = true

instance (world : Objects × Transcode) (event : TranscodeEvent) :
    Decidable (Unbroken world event) :=
  inferInstanceAs (Decidable (calm event = true))

/-- How far the execution is. -/
def executionPhase (video : Video) : TranscodePhase → ExecutionPhase
  | .racing | .draining _ | .unwinding _ => .uploading video
  | .returned result => .joinPublisher video result
  | .dropped => .cut

structure Follows (video : Video) (transcode : Transcode) (execution : Execution) : Prop where
  alive : execution.alive = true
  phase : execution.phase = executionPhase video transcode.phase
  upload : execution.upload = some transcode.upload

/-- The driver fails as the port says. -/
def Failing (outcome : Except TranscoderError Unit) : Prop :=
  ∀ error, outcome = .error error → ∃ message, error = .transcodeFailed message

structure Plain (transcode : Transcode) : Prop where
  coupled : Coupled transcode
  resetting : ∀ outcome, transcode.driver = .resetting outcome → Failing outcome
  done : ∀ outcome, transcode.driver = .done outcome → Failing outcome
  unpanicked : ∀ message, transcode.driver ≠ .panicked message
  living : transcode.died = none

theorem failing_failed (message : String) : Failing (.error (.transcodeFailed message)) := by
  rintro _ ⟨⟩
  exact ⟨message, rfl⟩

theorem Failing.as_port {outcome : Except TranscoderError Unit} (failing : Failing outcome) :
    ∃ answer : Except String Unit, answer.mapError .transcodeFailed = outcome := by
  cases outcome with
  | ok => exact ⟨.ok (), rfl⟩
  | error error =>
      obtain ⟨message, rfl⟩ := failing error rfl
      exact ⟨.error message, rfl⟩

theorem driverPop_plain (message : Option BusMessage) :
    driverPop message = .checking ∨ ∃ outcome, driverPop message = .resetting outcome ∧
      Failing outcome := by
  match message with
  | none => exact .inl rfl
  | some .other => exact .inl rfl
  | some .eos => exact .inr ⟨.ok (), rfl, nofun⟩
  | some (.error text debug) => exact .inr ⟨_, rfl, failing_failed _⟩

theorem Plain.drive (plain : Plain transcode) {event : DriverEvent} {driver : DriverPhase}
    (calm : ∀ message, event ≠ .panic message)
    (stepped : driverStep transcode.cancel transcode.driver event = some driver) :
    (∀ outcome, driver = .resetting outcome → Failing outcome) ∧
      (∀ outcome, driver = .done outcome → Failing outcome) ∧
      ∀ message, driver ≠ .panicked message := by
  unfold driverStep at stepped
  split at stepped
  case h_1 => cases stepped; exact ⟨nofun, nofun, nofun⟩
  case h_2 =>
      cases stepped
      refine ⟨nofun, ?_, nofun⟩
      rintro _ ⟨⟩
      exact failing_failed _
  case h_3 =>
      cases stepped
      cases transcode.cancel
      · exact ⟨nofun, nofun, nofun⟩
      · refine ⟨?_, nofun, nofun⟩
        rintro _ ⟨⟩
        exact failing_failed _
  case h_4 message _ =>
      cases stepped
      rcases driverPop_plain message with popped | ⟨outcome, popped, failing⟩
      · rw [popped]
        exact ⟨nofun, nofun, nofun⟩
      · rw [popped]
        refine ⟨?_, nofun, nofun⟩
        rintro _ ⟨⟩
        exact failing
  case h_5 outcome before =>
      cases stepped
      refine ⟨nofun, ?_, nofun⟩
      rintro _ ⟨⟩
      exact plain.resetting _ before
  case h_10 => cases stepped
  all_goals exact absurd rfl (calm _)

theorem Plain.step (plain : Plain transcode) (unbroken : Unbroken (objects, transcode) event)
    (effect : HlsEffect objects transcode event written after) : Plain after := by
  have coupled := plain.coupled.step effect
  cases effect with
  | drove event driver goes stepped | ended event outcome stepped =>
      have calm : ∀ message, event ≠ .panic message := by
        rintro message rfl
        cases unbroken
      obtain ⟨resetting, done, unpanicked⟩ := plain.drive calm stepped
      exact ⟨coupled, resetting, done, unpanicked, plain.living⟩
  | uploaderDied message alive => cases unbroken
  | _ => exact ⟨coupled, plain.resetting, plain.done, plain.unpanicked, plain.living⟩

/-! ## One step -/

theorem executionUpload_of_ne {event : UploadEvent} (unasked : event ≠ .abandon) :
    executionUpload stores execution event = execution.upload.bind fun upload =>
      (uploadStep stores.objects upload event).map fun answer =>
        ({ stores with objects := answer.1 }, { execution with upload := some answer.2 }) := by
  cases event with
  | abandon => exact absurd rfl unasked
  | _ => rfl

/-- A step of the upload is one of the execution's. -/
theorem Follows.upload_step {next : Upload} (follows : Follows video transcode execution)
    (event : UploadEvent) (unasked : event ≠ .abandon)
    (stepped : uploadStep stores.objects transcode.upload event = some (written, next)) :
    Reaches executionRun Anything (stores, execution)
      ({ stores with objects := written }, { execution with upload := some next }) := by
  refine .single (.upload event) trivial ?_
  simp only [executionRun, executionStep, follows.alive, if_true, executionUpload_of_ne unasked,
    follows.upload, Option.bind_some, stepped, Option.map_some]

/-- An uploader that did not panic has returned what is joined. -/
theorem returned_of_join {outcome : Except TranscoderError Unit} (living : transcode.died = none)
    (joined : uploaderJoin transcode = some outcome) :
    transcode.upload.uploader.phase = .returned outcome := by
  simp only [uploaderJoin, living] at joined
  split at joined
  · rw [‹transcode.upload.uploader.phase = _›, Option.some.inj joined]
  · cases joined
  · cases joined

/-- The answer of a transcode whose two parts are over. -/
theorem Follows.join {pipeline : Except String Unit} {outcome : Except TranscoderError Unit}
    (follows : Follows video transcode execution) (uploading : execution.phase = .uploading video)
    (ended : transcode.upload.pipeline = false)
    (returned : transcode.upload.uploader.phase = .returned outcome) :
    executionRun (stores, execution) (.join pipeline) = some (stores, { execution with
      phase := .joinPublisher video (andUploader (pipeline.mapError .transcodeFailed) outcome)
      upload := some transcode.upload.abandon }) := by
  simp only [executionRun, executionStep, follows.alive, if_true, executionJoin, uploading,
    follows.upload, ended, returned, Option.map_some]
  cases pipeline <;> rfl

theorem Follows.step (stores : Stores) (follows : Follows video transcode execution)
    (plain : Plain transcode)
    (unbroken : Unbroken (stores.objects, transcode) event)
    (effect : HlsEffect stores.objects transcode event written after) :
    ∃ reached, Reaches executionRun Anything (stores, execution)
        ({ stores with objects := written }, reached) ∧ Follows video after reached := by
  cases effect with
  | uploaded event written upload permitted stepped =>
      have unasked : event ≠ .abandon := by
        rintro rfl
        cases permitted
      exact ⟨_, follows.upload_step event unasked stepped, follows.alive, follows.phase, rfl⟩
  | drove event driver goes stepped =>
      exact ⟨execution, .refl, follows.alive, follows.phase, follows.upload⟩
  | ended event outcome stepped =>
      exact ⟨_, follows.upload_step .endPipeline (by simp) rfl, follows.alive, follows.phase, rfl⟩
  | uploaderDied message alive => cases unbroken
  | pipelinePanicked message racing dead => exact absurd dead (plain.unpanicked message)
  | uploaderFirst uploader racing joined =>
      exact ⟨execution, .refl, follows.alive, follows.phase.trans (by rw [racing]; rfl),
        follows.upload⟩
  | pipelineFirst pipeline racing done =>
      have awaited := plain.coupled.awaited (by rw [Transcode.waits, racing])
      have stop : uploadStep stores.objects transcode.upload .stop =
          some (stores.objects, { transcode.upload with stopped := true }) := by
        simp [uploadStep, awaited, plain.coupled.ended pipeline done]
      exact ⟨_, follows.upload_step .stop (by simp) stop, follows.alive,
        follows.phase.trans (by rw [racing]; rfl), rfl⟩
  | drained pipeline uploader draining joined =>
      obtain ⟨done, _⟩ := plain.coupled.draining pipeline draining
      have uploading : execution.phase = .uploading video :=
        follows.phase.trans (by rw [draining]; rfl)
      have ended := plain.coupled.ended pipeline done
      have returned := returned_of_join plain.living joined
      obtain ⟨answer, same⟩ := (plain.done pipeline done).as_port
      have answered : andUploader pipeline uploader =
          andUploader (answer.mapError .transcodeFailed) uploader := by rw [same]
      refine ⟨_, .single (.join answer) trivial (follows.join uploading ended returned),
        follows.alive, ?_, rfl⟩
      simp only [Transcode.return, executionPhase, plain.living, Option.isSome_none,
        Bool.false_eq_true, if_false, answered]
  | unwound uploader unwinding past =>
      have uploading : execution.phase = .uploading video :=
        follows.phase.trans (by rw [unwinding]; rfl)
      have returned := returned_of_join plain.living
        (plain.coupled.unwinding uploader unwinding).1
      have calm : ¬∃ message, transcode.driver = .panicked message := by
        simpa using plain.unpanicked
      obtain ⟨outcome, done⟩ := past.resolve_right calm
      have ended := plain.coupled.ended outcome done
      exact ⟨_, .single (.join (.ok ())) trivial (follows.join uploading ended returned),
        follows.alive, rfl, rfl⟩
  | dropped waits =>
      refine ⟨{ execution with phase := .cut, upload := some transcode.upload.abandon },
        .single .cut trivial ?_, follows.alive, rfl, rfl⟩
      have uploading : execution.phase = .uploading video := by
        refine follows.phase.trans ?_
        unfold Transcode.waits at waits
        split at waits <;> simp_all [executionPhase]
      simp only [executionRun, executionStep, follows.alive, if_true, executionCut, uploading,
        follows.upload, Option.map_some]

/-! ## Whole transcodes -/

/-- From the spawn of the uploader to the answer, and beyond: what the parts of a transcode
do, the execution that waits for it can do, with the same effect on storage; and where the
transcode answers, the execution goes on with that answer. -/
theorem transcode_simulated (stores : Stores) (execution : Execution) {raw : String}
    {hasAudio : Bool} {world : Objects × Transcode}
    (alive : execution.alive = true) (phase : execution.phase = .transcode video hasAudio)
    (ran : Reaches hlsStep Unbroken
      (stores.objects, .start video.storagePrefix (parseQualityTiers raw) hasAudio) world) :
    ∃ reached, Reaches executionRun Anything (stores, execution)
        ({ stores with objects := world.1 }, reached) ∧ Follows video world.2 reached := by
  have simulated : Plain world.2 ∧ ∃ reached, Reaches executionRun Anything (stores, execution)
      ({ stores with objects := world.1 }, reached) ∧ Follows video world.2 reached := by
    refine ran.preserves (fun world => Plain world.2 ∧ ∃ reached,
      Reaches executionRun Anything (stores, execution)
        ({ stores with objects := world.1 }, reached) ∧ Follows video world.2 reached) ?_ ?_
    · refine ⟨⟨.start _ _ _, nofun, nofun, nofun, rfl⟩, { execution with
        phase := .uploading video
        upload := some (.start video.storagePrefix (parseQualityTiers raw) hasAudio) }, ?_, alive,
        rfl, rfl⟩
      refine .single (.spawn (.ok raw)) trivial ?_
      simp only [executionRun, executionStep, alive, if_true, executionSpawn, phase,
        Option.map_some]
    · rintro before after event ⟨plain, reached, went, follows⟩ unbroken stepped
      have effect := hlsStep_effect stepped
      obtain ⟨next, further, followed⟩ :=
        follows.step { stores with objects := before.1 } plain unbroken effect
      exact ⟨plain.step unbroken effect, next, went.trans further, followed⟩
  exact simulated.2

private def emptyVideo : Video where
  id := ⟨.ofNat 7⟩
  shareToken := none
  title := ""
  format := .mp4
  status := .processing
  uploadKey := ""
  createdAt := 0

private def awaitingTranscode : Execution :=
  { Execution.start ⟨.ofNat 7⟩ with phase := .transcode emptyVideo true }

/-- An empty stream. -/
theorem transcode_simulated_empty : ∃ world reached,
    Reaches hlsStep Unbroken
        (.empty, .start emptyVideo.storagePrefix (parseQualityTiers "low") true) world ∧
      Reaches executionRun Anything (.initial 0, awaitingTranscode)
        ({ Stores.initial 0 with objects := world.1 }, reached) ∧
      reached.phase = .joinPublisher emptyVideo (.ok ()) := by
  have passed : ((run hlsStep Unbroken
      (.empty, .start emptyVideo.storagePrefix (parseQualityTiers "low") true)
      [.driver (.play (.ok ())), .driver .check, .driver (.pop (some .eos)), .driver .reset,
        .joinPipeline, .upload .drain, .upload (.act .none true), .upload (.act .none true),
        .finish]).map fun world => decide (world.2.phase.succeeded = some true)) =
          some true := by decide
  obtain ⟨world, ran, checked⟩ := reaches_of_check _ passed
  have returned := returned_of_succeeded (of_decide_eq_true checked)
  obtain ⟨reached, went, follows⟩ :=
    transcode_simulated (.initial 0) awaitingTranscode rfl rfl ran
  exact ⟨world, reached, ran, went, follows.phase.trans (by rw [returned]; rfl)⟩

end Benri.Service
