import Benri.Transcoder.Playable
import Benri.Transition.History

namespace Benri.Transcoder

open Benri.Data Benri.Domain Benri.Storage Benri.Transition

/-! # `transcode_to_hls`

From the spawn of the uploader on: the driver of the pipeline on its blocking thread,
the uploader, and the future that races the two.  The first to end decides which of the
other's answers is heard.
-/

/-! ## `drive_pipeline_to_eos` -/

/-- What `timed_pop` may bring from the bus. -/
inductive BusMessage where
  | eos
  | error (message debug : String)
  | other
deriving DecidableEq, Repr

/-- The driver by what it does next. -/
inductive DriverPhase where
  | starting
  | checking
  | popping
  | resetting (outcome : Except TranscoderError Unit)
  | done (outcome : Except TranscoderError Unit)
  | panicked (message : String)

inductive DriverEvent where
  | play (result : Except String Unit)
  | check
  | pop (message : Option BusMessage)
  | reset
  | panic (message : String)

def cancelledByUploader : TranscoderError := .transcodeFailed "cancelled by uploader failure"

/-- What a message makes of the loop. -/
def driverPop : Option BusMessage → DriverPhase
  | none | some .other => .checking
  | some .eos => .resetting (.ok ())
  | some (.error message debug) =>
      .resetting (.error (.transcodeFailed (message ++ " (debug: " ++ debug ++ ")")))

/-- A pipeline that cannot be set to play does not write. -/
def driverStep (cancel : Bool) : DriverPhase → DriverEvent → Option DriverPhase
  | .starting, .play (.ok ()) => some .checking
  | .starting, .play (.error error) =>
      some (.done (.error (.transcodeFailed ("set playing: " ++ error))))
  | .checking, .check => some (if cancel then .resetting (.error cancelledByUploader) else .popping)
  | .popping, .pop message => some (driverPop message)
  | .resetting outcome, .reset => some (.done outcome)
  | .starting, .panic message | .checking, .panic message | .popping, .panic message
  | .resetting _, .panic message => some (.panicked message)
  | _, _ => none

/-- Whether the pipeline may be playing; it is not stopped by a panic of its driver. -/
def DriverPhase.playing : DriverPhase → Bool
  | .checking | .popping | .resetting _ | .panicked _ => true
  | .starting | .done _ => false

/-! ## The race -/

inductive TranscodePhase where
  /-- The `select!`. -/
  | racing
  /-- The pipeline was first, and the uploader has been told to drain. -/
  | draining (pipeline : Except TranscoderError Unit)
  /-- The uploader was first, and the pipeline has been cancelled. -/
  | unwinding (uploader : Except TranscoderError Unit)
  | returned (result : Except TranscoderError Unit)
  | dropped

structure Transcode where
  upload : Upload
  driver : DriverPhase
  cancel : Bool
  /-- The message of the uploader's panic. -/
  died : Option String
  phase : TranscodePhase

inductive TranscodeEvent where
  | upload (event : UploadEvent)
  | driver (event : DriverEvent)
  | uploaderPanic (message : String)
  | joinPipeline
  | joinUploader
  | finish
  | drop

def Transcode.start (outputPrefix : String) (qualityLevels : List QualityLevel)
    (hasAudio : Bool) : Transcode where
  upload := .start outputPrefix qualityLevels hasAudio
  driver := .starting
  cancel := false
  died := none
  phase := .racing

/-- The answer of `uploader_handle`. -/
def uploaderJoin (transcode : Transcode) : Option (Except TranscoderError Unit) :=
  match transcode.died with
  | some message => some (.error (.transcodeFailed ("uploader task join: " ++ message)))
  | none =>
      match transcode.upload.uploader.phase with
      | .returned result => some result
      | .sleeping | .working _ _ => none

/-- `pipeline_result.and(uploader_result)`, once the uploader's own panic has been ruled out. -/
def andUploader (pipeline uploader : Except TranscoderError Unit) : Except TranscoderError Unit :=
  pipeline.bind fun _ => uploader

/-- The pipeline writes while it plays; a dead uploader does nothing; the uploader and the
thread of the pipeline are told to end by the transcode alone. -/
def Transcode.permits (transcode : Transcode) : UploadEvent → Bool
  | .write _ _ _ => transcode.driver.playing
  | .tick | .drain | .act _ _ => transcode.died.isNone
  | .dropDisk => true
  | .endPipeline | .stop | .abandon => false

def transcodeUpload (objects : Objects) (transcode : Transcode) (event : UploadEvent) :
    Option (Objects × Transcode) :=
  if transcode.permits event then
    (uploadStep objects transcode.upload event).map fun answer =>
      (answer.1, { transcode with upload := answer.2 })
  else none

def Transcode.waits (transcode : Transcode) : Bool :=
  match transcode.phase with
  | .racing | .draining _ | .unwinding _ => true
  | .returned _ | .dropped => false

/-- The future is over: the directory and the sender of the stop signal go with it. -/
def Transcode.return (transcode : Transcode) (phase : TranscodePhase) : Transcode :=
  { transcode with upload := transcode.upload.abandon, phase }

def transcodeToHls (objects : Objects) (transcode : Transcode) :
    TranscodeEvent → Option (Objects × Transcode)
  | .upload event => transcodeUpload objects transcode event
  | .driver event =>
      (driverStep transcode.cancel transcode.driver event).map fun driver =>
        let moved := { transcode with driver }
        match driver with
        | .done _ => (objects, { moved with upload := { moved.upload with pipeline := false } })
        | _ => (objects, moved)
  | .uploaderPanic message =>
      if uploaderJoin transcode = none then some (objects, { transcode with died := some message })
      else none
  | .joinPipeline =>
      match transcode.phase, transcode.driver with
      | .racing, .done pipeline => some (objects, { transcode with
          upload := { transcode.upload with stopped := true }, phase := .draining pipeline })
      | .racing, .panicked message => some (objects, transcode.return
          (.returned (.error (.transcodeFailed ("pipeline task join: " ++ message)))))
      | _, _ => none
  | .joinUploader =>
      match transcode.phase, uploaderJoin transcode with
      | .racing, some uploader => some (objects, { transcode with
          cancel := true, phase := .unwinding uploader })
      | _, _ => none
  | .finish =>
      match transcode.phase, transcode.driver, uploaderJoin transcode with
      | .draining pipeline, _, some uploader => some (objects, transcode.return
          (.returned (if transcode.died.isSome then uploader else andUploader pipeline uploader)))
      | .unwinding uploader, .done _, _ | .unwinding uploader, .panicked _, _ =>
          some (objects, transcode.return (.returned uploader))
      | _, _, _ => none
  | .drop => if transcode.waits then some (objects, transcode.return .dropped) else none

def hlsStep (world : Objects × Transcode) (event : TranscodeEvent) : Option (Objects × Transcode) :=
  transcodeToHls world.1 world.2 event

def hlsStart (objects : Objects) (id : VideoId) (levels : List QualityLevel) (hasAudio : Bool) :
    Objects × Transcode :=
  (objects, .start (storagePrefix id) levels hasAudio)

variable {objects reached : Objects} {upload written : Upload} {transcode after : Transcode}
  {levels : List QualityLevel} {event : TranscodeEvent}

/-! ## What a step can be -/

inductive HlsEffect (objects : Objects) (transcode : Transcode) :
    TranscodeEvent → Objects → Transcode → Prop where
  | uploaded (event : UploadEvent) (reached : Objects) (after : Upload)
      (permitted : transcode.permits event = true)
      (stepped : uploadStep objects transcode.upload event = some (reached, after)) :
      HlsEffect objects transcode (.upload event) reached { transcode with upload := after }
  | drove (event : DriverEvent) (driver : DriverPhase) (goes : ∀ outcome, driver ≠ .done outcome)
      (stepped : driverStep transcode.cancel transcode.driver event = some driver) :
      HlsEffect objects transcode (.driver event) objects { transcode with driver }
  | ended (event : DriverEvent) (outcome : Except TranscoderError Unit)
      (stepped : driverStep transcode.cancel transcode.driver event = some (.done outcome)) :
      HlsEffect objects transcode (.driver event) objects { transcode with
        driver := .done outcome, upload := { transcode.upload with pipeline := false } }
  | uploaderDied (message : String) (alive : uploaderJoin transcode = none) :
      HlsEffect objects transcode (.uploaderPanic message) objects
        { transcode with died := some message }
  | pipelineFirst (pipeline : Except TranscoderError Unit) (racing : transcode.phase = .racing)
      (done : transcode.driver = .done pipeline) :
      HlsEffect objects transcode .joinPipeline objects { transcode with
        upload := { transcode.upload with stopped := true }, phase := .draining pipeline }
  | pipelinePanicked (message : String) (racing : transcode.phase = .racing)
      (dead : transcode.driver = .panicked message) :
      HlsEffect objects transcode .joinPipeline objects (transcode.return
        (.returned (.error (.transcodeFailed ("pipeline task join: " ++ message)))))
  | uploaderFirst (uploader : Except TranscoderError Unit) (racing : transcode.phase = .racing)
      (joined : uploaderJoin transcode = some uploader) :
      HlsEffect objects transcode .joinUploader objects { transcode with
        cancel := true, phase := .unwinding uploader }
  | drained (pipeline uploader : Except TranscoderError Unit)
      (draining : transcode.phase = .draining pipeline)
      (joined : uploaderJoin transcode = some uploader) :
      HlsEffect objects transcode .finish objects (transcode.return (.returned
        (if transcode.died.isSome then uploader else andUploader pipeline uploader)))
  | unwound (uploader : Except TranscoderError Unit)
      (unwinding : transcode.phase = .unwinding uploader)
      (past : (∃ outcome, transcode.driver = .done outcome) ∨
        ∃ message, transcode.driver = .panicked message) :
      HlsEffect objects transcode .finish objects (transcode.return (.returned uploader))
  | dropped (waits : transcode.waits = true) :
      HlsEffect objects transcode .drop objects (transcode.return .dropped)

theorem hlsStep_effect
    (stepped : transcodeToHls objects transcode event = some (reached, after)) :
    HlsEffect objects transcode event reached after := by
  cases event with
  | upload event =>
      simp only [transcodeToHls, transcodeUpload] at stepped
      split at stepped
      · obtain ⟨⟨reached, upload⟩, moved, same⟩ := Option.map_eq_some_iff.mp stepped
        cases same
        exact .uploaded event _ _ ‹_› moved
      · contradiction
  | driver event =>
      obtain ⟨driver, moved, same⟩ := Option.map_eq_some_iff.mp stepped
      dsimp only at same
      split at same
      · cases same; exact .ended event _ moved
      · cases same; exact .drove event driver ‹_› moved
  | uploaderPanic message =>
      simp only [transcodeToHls] at stepped
      split at stepped
      · cases stepped; exact .uploaderDied message ‹_›
      · contradiction
  | joinPipeline =>
      simp only [transcodeToHls] at stepped
      split at stepped
      · cases stepped; exact .pipelineFirst _ ‹_› ‹_›
      · cases stepped; exact .pipelinePanicked _ ‹_› ‹_›
      · contradiction
  | joinUploader =>
      simp only [transcodeToHls] at stepped
      split at stepped
      · cases stepped; exact .uploaderFirst _ ‹_› ‹_›
      · contradiction
  | finish =>
      simp only [transcodeToHls] at stepped
      split at stepped
      · cases stepped; exact .drained _ _ ‹_› ‹_›
      · cases stepped; exact .unwound _ ‹_› (.inl ⟨_, ‹_›⟩)
      · cases stepped; exact .unwound _ ‹_› (.inr ⟨_, ‹_›⟩)
      · contradiction
  | drop =>
      simp only [transcodeToHls] at stepped
      split at stepped
      · cases stepped; exact .dropped ‹_›
      · contradiction

/-! ## What the parts know of each other -/

theorem uploaderJoin_upload (same : written.uploader = transcode.upload.uploader) :
    uploaderJoin { transcode with upload := written } = uploaderJoin transcode := by
  simp only [uploaderJoin, same]

/-- A step of the upload that the transcode permits; once the uploader is over it does
nothing, and the pipeline writes only while it may play. -/
structure Beside (transcode : Transcode) (written : Upload) (objects reached : Objects) :
    Prop where
  pipeline : written.pipeline = transcode.upload.pipeline
  awaited : written.awaited = transcode.upload.awaited
  stopped : written.stopped = transcode.upload.stopped
  joined : uploaderJoin transcode ≠ none →
    written.uploader = transcode.upload.uploader ∧ reached = objects
  silent : uploaderJoin transcode ≠ none → transcode.driver.playing = false →
    written.produced = transcode.upload.produced

theorem uploaded_beside {event : UploadEvent} (permitted : transcode.permits event = true)
    (stepped : uploadStep objects transcode.upload event = some (reached, written)) :
    Beside transcode written objects reached := by
  cases uploadStep_move stepped with
  | write =>
      refine ⟨rfl, rfl, rfl, fun _ => ⟨rfl, rfl⟩, fun _ still => ?_⟩
      rw [Transcode.permits, still] at permitted
      cases permitted
  | dropDisk => exact ⟨rfl, rfl, rfl, fun _ => ⟨rfl, rfl⟩, fun _ _ => rfl⟩
  | tick asleep | drain stopped asleep =>
      simp only [Transcode.permits, Option.isNone_iff_eq_none] at permitted
      have waiting : uploaderJoin transcode = none := by
        simp only [uploaderJoin, permitted, asleep]
      exact ⟨rfl, rfl, rfl, fun past => absurd waiting past, fun past => absurd waiting past⟩
  | act fault removed reached after acted =>
      simp only [Transcode.permits, Option.isNone_iff_eq_none] at permitted
      obtain ⟨mode, action, rest, working, outcome⟩ := actStep_performed acted
      have busy : uploaderJoin transcode = none := by simp only [uploaderJoin, permitted, working]
      rcases outcome with ⟨done, more, performed, rfl⟩ | ⟨error, _, rfl⟩
      · cases performed with
        | recorded level file _ _ fresh stored recorded =>
            exact ⟨recorded.pipeline, recorded.awaited, recorded.stopped,
              fun past => absurd busy past, fun past => absurd busy past⟩
        | queued | idle | published | mastered =>
            exact ⟨rfl, rfl, rfl, fun past => absurd busy past, fun past => absurd busy past⟩
      · exact ⟨rfl, rfl, rfl, fun past => absurd busy past, fun past => absurd busy past⟩
  | endPipeline | stop | abandon => cases permitted

/-- The final tick is made, and `Ok` answered, only on the signal. -/
def Prompted (upload : Upload) : Prop :=
  ∀ actions, upload.uploader.phase = settle .finalDrain actions → upload.stopped = true

theorem Prompted.step {before after : Upload} (prompted : Prompted before)
    (effect : UploadEffect objects before reached after) : Prompted after := by
  cases effect with
  | wrote | ended | dropped => exact prompted
  | stopped | abandoned => exact fun _ _ => rfl
  | ticked mode asleep stopped =>
      intro actions phase
      exact stopped (settle_finalDrain phase).1
  | failed mode action rest _ error working perhaps =>
      intro actions phase
      cases actions <;> cases phase
  | acted mode action rest more _ after working performed =>
      intro actions phase
      obtain ⟨rfl, _⟩ := settle_finalDrain phase
      have before := prompted (action :: rest) working
      cases performed with
      | recorded level file _ _ fresh stored recorded => exact recorded.stopped.trans before
      | queued | idle | published | mastered => exact before

structure Coupled (transcode : Transcode) : Prop where
  ended : ∀ outcome, transcode.driver = .done outcome → transcode.upload.pipeline = false
  awaited : transcode.waits = true → transcode.upload.awaited = true
  racing : transcode.phase = .racing →
    transcode.upload.stopped = false ∧ transcode.cancel = false
  draining : ∀ pipeline, transcode.phase = .draining pipeline →
    transcode.driver = .done pipeline ∧ transcode.cancel = false
  unwinding : ∀ uploader, transcode.phase = .unwinding uploader →
    uploaderJoin transcode = some uploader ∧ transcode.cancel = true ∧ uploader ≠ .ok ()
  prompted : Prompted transcode.upload

theorem Coupled.start (outputPrefix : String) (levels : List QualityLevel) (hasAudio : Bool) :
    Coupled (.start outputPrefix levels hasAudio) :=
  ⟨nofun, fun _ => rfl, fun _ => ⟨rfl, rfl⟩, nofun, nofun, fun actions phase => by
    cases actions <;> cases phase⟩

/-- A driver that is done takes no step. -/
theorem driverStep_done {cancel : Bool} {event : DriverEvent}
    {outcome : Except TranscoderError Unit} : driverStep cancel (.done outcome) event = none := by
  cases event <;> rfl

theorem Coupled.step (coupled : Coupled transcode)
    (effect : HlsEffect objects transcode event reached after) : Coupled after := by
  cases effect with
  | uploaded event reached upload permitted stepped =>
      have beside := uploaded_beside permitted stepped
      refine ⟨fun outcome done => beside.pipeline.trans (coupled.ended outcome done),
        fun waits => beside.awaited.trans (coupled.awaited waits), fun racing => ?_, coupled.draining,
        fun uploader unwinding => ?_, coupled.prompted.step (uploadStep_effect stepped)⟩
      · exact ⟨beside.stopped.trans (coupled.racing racing).1, (coupled.racing racing).2⟩
      · obtain ⟨joined, cancel⟩ := coupled.unwinding uploader unwinding
        have same := (beside.joined (by simp [joined])).1
        exact ⟨(uploaderJoin_upload same).trans joined, cancel⟩
  | drove event driver goes stepped =>
      refine ⟨fun outcome done => absurd done (goes outcome), coupled.awaited, coupled.racing,
        fun pipeline draining => ?_, coupled.unwinding, coupled.prompted⟩
      rw [(coupled.draining pipeline draining).1, driverStep_done] at stepped
      cases stepped
  | ended event outcome stepped =>
      refine ⟨fun _ _ => rfl, coupled.awaited, coupled.racing, fun pipeline draining => ?_,
        coupled.unwinding, coupled.prompted⟩
      rw [(coupled.draining pipeline draining).1, driverStep_done] at stepped
      cases stepped
  | uploaderDied message alive =>
      refine ⟨coupled.ended, coupled.awaited, coupled.racing, coupled.draining,
        fun uploader unwinding => ?_, coupled.prompted⟩
      rw [(coupled.unwinding uploader unwinding).1] at alive
      cases alive
  | pipelineFirst pipeline racing done =>
      have awaited := coupled.awaited (by rw [Transcode.waits, racing])
      refine ⟨coupled.ended, fun _ => awaited, nofun, ?_, nofun, fun _ _ => rfl⟩
      rintro _ ⟨⟩
      exact ⟨done, (coupled.racing racing).2⟩
  | uploaderFirst uploader racing joined =>
      have awaited := coupled.awaited (by rw [Transcode.waits, racing])
      refine ⟨coupled.ended, fun _ => awaited, nofun, nofun, ?_, coupled.prompted⟩
      rintro _ ⟨⟩
      refine ⟨joined, rfl, ?_⟩
      -- without the signal the uploader has ended by an error
      rintro rfl
      have early := (coupled.racing racing).1
      simp only [uploaderJoin] at joined
      split at joined
      · cases joined
      · split at joined
        · rename_i returned
          rw [Option.some.inj joined] at returned
          rw [coupled.prompted [] returned] at early
          cases early
        · cases joined
        · cases joined
  | pipelinePanicked | drained | unwound | dropped =>
      exact ⟨coupled.ended, nofun, nofun, nofun, nofun, fun _ _ => rfl⟩

/-! ## A transcode is a run of its upload -/

theorem HlsEffect.leads (coupled : Coupled transcode)
    (effect : HlsEffect objects transcode event reached after) :
    Reaches transcodeStep Anything (objects, transcode.upload) (reached, after.upload) := by
  cases effect with
  | uploaded event reached upload permitted stepped => exact .single event trivial stepped
  | ended event outcome stepped => exact .single .endPipeline trivial rfl
  | pipelineFirst pipeline racing done =>
      refine .single .stop trivial ?_
      have awaited := coupled.awaited (by rw [Transcode.waits, racing])
      simp [transcodeStep, uploadStep, awaited, coupled.ended pipeline done]
  | pipelinePanicked | drained | unwound | dropped => exact .single .abandon trivial rfl
  | drove | uploaderDied | uploaderFirst => exact .refl

structure Carried (start world : Objects × Transcode) : Prop where
  coupled : Coupled world.2
  led : Reaches transcodeStep Anything (start.1, start.2.upload) (world.1, world.2.upload)

theorem carried_of_reaches {allowed : Objects × Transcode → TranscodeEvent → Prop}
    {id : VideoId} {hasAudio : Bool} {world : Objects × Transcode}
    (ran : Reaches hlsStep allowed (hlsStart objects id levels hasAudio) world) :
    Carried (hlsStart objects id levels hasAudio) world := by
  refine ran.preserves (Carried (hlsStart objects id levels hasAudio)) ⟨.start _ _ _, .refl⟩ ?_
  intro before after event carried _ stepped
  have effect := hlsStep_effect stepped
  exact ⟨carried.coupled.step effect, carried.led.trans (effect.leads carried.coupled)⟩

end Benri.Transcoder
