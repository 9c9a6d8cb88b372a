import Benri.Transcoder.Transcode

namespace Benri.Transcoder

open Benri.Data Benri.Domain Benri.Storage Benri.Transition

/-! # What a transcode answers, and what it leaves running

`Ok` needs both parts: the end of the stream on the bus and a final drain that
succeeded.  The driver's own word about a cancelled pipeline is never heard, since only
a failed uploader cancels it and then the uploader's error is the answer.
-/

variable {objects reached : Objects} {upload written : Upload} {transcode after : Transcode}
  {levels : List QualityLevel} {event : TranscodeEvent}
  {allowed others : Objects × Transcode → TranscodeEvent → Prop}

/-! ## The texts of the errors -/

/-- Not what the driver says when it was cancelled. -/
def Genuine (outcome : Except TranscoderError Unit) : Prop :=
  outcome ≠ .error cancelledByUploader

theorem genuine_of_front {front : String} (back : String)
    (other : front.toList.head?.any fun first => decide (first ≠ 'c')) :
    Genuine (.error (.transcodeFailed (front ++ back))) := by
  intro same
  injection same with same
  injection same with same
  obtain ⟨first, head, different⟩ := (Option.any_eq_true _ _).mp other
  have heads := congrArg (fun text : String => text.toList.head?) same
  simp only [String.toList_append, List.head?_append, head, Option.some_or] at heads
  rw [Option.some.inj heads] at different
  cases different

theorem genuine_of_closed (front : String) :
    Genuine (.error (.transcodeFailed (front ++ ")"))) := by
  intro same
  injection same with same
  injection same with same
  have lasts := congrArg (fun text : String => text.toList.getLast?) same
  simp [String.toList_append] at lasts

/-- What the uploader answers, it has been told by the file system or by the storage. -/
theorem perform_genuine {fault : Fault} {removed : Bool} {action : Action}
    {error : TranscoderError}
    (failed : (perform objects upload fault removed action).next = .error error) :
    Genuine (.error error) := by
  cases action with
  | tier level mode =>
      simp only [perform, uploadTier] at failed
      split at failed
      · cases failed
      · cases fault <;> cases failed
        exact genuine_of_front _ (by decide)
  | segment level filename =>
      simp only [perform, uploadOneSegment] at failed
      split at failed
      · cases failed
      · split at failed
        · cases failed; exact genuine_of_front _ (by decide)
        · cases fault with
          | none => cases failed
          | error applied message => cases failed; exact genuine_of_front _ (by decide)
  | publish level mode =>
      simp only [perform, publishVariantPlaylistIfChanged] at failed
      split at failed
      · cases failed
      · split at failed
        · cases failed
        · cases fault with
          | none => cases failed
          | error applied message => cases failed; exact genuine_of_front _ (by decide)
  | master =>
      simp only [perform, uploadMaster] at failed
      cases fault with
      | none => cases failed
      | error applied message => cases failed; exact genuine_of_front _ (by decide)

/-- The bus has said that the stream is over. -/
def noteEos (_ : Objects × Transcode) (event : TranscodeEvent) (seen : Bool) : Bool :=
  match event with
  | .driver (.pop (some .eos)) => true
  | _ => seen

def DriverPhase.outcome : DriverPhase → Option (Except TranscoderError Unit)
  | .resetting outcome | .done outcome => some outcome
  | .starting | .checking | .popping | .panicked _ => none

/-- An outcome is kept, taken from the bus, or that of a pipeline which did not play; `Ok`
is taken from the bus only. -/
theorem driverStep_outcome {cancel : Bool} {phase next : DriverPhase} {event : DriverEvent}
    {outcome : Except TranscoderError Unit} (stepped : driverStep cancel phase event = some next)
    (reached : next.outcome = some outcome) :
    phase.outcome = some outcome ∨ (cancel = false → Genuine outcome) ∧
      (outcome = .ok () → event = .pop (some .eos)) := by
  unfold driverStep at stepped
  split at stepped
  · cases stepped; cases reached
  · cases stepped; cases reached
    exact .inr ⟨fun _ => genuine_of_front _ (by decide), nofun⟩
  · cases stepped
    cases cancel
    · cases reached
    · cases reached; exact .inr ⟨nofun, nofun⟩
  · rename_i message
    cases stepped
    right
    match message, reached with
    | some .eos, reached => cases reached; exact ⟨fun _ => nofun, fun _ => rfl⟩
    | some (.error text debug), reached =>
        cases reached; exact ⟨fun _ => genuine_of_closed _, nofun⟩
  · cases stepped; exact .inl reached
  all_goals cases stepped
  all_goals cases reached

/-- What the answers say, and that none is the driver's about its cancellation. -/
structure Heard (transcode : Transcode) (seen : Bool) : Prop where
  driver : ∀ outcome, transcode.driver.outcome = some outcome →
    (transcode.cancel = false → Genuine outcome) ∧ (outcome = .ok () → seen = true)
  uploader : ∀ result, transcode.upload.uploader.phase = .returned result → Genuine result
  returned : ∀ result, transcode.phase = .returned result →
    Genuine result ∧ (result = .ok () → seen = true)

theorem Heard.start (outputPrefix : String) (levels : List QualityLevel) (hasAudio : Bool) :
    Heard (.start outputPrefix levels hasAudio) false :=
  ⟨nofun, nofun, nofun⟩

theorem settle_returned {mode : TickMode} {actions : List Action}
    {result : Except TranscoderError Unit} (settled : settle mode actions = .returned result) :
    result = .ok () := by
  cases mode <;> cases actions <;> cases settled
  rfl

/-- The uploader's answer comes from one of its calls. -/
theorem uploaded_genuine {event : UploadEvent}
    (stepped : uploadStep objects upload event = some (reached, written))
    (before : ∀ result, upload.uploader.phase = .returned result → Genuine result)
    {result : Except TranscoderError Unit} (returned : written.uploader.phase = .returned result) :
    Genuine result := by
  cases uploadStep_move stepped with
  | write | endPipeline | stop | abandon | dropDisk => exact before result returned
  | tick asleep =>
      rw [settle_returned returned]
      exact nofun
  | drain stopped asleep =>
      rw [settle_returned returned]
      exact nofun
  | act fault removed reached after acted =>
      unfold actStep at acted
      split at acted
      · rename_i mode action rest working
        dsimp only at acted
        split at acted
        · cases acted
          rw [settle_returned returned]
          exact nofun
        · rename_i error failed
          cases acted
          cases returned
          exact perform_genuine failed
      · contradiction

theorem Heard.join {seen : Bool} (heard : Heard transcode seen)
    {outcome : Except TranscoderError Unit} (joined : uploaderJoin transcode = some outcome) :
    Genuine outcome := by
  unfold uploaderJoin at joined
  split at joined
  · cases joined; exact genuine_of_front _ (by decide)
  · split at joined
    · cases joined; exact heard.uploader _ ‹_›
    · cases joined
    · cases joined

/-- What has been seen stays seen. -/
theorem Heard.later {seen more : Bool} (heard : Heard transcode seen)
    (still : seen = true → more = true) : Heard transcode more :=
  ⟨fun outcome known =>
      ⟨(heard.driver outcome known).1, fun ok => still ((heard.driver outcome known).2 ok)⟩,
    heard.uploader,
    fun result known =>
      ⟨(heard.returned result known).1, fun ok => still ((heard.returned result known).2 ok)⟩⟩

theorem Heard.drive {seen : Bool} {event : DriverEvent} {driver : DriverPhase}
    (heard : Heard transcode seen)
    (stepped : driverStep transcode.cancel transcode.driver event = some driver)
    (outcome : Except TranscoderError Unit) (known : driver.outcome = some outcome) :
    (transcode.cancel = false → Genuine outcome) ∧
      (outcome = .ok () → noteEos (objects, transcode) (.driver event) seen = true) := by
  rcases driverStep_outcome stepped known with before | ⟨genuine, eos⟩
  · refine ⟨(heard.driver outcome before).1, fun ok => ?_⟩
    have already := (heard.driver outcome before).2 ok
    unfold noteEos
    split
    · rfl
    · exact already
  · refine ⟨genuine, fun ok => ?_⟩
    rw [eos ok]
    rfl

theorem Heard.step {seen : Bool} (heard : Heard transcode seen) (coupled : Coupled transcode)
    (effect : HlsEffect objects transcode event reached after) :
    Heard after (noteEos (objects, transcode) event seen) := by
  have driven : ∀ {event : DriverEvent} {result : Except TranscoderError Unit},
      transcode.phase = .returned result → Genuine result ∧
        (result = .ok () → noteEos (objects, transcode) (.driver event) seen = true) := by
    intro event result returned
    refine ⟨(heard.returned result returned).1, fun ok => ?_⟩
    unfold noteEos
    split
    · rfl
    · exact (heard.returned result returned).2 ok
  cases effect with
  | uploaded event reached upload permitted stepped =>
      exact ⟨heard.driver, fun result => uploaded_genuine stepped heard.uploader, heard.returned⟩
  | drove event driver goes stepped =>
      exact ⟨heard.drive stepped, heard.uploader, fun result => driven⟩
  | ended event outcome stepped => exact ⟨heard.drive stepped, heard.uploader, fun result => driven⟩
  | uploaderDied message alive => exact ⟨heard.driver, heard.uploader, heard.returned⟩
  | pipelineFirst pipeline racing done => exact ⟨heard.driver, heard.uploader, by simp⟩
  | pipelinePanicked message racing dead =>
      refine ⟨heard.driver, heard.uploader, ?_⟩
      rintro _ ⟨⟩
      exact ⟨genuine_of_front _ (by decide), by simp⟩
  | uploaderFirst uploader racing joined =>
      exact ⟨fun outcome known => ⟨by simp, (heard.driver outcome known).2⟩, heard.uploader,
        by simp⟩
  | drained pipeline uploader draining joined =>
      obtain ⟨done, cancel⟩ := coupled.draining pipeline draining
      obtain ⟨genuine, eos⟩ := heard.driver pipeline (by rw [done]; rfl)
      refine ⟨heard.driver, heard.uploader, ?_⟩
      rintro _ ⟨⟩
      have own := heard.join joined
      split
      · rename_i died
        refine ⟨own, ?_⟩
        rintro rfl
        obtain ⟨message, dead⟩ := Option.isSome_iff_exists.mp died
        simp [uploaderJoin, dead] at joined
      · cases pipeline with
        | error error => exact ⟨genuine cancel, by simp [andUploader, Except.bind]⟩
        | ok => exact ⟨own, fun _ => eos rfl⟩
  | unwound uploader unwinding past =>
      obtain ⟨joined, _, failed⟩ := coupled.unwinding uploader unwinding
      refine ⟨heard.driver, heard.uploader, ?_⟩
      rintro _ ⟨⟩
      exact ⟨heard.join joined, fun ok => absurd ok failed⟩
  | dropped waits => exact ⟨heard.driver, heard.uploader, by simp [Transcode.return]⟩

/-! ## Nothing goes on after the answer -/

/-- Both parts are over. -/
structure Settled (transcode : Transcode) : Prop where
  uploader : uploaderJoin transcode ≠ none
  driver : ∃ outcome, transcode.driver = .done outcome

/-- Only the directory may go. -/
structure Unchanged (before after : Transcode) (objects reached : Objects) : Prop where
  objects : reached = objects
  uploader : after.upload.uploader = before.upload.uploader
  produced : after.upload.produced = before.upload.produced

theorem Settled.step (settled : Settled transcode)
    (effect : HlsEffect objects transcode event reached after) :
    Settled after ∧ Unchanged transcode after objects reached := by
  obtain ⟨outcome, done⟩ := settled.driver
  have still : ∀ {event : DriverEvent} {driver : DriverPhase},
      driverStep transcode.cancel transcode.driver event ≠ some driver := by
    intro event driver stepped
    rw [done, driverStep_done] at stepped
    cases stepped
  cases effect with
  | uploaded event reached upload permitted stepped =>
      have beside := uploaded_beside permitted stepped
      obtain ⟨uploader, same⟩ := beside.joined settled.uploader
      have silent := beside.silent settled.uploader (by rw [done]; rfl)
      refine ⟨⟨?_, outcome, done⟩, same, uploader, silent⟩
      rw [uploaderJoin_upload uploader]
      exact settled.uploader
  | drove event driver goes stepped => exact absurd stepped still
  | ended event outcome stepped => exact absurd stepped still
  | uploaderDied message alive => exact absurd alive settled.uploader
  | pipelineFirst | pipelinePanicked | uploaderFirst | drained | unwound | dropped =>
      exact ⟨⟨settled.uploader, outcome, done⟩, rfl, rfl, rfl⟩

/-! ## Everything in storage -/

/-- Every segment that the pipeline wrote is in storage, and a tier that got one has its
closed playlist there, which lists them all and nothing that is not stored. -/
def Delivered (levels : List QualityLevel) (home : String) (objects : Objects) (upload : Upload) :
    Prop :=
  ∀ level ∈ levels,
    (∀ filename ∈ upload.produced.get level,
      (objects.find? ((OutputPath.tier level filename).key home)).isSome) ∧
    (upload.produced.get level ≠ [] → ∃ listed,
      StoredText objects ((OutputPath.tier level PLAYLIST_FILENAME).key home)
        (synthesizeVariantPlaylist listed true) ∧
      (∀ filename ∈ upload.produced.get level, filename ∈ listed) ∧
      ∀ filename ∈ listed,
        (objects.find? ((OutputPath.tier level filename).key home)).isSome)

/-- What the uploader has recorded is in storage. -/
theorem delivered_of_drained {home : String} (uploading : Uploading levels home objects upload)
    (awaited : upload.awaited = true) (drained : upload.uploader.phase = .returned (.ok ())) :
    Delivered levels home objects upload := by
  intro level known
  obtain ⟨uploaded, closed⟩ := uploading.drained awaited drained known
  have stored : ∀ filename ∈ upload.segments level,
      (objects.find? ((OutputPath.tier level filename).key home)).isSome := by
    rw [← uploading.location]
    exact uploading.sound.stored.segments level
  refine ⟨fun filename written => stored filename (uploaded filename written), fun some => ?_⟩
  obtain ⟨first, written⟩ := List.exists_mem_of_ne_nil _ some
  have filled : upload.segments level ≠ [] := List.ne_nil_of_mem (uploaded first written)
  exact ⟨upload.segments level, closed filled, uploaded, stored⟩

theorem Delivered.keeps {home : String}
    (delivered : Delivered levels home objects transcode.upload)
    (unchanged : Unchanged transcode after objects reached) :
    Delivered levels home reached after.upload := by
  intro level known
  rw [unchanged.produced, unchanged.objects]
  exact delivered level known

/-- Of an answered transcode nothing goes on, unless its pipeline thread panicked. -/
structure Answered (levels : List QualityLevel) (home : String) (objects : Objects)
    (transcode : Transcode) : Prop where
  settled : ∀ result, transcode.phase = .returned result →
    (∃ message, transcode.driver = .panicked message) ∨ Settled transcode
  delivered : transcode.phase = .returned (.ok ()) →
    Settled transcode ∧ Delivered levels home objects transcode.upload

theorem driverStep_panicked {cancel : Bool} {event : DriverEvent} {message : String} :
    driverStep cancel (.panicked message) event = none := by
  cases event <;> rfl

/-- Parts that are over stay over, and so does a driver that panicked. -/
theorem Answered.keeps {home : String} (answered : Answered levels home objects transcode)
    (effect : HlsEffect objects transcode event reached after)
    (same : after.phase = transcode.phase)
    (driver : ∀ message, transcode.driver = .panicked message → after.driver = .panicked message) :
    Answered levels home reached after := by
  refine ⟨fun result returned => ?_, fun returned => ?_⟩
  · rcases answered.settled result (same ▸ returned) with ⟨message, dead⟩ | settled
    · exact .inl ⟨message, driver message dead⟩
    · exact .inr (settled.step effect).1
  · obtain ⟨settled, delivered⟩ := answered.delivered (same ▸ returned)
    obtain ⟨still, unchanged⟩ := settled.step effect
    exact ⟨still, delivered.keeps unchanged⟩

theorem Answered.step {home : String} (answered : Answered levels home objects transcode)
    (coupled : Coupled transcode) (uploading : Uploading levels home objects transcode.upload)
    (effect : HlsEffect objects transcode event reached after) :
    Answered levels home reached after := by
  cases effect with
  | uploaded event reached upload permitted stepped =>
      exact answered.keeps (.uploaded event reached upload permitted stepped) rfl fun _ dead => dead
  | drove event driver goes stepped =>
      refine answered.keeps (.drove event driver goes stepped) rfl fun message dead => ?_
      rw [dead, driverStep_panicked] at stepped
      cases stepped
  | ended event outcome stepped =>
      refine answered.keeps (.ended event outcome stepped) rfl fun message dead => ?_
      rw [dead, driverStep_panicked] at stepped
      cases stepped
  | uploaderDied message alive =>
      exact answered.keeps (.uploaderDied message alive) rfl fun _ dead => dead
  | pipelineFirst | uploaderFirst | dropped =>
      exact ⟨by simp [Transcode.return], by simp [Transcode.return]⟩
  | pipelinePanicked message racing dead =>
      exact ⟨fun _ _ => .inl ⟨message, dead⟩, by simp [Transcode.return]⟩
  | drained pipeline uploader draining joined =>
      have done := (coupled.draining pipeline draining).1
      have awaited := coupled.awaited (by rw [Transcode.waits, draining])
      have settled : Settled transcode := ⟨by simp [joined], pipeline, done⟩
      have past : Settled (transcode.return (.returned
          (if transcode.died.isSome then uploader else andUploader pipeline uploader))) :=
        ⟨settled.uploader, settled.driver⟩
      refine ⟨fun _ _ => .inr past, fun returned => ⟨past, ?_⟩⟩
      have answer : (if transcode.died.isSome then uploader else andUploader pipeline uploader) =
          .ok () := TranscodePhase.returned.inj returned
      -- both parts have answered `Ok`, the uploader by its last phase
      have drained : transcode.upload.uploader.phase = .returned (.ok ()) := by
        unfold uploaderJoin at joined
        split at joined
        · rename_i died
          rw [died, ← Option.some.inj joined] at answer
          cases answer
        · rename_i died
          rw [died] at answer
          split at joined
          · rename_i result phase
            obtain rfl := Option.some.inj joined
            cases pipeline with
            | error error => cases answer
            | ok => rw [phase, show result = .ok () from answer]
          · cases joined
          · cases joined
      exact show Delivered levels home objects transcode.upload from
        delivered_of_drained uploading awaited drained
  | unwound uploader unwinding past =>
      obtain ⟨joined, _, failed⟩ := coupled.unwinding uploader unwinding
      refine ⟨fun _ _ => ?_, fun returned => absurd (TranscodePhase.returned.inj returned) failed⟩
      rcases past with ⟨outcome, done⟩ | dead
      · have answered : uploaderJoin transcode ≠ none := by simp [joined]
        exact .inr ⟨answered, outcome, done⟩
      · exact .inl dead

theorem Uploading.reaches {home : String} {world : Objects × Upload} (distinct : levels.Nodup)
    (uploading : Uploading levels home objects upload)
    (ran : Reaches transcodeStep Anything (objects, upload) world) :
    Uploading levels home world.1 world.2 := by
  refine ran.preserves (fun world => Uploading levels home world.1 world.2) uploading ?_
  intro before after event uploading _ stepped
  exact uploading.step distinct (uploadStep_effect stepped)

/-- What holds of a transcode throughout. -/
structure Transcoding (levels : List QualityLevel) (home : String) (world : Objects × Transcode)
    (seen : Bool) : Prop where
  coupled : Coupled world.2
  uploading : Uploading levels home world.1 world.2.upload
  heard : Heard world.2 seen
  answered : Answered levels home world.1 world.2

theorem transcoding_of_recalls {id : VideoId} {hasAudio : Bool} {world : Objects × Transcode}
    {seen : Bool} (distinct : levels.Nodup)
    (recalls : Recalls hlsStep allowed noteEos (hlsStart objects id levels hasAudio, false) world
      seen) : Transcoding levels (storagePrefix id) world seen := by
  refine recalls.preserves (Transcoding levels (storagePrefix id))
    ⟨.start _ _ _, .start _ _ _ _, .start _ _ _, nofun, nofun⟩ ?_
  intro before after event seen transcoding _ stepped
  have effect := hlsStep_effect stepped
  exact ⟨transcoding.coupled.step effect,
    transcoding.uploading.reaches distinct (effect.leads transcoding.coupled),
    transcoding.heard.step transcoding.coupled effect,
    transcoding.answered.step transcoding.coupled transcoding.uploading effect⟩

/-- Whether the answer is `Ok`, once there is one. -/
def TranscodePhase.succeeded : TranscodePhase → Option Bool
  | .returned (.ok ()) => some true
  | .returned (.error _) => some false
  | .racing | .draining _ | .unwinding _ | .dropped => none

theorem returned_of_succeeded {phase : TranscodePhase} (succeeded : phase.succeeded = some true) :
    phase = .returned (.ok ()) := by
  unfold TranscodePhase.succeeded at succeeded
  split at succeeded
  · rfl
  · cases succeeded
  · cases succeeded
  · cases succeeded
  · cases succeeded
  · cases succeeded

/-- The low tier alone: one segment, the end of the stream, and the drain. -/
def oneSegmentTranscode : List TranscodeEvent :=
  [.driver (.play (.ok ())), .upload (.write .low (.segment 0) ⟨0, fun _ => 0⟩), .driver .check,
    .driver (.pop (some .eos)), .driver .reset, .joinPipeline, .upload .drain] ++
    List.replicate 6 (.upload (.act .none true)) ++ [.finish]

/-- Unless the thread of its pipeline panicked, an answered transcode has left nothing
running: whatever happens afterwards, storage stays as it was when the answer was given. -/
theorem answer_ends_storing {raw : String} {id : VideoId} {hasAudio : Bool}
    {world later : Objects × Transcode} {result : Except TranscoderError Unit}
    (ran : Reaches hlsStep allowed (hlsStart objects id (parseQualityTiers raw) hasAudio) world)
    (returned : world.2.phase = .returned result)
    (alive : ∀ message, world.2.driver ≠ .panicked message)
    (went : Reaches hlsStep others world later) :
    later.1 = world.1 ∧ later.2.upload.produced = world.2.upload.produced ∧
      uploaderJoin later.2 ≠ none := by
  obtain ⟨seen, recalls⟩ := ran.recall noteEos false
  have transcoding := transcoding_of_recalls (parseQualityTiers_nodup raw) recalls
  have settled : Settled world.2 := by
    rcases transcoding.answered.settled result returned with ⟨message, dead⟩ | settled
    · exact absurd dead (alive message)
    · exact settled
  have kept : Settled later.2 ∧ later.1 = world.1 ∧
      later.2.upload.produced = world.2.upload.produced := by
    refine went.preserves (fun after => Settled after.2 ∧ after.1 = world.1 ∧
      after.2.upload.produced = world.2.upload.produced) ⟨settled, rfl, rfl⟩ ?_
    rintro before after event ⟨settled, objects, produced⟩ _ stepped
    obtain ⟨still, unchanged⟩ := settled.step (hlsStep_effect stepped)
    exact ⟨still, unchanged.objects.trans objects, unchanged.produced.trans produced⟩
  exact ⟨kept.2.1, kept.2.2, kept.1.uploader⟩

/-- The directory goes after the answer. -/
theorem answer_ends_storing_lowOnly : ∃ world later,
    Reaches hlsStep Anything (hlsStart .empty ⟨.ofNat 7⟩ (parseQualityTiers "low") true) world ∧
      world.2.phase = .returned (.ok ()) ∧ Reaches hlsStep Anything world later ∧
      later.2.upload.disk.low = none ∧ later.1 = world.1 := by
  have passed : ((run hlsStep Anything (hlsStart .empty ⟨.ofNat 7⟩ (parseQualityTiers "low") true)
      oneSegmentTranscode).bind fun world =>
        (run hlsStep Anything world [.upload .dropDisk]).map fun later =>
          decide (world.2.phase.succeeded = some true ∧ world.2.driver.playing = false ∧
            later.2.upload.disk.low.isNone)) = some true := by decide
  obtain ⟨world, first, rest⟩ := Option.bind_eq_some_iff.mp passed
  obtain ⟨later, went, checked⟩ := reaches_of_check _ rest
  obtain ⟨succeeded, still, gone⟩ := of_decide_eq_true checked
  have ran := reaches_of_run _ first
  have returned := returned_of_succeeded succeeded
  have alive : ∀ message, world.2.driver ≠ .panicked message := by
    intro message dead
    rw [dead] at still
    cases still
  exact ⟨world, later, ran, returned, went, Option.isNone_iff_eq_none.mp gone,
    (answer_ends_storing ran returned alive went).1⟩

/-! ## How a failed uploader ends the transcode -/

/-- How many steps a driver has left at most once it is cancelled. -/
def DriverPhase.weight : DriverPhase → Nat
  | .starting => 4
  | .popping => 3
  | .checking => 2
  | .resetting _ => 1
  | .done _ | .panicked _ => 0

theorem driverPop_weight (message : Option BusMessage) :
    (driverPop message).weight < DriverPhase.popping.weight := by
  unfold driverPop
  split <;> simp [DriverPhase.weight]

theorem driverStep_cancelled {phase next : DriverPhase} {event : DriverEvent}
    (stepped : driverStep true phase event = some next) : next.weight < phase.weight := by
  unfold driverStep at stepped
  split at stepped
  case h_4 message => cases stepped; exact driverPop_weight message
  all_goals cases stepped <;> simp [DriverPhase.weight]

/-- The driver can go on, or it is over. -/
theorem driverStep_progress (cancel : Bool) (phase : DriverPhase) :
    (∃ outcome, phase = .done outcome) ∨ (∃ message, phase = .panicked message) ∨
      ∃ event next, driverStep cancel phase event = some next := by
  cases phase with
  | starting => exact .inr (.inr ⟨.play (.ok ()), _, rfl⟩)
  | checking => exact .inr (.inr ⟨.check, _, rfl⟩)
  | popping => exact .inr (.inr ⟨.pop none, _, rfl⟩)
  | resetting outcome => exact .inr (.inr ⟨.reset, _, rfl⟩)
  | done outcome => exact .inl ⟨outcome, rfl⟩
  | panicked message => exact .inr (.inl ⟨message, rfl⟩)

/-- The driver's steps. -/
def countDriver (_ : Objects × Transcode) (event : TranscodeEvent) (count : Nat) : Nat :=
  match event with
  | .driver _ => count + 1
  | _ => count

/-- Told to unwind, a transcode unwinds, is dropped, or has answered the uploader's error. -/
structure Unwinds (uploader : Except TranscoderError Unit) (transcode : Transcode) : Prop where
  cancelled : transcode.cancel = true
  phase : transcode.phase = .unwinding uploader ∨ transcode.phase = .returned uploader ∨
    transcode.phase = .dropped

theorem Unwinds.step {uploader : Except TranscoderError Unit}
    (unwinds : Unwinds uploader transcode)
    (effect : HlsEffect objects transcode event reached after) : Unwinds uploader after := by
  have other : transcode.phase ≠ .racing ∧ ∀ pipeline, transcode.phase ≠ .draining pipeline := by
    rcases unwinds.phase with phase | phase | phase <;> rw [phase] <;> exact ⟨nofun, nofun⟩
  cases effect with
  | uploaded | drove | ended | uploaderDied => exact ⟨unwinds.cancelled, unwinds.phase⟩
  | pipelineFirst _ racing | pipelinePanicked _ racing | uploaderFirst _ racing =>
      exact absurd racing other.1
  | drained pipeline _ draining => exact absurd draining (other.2 pipeline)
  | unwound answer unwinding past =>
      rcases unwinds.phase with phase | phase | phase
      · obtain rfl := TranscodePhase.unwinding.inj (unwinding.symm.trans phase)
        exact ⟨unwinds.cancelled, .inr (.inl rfl)⟩
      · rw [unwinding] at phase
        cases phase
      · rw [unwinding] at phase
        cases phase
  | dropped waits => exact ⟨unwinds.cancelled, .inr (.inr rfl)⟩

theorem DriverPhase.weight_le (phase : DriverPhase) : phase.weight ≤ 4 := by
  cases phase <;> simp [DriverPhase.weight]

theorem HlsEffect.lighter (cancelled : transcode.cancel = true) (count : Nat)
    (effect : HlsEffect objects transcode event reached after) :
    countDriver (objects, transcode) event count + after.driver.weight ≤
      count + transcode.driver.weight := by
  cases effect with
  | drove event driver goes stepped | ended event outcome stepped =>
      rw [cancelled] at stepped
      have less := driverStep_cancelled stepped
      simp only [countDriver]
      omega
  | _ => exact le_rfl

/-- When the uploader ends first it has failed, and its error is what the transcode answers;
the driver takes at most four more steps, and until the answer is given the driver can go on
or the answer can be given. -/
theorem failed_uploader_unwinds {raw : String} {id : VideoId} {hasAudio : Bool}
    {world later : Objects × Transcode} {uploader : Except TranscoderError Unit} {count : Nat}
    (ran : Reaches hlsStep allowed (hlsStart objects id (parseQualityTiers raw) hasAudio) world)
    (unwinding : world.2.phase = .unwinding uploader)
    (recalls : Recalls hlsStep others countDriver (world, 0) later count) :
    uploader ≠ .ok () ∧ count ≤ 4 ∧
      (later.2.phase = .returned uploader ∨ later.2.phase = .dropped ∨
        later.2.phase = .unwinding uploader ∧
          ((∃ event after, hlsStep later (.driver event) = some after) ∨
            ∃ after, hlsStep later .finish = some after)) := by
  obtain ⟨_, cancelled, failed⟩ := (carried_of_reaches ran).coupled.unwinding uploader unwinding
  have bound := world.2.driver.weight_le
  have kept : Unwinds uploader later.2 ∧ count + later.2.driver.weight ≤ world.2.driver.weight := by
    refine recalls.preserves (fun after count => Unwinds uploader after.2 ∧
      count + after.2.driver.weight ≤ world.2.driver.weight)
      ⟨⟨cancelled, .inl unwinding⟩, by omega⟩ ?_
    rintro before after event count ⟨unwinds, left⟩ _ stepped
    have effect := hlsStep_effect stepped
    have lighter := effect.lighter unwinds.cancelled count
    exact ⟨unwinds.step effect, lighter.trans left⟩
  obtain ⟨unwinds, left⟩ := kept
  refine ⟨failed, by omega, ?_⟩
  rcases unwinds.phase with phase | phase | phase
  · refine .inr (.inr ⟨phase, ?_⟩)
    rcases driverStep_progress later.2.cancel later.2.driver with
      ⟨outcome, done⟩ | ⟨message, dead⟩ | ⟨event, next, moved⟩
    · exact .inr ⟨_, by simp only [hlsStep, transcodeToHls, phase, done]; rfl⟩
    · exact .inr ⟨_, by simp only [hlsStep, transcodeToHls, phase, dead]; rfl⟩
    · exact .inl ⟨event, _, by simp only [hlsStep, transcodeToHls, moved, Option.map_some]; rfl⟩
  · exact .inl phase
  · exact .inr (.inl phase)

def TranscodePhase.unwound : TranscodePhase → Option (Except TranscoderError Unit)
  | .unwinding uploader => some uploader
  | .racing | .draining _ | .returned _ | .dropped => none

theorem unwinding_of_unwound {phase : TranscodePhase} {uploader : Except TranscoderError Unit}
    (unwound : phase.unwound = some uploader) : phase = .unwinding uploader := by
  unfold TranscodePhase.unwound at unwound
  split at unwound
  · rw [Option.some.inj unwound]
  all_goals cases unwound

/-- The first segment cannot be stored; the driver notices at its next look. -/
theorem failed_uploader_unwinds_segment : ∃ world later uploader,
    Reaches hlsStep Anything (hlsStart .empty ⟨.ofNat 7⟩ (parseQualityTiers "low") true) world ∧
      world.2.phase = .unwinding uploader ∧
      Recalls hlsStep Anything countDriver (world, 0) later 3 ∧ uploader ≠ .ok () ∧ 3 ≤ 4 := by
  have passed : ((run hlsStep Anything (hlsStart .empty ⟨.ofNat 7⟩ (parseQualityTiers "low") true)
      [.driver (.play (.ok ())), .driver .check,
        .upload (.write .low (.segment 0) ⟨0, fun _ => 0⟩),
        .upload (.write .low (.segment 1) ⟨0, fun _ => 0⟩), .upload .tick,
        .upload (.act .none true), .upload (.act (.error false "") true),
        .joinUploader]).bind fun world =>
          (run (recalling hlsStep countDriver) (permitting Anything) (world, 0)
            [.driver (.pop none), .driver .check, .driver .reset, .finish]).map fun after =>
              decide (world.2.phase.unwound.isSome ∧ after.2 = 3)) = some true := by decide
  obtain ⟨world, first, rest⟩ := Option.bind_eq_some_iff.mp passed
  obtain ⟨⟨later, count⟩, recalls, checked⟩ := reaches_of_check _ rest
  obtain ⟨unwound, counted⟩ := of_decide_eq_true checked
  obtain ⟨uploader, found⟩ := Option.isSome_iff_exists.mp unwound
  obtain rfl : count = 3 := counted
  have ran := reaches_of_run _ first
  have unwinding := unwinding_of_unwound found
  obtain ⟨failed, bound, _⟩ := failed_uploader_unwinds ran unwinding recalls
  exact ⟨world, later, uploader, ran, unwinding, recalls, failed, bound⟩

end Benri.Transcoder
