import Benri.Transcoder.Segments

namespace Benri.Transcoder

open Benri.Data Benri.Domain Benri.Storage Benri.Transition

/-! # Complete uploads

While its transcode is waited for, the uploader stores each segment once, in the
order of the numbers, and none that the pipeline may still write to.  A transcode
that is cancelled drops the sender of the stop signal, which the uploader takes for
the signal itself.  If the pipeline has ended by then this makes no difference: the
run is one in which the signal was sent.
-/

variable {levels : List QualityLevel} {home : String} {objects reached : Objects}
  {upload after : Upload}

/-! ## While the transcode is waited for -/

/-- The pipeline keeps to its sequence, and nobody cancels. -/
def Patient (world : Objects × Upload) : UploadEvent → Prop
  | .abandon => False
  | event => InSequence world event

structure Delivering (levels : List QualityLevel) (home : String) (initial objects : Objects)
    (upload : Upload) : Prop where
  publishing : Publishing levels home initial objects upload
  sequenced : Sequenced upload
  inOrder : InOrder upload
  awaited : upload.awaited = true

theorem uploadStep_awaited {event : UploadEvent}
    (stepped : uploadStep objects upload event = some (reached, after)) :
    event = .abandon ∨ after.awaited = upload.awaited := by
  cases uploadStep_move stepped with
  | abandon => exact .inl rfl
  | write | endPipeline | stop | dropDisk | tick | drain => exact .inr rfl
  | act fault removed reached after acted =>
      obtain ⟨mode, action, rest, working, ⟨done, more, performed, rfl⟩ | ⟨error, _, rfl⟩⟩ :=
        actStep_performed acted
      · cases performed with
        | recorded level file _ _ fresh stored recorded => exact .inr recorded.awaited
        | queued | idle | published | mastered => exact .inr rfl
      · exact .inr rfl

/-- The uploader's next call hands this segment to storage. -/
def Sends (upload : Upload) (level : QualityLevel) (filename : String) : Prop :=
  (∃ rest, upload.todo = .segment level filename :: rest) ∧ filename ∉ upload.segments level

/-- The pipeline is running, and this is the segment it is at work on. -/
def MayWrite (upload : Upload) (level : QualityLevel) (filename : String) : Prop :=
  upload.pipeline = true ∧ (upload.produced.get level).getLast? = some filename

/-- Sent once, or the run gave up over it. -/
def Spent (upload : Upload) (level : QualityLevel) (filename : String) : Prop :=
  filename ∈ upload.segments level ∨ ∃ error, upload.uploader.phase = .returned (.error error)

section Sends

variable {level : QualityLevel} {filename : String}

theorem Spent.step (spent : Spent upload level filename)
    (effect : UploadEffect objects upload reached after) : Spent after level filename := by
  rcases spent with sent | ⟨error, gaveUp⟩
  · exact .inl ((effect.segments_grow level).subset sent)
  · refine .inr ⟨error, ?_⟩
    cases effect with
    | wrote | ended | stopped | abandoned | dropped => exact gaveUp
    | ticked mode asleep timely =>
        rw [gaveUp] at asleep
        cases asleep
    | acted mode action rest more _ after working performed =>
        rw [gaveUp] at working
        cases working
    | failed mode action rest _ error working perhaps =>
        rw [gaveUp] at working
        cases working

theorem Spent.silent (spent : Spent upload level filename) : ¬ Sends upload level filename := by
  rintro ⟨⟨rest, todo⟩, fresh⟩
  rcases spent with sent | ⟨error, gaveUp⟩
  · exact fresh sent
  · rw [Upload.todo, gaveUp] at todo
    cases todo

theorem Sends.spent (sends : Sends upload level filename) {fault : Fault} {removed : Bool}
    (stepped : actStep objects upload fault removed = some (reached, after)) :
    Spent after level filename := by
  obtain ⟨⟨others, todo⟩, fresh⟩ := sends
  obtain ⟨mode, action, rest, working, ⟨done, more, performed, rfl⟩ | ⟨error, _, rfl⟩⟩ :=
    actStep_performed stepped
  · rw [todo_of_working working] at todo
    cases todo
    cases performed with
    | idle _ idle => exact absurd idle fresh
    | recorded _ file _ _ fresh stored recorded => exact .inl recorded.listed
  · exact .inr ⟨error, rfl⟩

/-- A segment that is listed is skipped. -/
theorem actStep_skips {fault : Fault} {removed : Bool} {rest : List Action}
    (todo : upload.todo = .segment level filename :: rest)
    (listed : filename ∈ upload.segments level)
    (stepped : actStep objects upload fault removed = some (reached, after)) :
    reached = objects := by
  obtain ⟨mode, action, others, working, _⟩ := actStep_performed stepped
  rw [todo_of_working working] at todo
  cases todo
  rw [actStep, working] at stepped
  dsimp only [perform] at stepped
  rw [uploadOneSegment, if_pos (show filename ∈ upload.uploader.state.uploadedSegments.get level
    from listed)] at stepped
  cases stepped
  rfl

/-- Only sending a segment stores one. -/
theorem sends_of_stored {event : UploadEvent} (other : filename ≠ PLAYLIST_FILENAME)
    (stepped : uploadStep objects upload event = some (reached, after))
    (changed : reached.find? (upload.key (.tier level filename)) ≠
      objects.find? (upload.key (.tier level filename))) : Sends upload level filename := by
  rcases uploadStep_objects stepped with rfl | ⟨fault, removed, rfl⟩
  · exact absurd rfl changed
  have turn : ∀ {mode action rest object},
      upload.uploader.phase = .working mode (action :: rest) → Writes upload action object →
      reached = objects.put object → ∃ rest, upload.todo = .segment level filename :: rest := by
    rintro mode action rest object working writes rfl
    rw [Table.find?_put] at changed
    split at changed
    · rename_i same
      cases writes with
      | segment known file stored =>
          obtain ⟨rfl, rfl⟩ := OutputPath.tier.inj (OutputPath.key_inj.mp same)
          exact ⟨rest, todo_of_working working⟩
      | playlist known mode some =>
          exact absurd (OutputPath.tier.inj (OutputPath.key_inj.mp same)).2.symm other
      | master => cases OutputPath.key_inj.mp same
    · exact absurd rfl changed
  have head : ∃ rest, upload.todo = .segment level filename :: rest := by
    obtain ⟨mode, action, rest, working, ⟨done, more, performed, rfl⟩ | ⟨error, perhaps, rfl⟩⟩ :=
      actStep_performed stepped
    · cases performed with
      | queued | idle => exact absurd rfl changed
      | recorded known file _ _ fresh stored recorded =>
          exact turn working (.segment known file stored) rfl
      | published known mode some => exact turn working (.playlist known mode some) rfl
      | mastered => exact turn working .master rfl
    · rcases perhaps with rfl | ⟨object, writes, stored⟩
      · exact absurd rfl changed
      · exact turn working writes stored
  refine ⟨head, fun listed => changed ?_⟩
  obtain ⟨rest, todo⟩ := head
  rw [actStep_skips todo listed stepped]

/-- While the transcode is waited for, nothing is sent too early. -/
theorem Delivering.settled {initial : Objects}
    (delivering : Delivering levels home initial objects upload)
    (sends : Sends upload level filename) : ¬ MayWrite upload level filename := by
  rintro ⟨running, newest⟩
  obtain ⟨⟨rest, todo⟩, fresh⟩ := sends
  have waits : filename ∈ unsent (upload.segments level) level upload.todo := by
    rw [todo]
    simp [unsent, queuedSegments, fresh]
  have settled := (delivering.inOrder level).subset (List.mem_append_right _ waits)
  rw [Upload.settled, running, if_pos rfl] at settled
  have whole := List.dropLast_append_getLast? filename newest
  have ascending := delivering.sequenced.ascending level
  rw [← whole] at ascending
  exact lt_irrefl _ ((List.pairwise_append.mp ascending).2.2 filename settled filename
    (List.mem_singleton_self _))

/-- After a successful drain a tier has stored all its segments, in order. -/
theorem Delivering.complete {initial : Objects}
    (delivering : Delivering levels home initial objects upload)
    (returned : upload.uploader.phase = .returned (.ok ())) (known : level ∈ levels) :
    ∃ count, upload.produced.get level = segmentNames count ∧
      upload.segments level = segmentNames count ∧
      (0 < count → ∃ playlist,
        StoredText objects ((OutputPath.tier level PLAYLIST_FILENAME).key home) playlist ∧
        closed playlist ∧ uris playlist = segmentNames count) := by
  have uploading := delivering.publishing.uploading
  obtain ⟨uploaded, stored⟩ := uploading.drained delivering.awaited returned known
  obtain ⟨count, _, produced⟩ := delivering.sequenced.produced level
  have distinct : (upload.produced.get level).Nodup :=
    (delivering.sequenced.ascending level).imp ne_of_lt
  have all : upload.segments level = upload.produced.get level := by
    refine List.IsPrefix.eq_of_length_le
      ((delivering.inOrder.stored level).trans (settled_produced upload level)) ?_
    exact (List.subperm_of_subset distinct uploaded).length_le
  refine ⟨count, produced, all.trans produced, fun some => ?_⟩
  have filled : upload.segments level ≠ [] := by
    rw [all, produced]
    exact List.ne_nil_of_mem (mem_segmentNames.mpr ⟨0, some, rfl⟩)
  have plain : ∀ filename ∈ upload.segments level, PlainName filename :=
    delivering.publishing.plain List.prefix_rfl
  refine ⟨_, stored filled, closed_variantPlaylist plain, ?_⟩
  rw [uris_variantPlaylist true plain, all, produced]

end Sends

/-! ## A cancellation in time -/

/-- The same upload, had nobody cancelled it. -/
def Upload.waited (upload : Upload) : Upload := { upload with awaited := true }

def Outcome.waited (outcome : Outcome) : Outcome := { outcome with upload := outcome.upload.waited }

theorem recordSegment_waited (upload : Upload) (level : QualityLevel) (filename : String) :
    recordSegment upload.waited level filename =
      ((recordSegment upload level filename).1.waited, (recordSegment upload level filename).2) := by
  unfold Upload.waited recordSegment
  dsimp only
  by_cases first : level = .low ∧ upload.uploader.state.firstLowSegmentUploaded = false
  · rw [if_pos first, if_pos first]
    rfl
  · rw [if_neg first, if_neg first]
    rfl

theorem uploadOneSegment_waited (upload : Upload) (fault : Fault) (removed : Bool)
    (level : QualityLevel) (filename : String) :
    uploadOneSegment objects upload.waited fault removed level filename =
      (uploadOneSegment objects upload fault removed level filename).waited := by
  unfold Upload.waited uploadOneSegment
  dsimp only
  by_cases known : filename ∈ upload.uploader.state.uploadedSegments.get level
  · rw [if_pos known, if_pos known]
    rfl
  · rw [if_neg known, if_neg known]
    cases ((upload.disk.get level).getD []).find? fun file => decide (file.name = filename) with
    | none => rfl
    | some file =>
        cases fault with
        | error applied message => rfl
        | none =>
            have kept : (if removed then removeFile upload.waited level filename
                else upload.waited) =
                (if removed then removeFile upload level filename else upload).waited := by
              cases removed <;> rfl
            have recorded := recordSegment_waited
              (if removed then removeFile upload level filename else upload) level filename
            rw [← kept] at recorded
            exact congrArg (fun kept : Upload × List Action => Outcome.mk
              (uploadBytes objects (tierObjectKey upload.uploader.outputPrefix level filename)
                (.bytes file.content) TS_CONTENT_TYPE) kept.1 (.ok kept.2)) recorded

theorem publish_waited (upload : Upload) (fault : Fault) (level : QualityLevel)
    (mode : TickMode) :
    publishVariantPlaylistIfChanged objects upload.waited fault level mode =
      (publishVariantPlaylistIfChanged objects upload fault level mode).waited := by
  unfold Upload.waited publishVariantPlaylistIfChanged
  dsimp only
  by_cases empty : upload.uploader.state.uploadedSegments.get level = []
  · rw [if_pos empty, if_pos empty]
    rfl
  · rw [if_neg empty, if_neg empty]
    by_cases unchanged : upload.uploader.state.lastPublishedPlaylist.get level =
        some (synthesizeVariantPlaylist (upload.uploader.state.uploadedSegments.get level)
          (decide (mode = .finalDrain)))
    · rw [if_pos unchanged, if_pos unchanged]
      rfl
    · rw [if_neg unchanged, if_neg unchanged]
      cases fault <;> rfl

/-- No action asks who waits. -/
theorem perform_waited (upload : Upload) (fault : Fault) (removed : Bool) (action : Action) :
    perform objects upload.waited fault removed action =
      (perform objects upload fault removed action).waited := by
  cases action with
  | segment level filename => exact uploadOneSegment_waited upload fault removed level filename
  | publish level mode => exact publish_waited upload fault level mode
  | tier level mode =>
      dsimp only [perform, uploadTier, Upload.waited]
      cases upload.disk.get level with
      | none => rfl
      | some files => cases fault <;> rfl
  | master =>
      dsimp only [perform]
      unfold uploadMaster
      rw [fireNotifierOnce_eq, fireNotifierOnce_eq]
      cases fault <;> rfl

theorem writeStep_waited (upload : Upload) (level : QualityLevel) (file : PipelineFile)
    (content : Content) : writeStep upload.waited level file content =
      (writeStep upload level file content).map Upload.waited := by
  unfold Upload.waited writeStep
  dsimp only
  cases upload.disk.get level with
  | none => rfl
  | some files =>
      cases file with
      | playlist => rfl
      | segment index =>
          dsimp only
          by_cases known : segmentName index ∈ upload.produced.get level
          · rw [if_pos known, if_pos known]
            by_cases there : segmentName index ∈ files.map File.name
            · rw [if_pos there, if_pos there]
              rfl
            · rw [if_neg there, if_neg there]
              rfl
          · rw [if_neg known, if_neg known]
            rfl

theorem tickStep_waited (upload : Upload) (mode : TickMode) :
    tickStep upload.waited mode = (tickStep upload mode).map Upload.waited := by
  unfold Upload.waited tickStep
  dsimp only
  cases upload.uploader.phase <;> rfl

theorem actStep_waited (upload : Upload) (fault : Fault) (removed : Bool) :
    actStep objects upload.waited fault removed =
      (actStep objects upload fault removed).map fun world => (world.1, world.2.waited) := by
  unfold actStep
  rw [show upload.waited.uploader = upload.uploader from rfl]
  cases upload.uploader.phase with
  | sleeping => rfl
  | returned result => rfl
  | working mode todo =>
      cases todo with
      | nil => rfl
      | cons action rest =>
          dsimp only
          rw [perform_waited]
          cases next : (perform objects upload fault removed action).next <;>
            simp only [Outcome.waited, next] <;> rfl

/-- The cancellation waits for the pipeline, and the temp dir for the uploader. -/
def Timely (world : Objects × Upload) : UploadEvent → Prop
  | .abandon => world.2.pipeline = false
  | .dropDisk => ∃ result, world.2.uploader.phase = .returned result
  | _ => True

/-- The pipeline keeps to its sequence, and no cancellation cuts the upload short. -/
def Steady (world : Objects × Upload) (event : UploadEvent) : Prop :=
  InSequence world event ∧ Timely world event

/-- A run that was cancelled in time, and the one in which it was not. -/
structure Mirrors (cut patient : Objects × Upload) : Prop where
  objects : patient.1 = cut.1
  upload : ∃ disk, patient.2 = { cut.2.waited with disk } ∧
    (disk = cut.2.disk ∨
      cut.2.awaited = false ∧ ∃ result, cut.2.uploader.phase = .returned result)
  ended : cut.2.awaited = false → cut.2.pipeline = false

/-- A step of the pipeline's or the uploader's own. -/
def UploadEvent.isWork : UploadEvent → Bool
  | .write _ _ _ | .tick | .drain | .act _ _ => true
  | .endPipeline | .stop | .abandon | .dropDisk => false

theorem uploadStep_waited (objects : Objects) (upload : Upload) {event : UploadEvent}
    (work : event.isWork = true) :
    uploadStep objects upload.waited event =
      (uploadStep objects upload event).map fun world => (world.1, world.2.waited) := by
  have pipeline : upload.waited.pipeline = upload.pipeline := rfl
  have stopped : upload.waited.stopped = upload.stopped := rfl
  cases event with
  | write level file content =>
      simp only [uploadStep, pipeline, writeStep_waited]
      split
      · rw [Option.map_map, Option.map_map]
        rfl
      · rfl
  | tick =>
      simp only [uploadStep, tickStep_waited]
      rw [Option.map_map, Option.map_map]
      rfl
  | drain =>
      simp only [uploadStep, stopped, tickStep_waited]
      split
      · rw [Option.map_map, Option.map_map]
        rfl
      · rfl
  | act fault removed => exact actStep_waited upload fault removed
  | endPipeline | stop | abandon | dropDisk => cases work

/-- Nothing is left to do once the pipeline has ended and the uploader returned. -/
theorem uploadStep_over (objects : Objects) {event : UploadEvent} (work : event.isWork = true)
    (ended : upload.pipeline = false) {result : Except TranscoderError Unit}
    (returned : upload.uploader.phase = .returned result) :
    uploadStep objects upload event = none := by
  cases event with
  | write level file content => simp [uploadStep, ended]
  | tick => simp [uploadStep, tickStep, returned]
  | drain => simp [uploadStep, tickStep, returned]
  | act fault removed => simp [uploadStep, actStep, returned]
  | endPipeline | stop | abandon | dropDisk => cases work

/-- A run that is cancelled in time goes on as if only the stop signal had been sent. -/
theorem Mirrors.step {cut next patient : Objects × Upload} {event : UploadEvent}
    (mirrors : Mirrors cut patient) (permitted : Steady cut event)
    (stepped : transcodeStep cut event = some next) :
    ∃ after, Reaches transcodeStep Patient patient after ∧ Mirrors next after := by
  obtain ⟨objects, upload⟩ := cut
  obtain ⟨reached, after⟩ := next
  obtain ⟨stored, waiting⟩ := patient
  obtain ⟨sameObjects, ⟨disk, sameUpload, same⟩, ended⟩ := mirrors
  dsimp only at sameObjects sameUpload same ended
  subst sameObjects sameUpload
  have drains : after.awaited = false → after.pipeline = false := by
    intro lost
    have before : upload.pipeline = false := by
      rcases uploadStep_awaited stepped with rfl | kept
      · exact permitted.2
      · exact ended (kept ▸ lost)
    refine Bool.eq_false_iff.mpr fun running => ?_
    have was := (uploadStep_effect stepped).pipeline running
    rw [before] at was
    cases was
  by_cases work : event.isWork = true
  · rcases same with rfl | ⟨lost, result, returned⟩
    · have moved := uploadStep_waited stored upload work
      rw [show uploadStep stored upload event = some (reached, after) from stepped] at moved
      refine ⟨(reached, after.waited), .single event ?_ moved, rfl, ⟨_, rfl, .inl rfl⟩, drains⟩
      cases event with
      | write level file content => exact permitted.1
      | tick | drain | act => trivial
      | endPipeline | stop | abandon | dropDisk => cases work
    · have idle := uploadStep_over stored work (ended lost) returned
      rw [show uploadStep stored upload event = some (reached, after) from stepped] at idle
      cases idle
  · cases uploadStep_move stepped with
    | write | tick | drain | act => exact absurd rfl work
    | endPipeline => exact ⟨_, .single .endPipeline trivial rfl, rfl, ⟨disk, rfl, same⟩, drains⟩
    | abandon =>
        refine ⟨_, .single .stop trivial (if_pos ⟨rfl, permitted.2⟩), rfl, ⟨disk, rfl, ?_⟩, drains⟩
        exact same.imp_right fun lost => ⟨rfl, lost.2⟩
    | stop awaited ended =>
        exact ⟨_, .single .stop trivial (if_pos ⟨rfl, ended⟩), rfl, ⟨disk, rfl, same⟩, drains⟩
    | dropDisk lost =>
        exact ⟨_, .refl, rfl, ⟨disk, rfl, .inr ⟨lost, permitted.2⟩⟩, drains⟩

instance (world : Objects × Upload) (event : UploadEvent) : Decidable (InSequence world event) :=
  match event with
  | .write _ (.segment _) _ => inferInstanceAs (Decidable (_ ∧ _))
  | .write _ .playlist _ | .endPipeline | .stop | .abandon | .dropDisk | .tick | .drain
  | .act _ _ => inferInstanceAs (Decidable True)

instance (world : Objects × Upload) (event : UploadEvent) : Decidable (Timely world event) :=
  match event with
  | .abandon => inferInstanceAs (Decidable (world.2.pipeline = false))
  | .dropDisk =>
      match phase : world.2.uploader.phase with
      | .returned result => isTrue ⟨result, phase⟩
      | .sleeping | .working _ _ => isFalse fun ⟨_, same⟩ => by rw [phase] at same; cases same
  | .write _ _ _ | .endPipeline | .stop | .tick | .drain | .act _ _ =>
      inferInstanceAs (Decidable True)

instance (world : Objects × Upload) (event : UploadEvent) : Decidable (Steady world event) :=
  inferInstanceAs (Decidable (_ ∧ _))

end Benri.Transcoder
