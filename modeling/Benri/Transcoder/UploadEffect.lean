import Benri.Transcoder.HlsUploader

namespace Benri.Transcoder

open Benri.Data Benri.Domain Benri.Storage Benri.Transition

/-! # What an uploader step can do

An action writes at most one object, which the uploader's state determines, and
`Performed` lists the ways it can end.  The invariants of the uploader are case
analyses of these two.
-/

theorem tierObjectKey_eq (outputPrefix : String) (level : QualityLevel) (filename : String) :
    tierObjectKey outputPrefix level filename =
      (OutputPath.tier level filename).key outputPrefix := by
  simp only [tierObjectKey, OutputPath.key, OutputPath.text, String.append_assoc]

namespace Upload

variable (upload : Upload)

def segments (level : QualityLevel) : List String :=
  upload.uploader.state.uploadedSegments.get level

def published (level : QualityLevel) : Option String :=
  upload.uploader.state.lastPublishedPlaylist.get level

def files (level : QualityLevel) : List File := (upload.disk.get level).getD []

def todo : List Action :=
  match upload.uploader.phase with
  | .working _ actions => actions
  | .sleeping | .returned _ => []

def key (path : OutputPath) : String := path.key upload.uploader.outputPrefix

def segmentObject (level : QualityLevel) (file : File) : Object :=
  ⟨upload.key (.tier level file.name), TS_CONTENT_TYPE, .bytes file.content⟩

def playlistObject (level : QualityLevel) (mode : TickMode) : Object :=
  ⟨upload.key (.tier level PLAYLIST_FILENAME), HLS_CONTENT_TYPE,
    .text (synthesizeVariantPlaylist (upload.segments level) (decide (mode = .finalDrain)))⟩

def masterObject : Object :=
  ⟨upload.key .master, HLS_CONTENT_TYPE,
    .text (generateMasterPlaylist upload.uploader.qualityLevels upload.uploader.hasAudio)⟩

end Upload

/-- The object an action is about to store. -/
inductive Writes (upload : Upload) : Action → Object → Prop where
  | segment (level : QualityLevel) (file : File) (stored : file ∈ upload.files level) :
      Writes upload (.segment level file.name) (upload.segmentObject level file)
  | playlist (level : QualityLevel) (mode : TickMode) (some : upload.segments level ≠ []) :
      Writes upload (.publish level mode) (upload.playlistObject level mode)
  | master : Writes upload .master upload.masterObject

/-- When an action has nothing to do. -/
def Idle (upload : Upload) : Action → Prop
  | .tier level _ => upload.disk.get level = none
  | .segment level filename => filename ∈ upload.segments level
  | .publish level mode => upload.segments level = [] ∨
      upload.published level = some (synthesizeVariantPlaylist (upload.segments level)
        (decide (mode = .finalDrain)))
  | .master => False

/-! ## The bookkeeping of a stored segment -/

/-- What storing a segment changes, and what it leaves alone. -/
structure Recorded (before after : Upload) (level : QualityLevel) (filename : String)
    (more : List Action) : Prop where
  outputPrefix : after.uploader.outputPrefix = before.uploader.outputPrefix
  qualityLevels : after.uploader.qualityLevels = before.uploader.qualityLevels
  hasAudio : after.uploader.hasAudio = before.uploader.hasAudio
  notifier : after.uploader.notifier = before.uploader.notifier
  phase : after.uploader.phase = before.uploader.phase
  segments : ∀ wanted, after.segments wanted =
    if level = wanted then before.segments wanted ++ [filename] else before.segments wanted
  published : ∀ wanted, after.published wanted = before.published wanted
  first : after.uploader.state.firstLowSegmentUploaded =
    (before.uploader.state.firstLowSegmentUploaded || decide (level = .low))
  masterUploaded : after.uploader.state.masterUploaded = before.uploader.state.masterUploaded
  more : more = if level = .low ∧ before.uploader.state.firstLowSegmentUploaded = false ∧
    before.uploader.state.masterUploaded = false then [.publish .low .running, .master] else []
  files : ∀ wanted, (after.files wanted).Sublist (before.files wanted)
  remaining : ∀ wanted, ∀ file ∈ before.files wanted,
    file ∈ after.files wanted ∨ wanted = level ∧ file.name = filename
  directories : ∀ wanted, (after.disk.get wanted).isSome = (before.disk.get wanted).isSome
  pipeline : after.pipeline = before.pipeline
  awaited : after.awaited = before.awaited
  stopped : after.stopped = before.stopped
  signals : after.signals = before.signals
  produced : after.produced = before.produced

theorem files_removeFile (upload : Upload) (level wanted : QualityLevel) (filename : String) :
    (removeFile upload level filename).files wanted =
      if level = wanted then without (upload.files wanted) filename else upload.files wanted := by
  simp only [removeFile, Upload.files, PerTier.get_set]
  by_cases same : level = wanted
  · subst same
    cases upload.disk.get level <;> simp [without]
  · simp [same]

theorem recordSegment_recorded (upload : Upload) (level : QualityLevel) (filename : String)
    (removed : Bool) :
    Recorded upload
      (recordSegment (if removed then removeFile upload level filename else upload) level filename).1
      level filename
      (recordSegment (if removed then removeFile upload level filename else upload)
        level filename).2 := by
  have kept : ∃ after, (if removed then removeFile upload level filename else upload) = after ∧
      after = { upload with disk := after.disk } ∧
      (∀ wanted, (after.files wanted).Sublist (upload.files wanted)) ∧
      (∀ wanted, ∀ file ∈ upload.files wanted,
        file ∈ after.files wanted ∨ wanted = level ∧ file.name = filename) ∧
      ∀ wanted, (after.disk.get wanted).isSome = (upload.disk.get wanted).isSome := by
    cases removed with
    | false => exact ⟨_, rfl, rfl, fun _ => List.Sublist.refl _, fun _ _ member => .inl member,
        fun _ => rfl⟩
    | true =>
        refine ⟨_, rfl, rfl, ?_, ?_, ?_⟩
        · intro wanted
          simp only [if_true, files_removeFile, without]
          split
          · exact List.filter_sublist
          · exact List.Sublist.refl _
        · intro wanted file member
          simp only [if_true, files_removeFile, without]
          split
          · rename_i same
            by_cases named : file.name = filename
            · exact .inr ⟨same.symm, named⟩
            · exact .inl (List.mem_filter.mpr ⟨member, by simp [named]⟩)
          · exact .inl member
        · intro wanted
          by_cases same : level = wanted
          · simp [removeFile, same]
          · simp [removeFile, same]
  obtain ⟨after, same, shape, fewer, remaining, directories⟩ := kept
  rw [same]
  generalize after.disk = disk at shape
  subst shape
  unfold recordSegment
  dsimp only
  by_cases first : level = .low ∧ upload.uploader.state.firstLowSegmentUploaded = false
  · obtain ⟨low, unset⟩ := first
    subst low
    simp only [unset, and_self, if_true]
    constructor <;> try first | rfl | assumption | exact fun _ => rfl
    case segments =>
      intro wanted
      simp only [Upload.segments, Upload.withState, PerTier.get_set]
      split <;> simp_all
    case first => simp [Upload.withState]
    case more =>
      cases upload.uploader.state.masterUploaded <;>
        simp [publishMasterAndNotify, unset]
  · rw [if_neg first]
    constructor <;> try first | rfl | assumption | exact fun _ => rfl
    case segments =>
      intro wanted
      simp only [Upload.segments, Upload.withState, PerTier.get_set]
      split <;> simp_all
    case first =>
      rw [not_and, Bool.not_eq_false] at first
      by_cases low : level = .low
      · simp [Upload.withState, low, first low]
      · simp [Upload.withState, low]
    case more => rw [if_neg fun all => first ⟨all.1, all.2.1⟩]

section Recorded

variable {before after : Upload} {level : QualityLevel} {filename : String} {more : List Action}

theorem Recorded.key (recorded : Recorded before after level filename more) :
    after.key = before.key :=
  funext fun path => by rw [Upload.key, Upload.key, recorded.outputPrefix]

theorem Recorded.masterObject (recorded : Recorded before after level filename more) :
    after.masterObject = before.masterObject := by
  rw [Upload.masterObject, Upload.masterObject, recorded.key, recorded.qualityLevels,
    recorded.hasAudio]

theorem Recorded.todo (recorded : Recorded before after level filename more) :
    after.todo = before.todo := by
  rw [Upload.todo, Upload.todo, recorded.phase]

/-- What was uploaded stays listed. -/
theorem Recorded.grown (recorded : Recorded before after level filename more)
    {wanted : QualityLevel} {other : String} (member : other ∈ before.segments wanted) :
    other ∈ after.segments wanted := by
  rw [recorded.segments]
  split
  · exact List.mem_append_left _ member
  · exact member

theorem Recorded.listed (recorded : Recorded before after level filename more) :
    filename ∈ after.segments level := by
  rw [recorded.segments, if_pos rfl]
  exact List.mem_append_right _ (List.mem_singleton_self _)

/-- The first low segment asks for the low playlist and the master. -/
theorem Recorded.shape (recorded : Recorded before after level filename more) :
    more = [] ∨ level = .low ∧ more = [.publish .low .running, .master] := by
  have asked := recorded.more
  split at asked
  · rename_i first
    exact .inr ⟨first.1, asked⟩
  · exact .inl asked

end Recorded

/-! ## One action -/

def Upload.recordPlaylist (upload : Upload) (level : QualityLevel) (mode : TickMode) : Upload :=
  upload.withState { upload.uploader.state with
    lastPublishedPlaylist := upload.uploader.state.lastPublishedPlaylist.set level
      (some (synthesizeVariantPlaylist (upload.segments level) (decide (mode = .finalDrain)))) }

/-- The signal goes out with the first master only. -/
def Upload.recordMaster (upload : Upload) : Upload :=
  { upload with
    uploader := { upload.uploader with
      state := { upload.uploader.state with masterUploaded := true }, notifier := false }
    signals := upload.signals + if upload.uploader.notifier then 1 else 0 }

theorem fireNotifierOnce_eq (upload : Upload) :
    fireNotifierOnce (upload.withState { upload.uploader.state with masterUploaded := true }) =
      upload.recordMaster := by
  unfold Upload.recordMaster fireNotifierOnce Upload.withState
  cases notifier : upload.uploader.notifier <;> simp [notifier]

/-- How an action can end. -/
inductive Performed (objects : Objects) (upload : Upload) : Action → Outcome → Prop where
  | queued (level : QualityLevel) (mode : TickMode) (files : List File)
      (listed : upload.disk.get level = some files) :
      Performed objects upload (.tier level mode)
        ⟨objects, upload, .ok (tierActions level mode files)⟩
  | idle (action : Action) (idle : Idle upload action) :
      Performed objects upload action ⟨objects, upload, .ok []⟩
  | recorded (level : QualityLevel) (file : File) (after : Upload) (more : List Action)
      (fresh : file.name ∉ upload.segments level) (stored : file ∈ upload.files level)
      (recorded : Recorded upload after level file.name more) :
      Performed objects upload (.segment level file.name)
        ⟨objects.put (upload.segmentObject level file), after, .ok more⟩
  | published (level : QualityLevel) (mode : TickMode) (some : upload.segments level ≠ []) :
      Performed objects upload (.publish level mode)
        ⟨objects.put (upload.playlistObject level mode), upload.recordPlaylist level mode, .ok []⟩
  | mastered :
      Performed objects upload .master
        ⟨objects.put upload.masterObject, upload.recordMaster, .ok []⟩
  | failed (action : Action) (reached : Objects) (error : TranscoderError)
      (perhaps : reached = objects ∨
        ∃ object, Writes upload action object ∧ reached = objects.put object) :
      Performed objects upload action ⟨reached, upload, .error error⟩

variable {objects : Objects} {upload : Upload}

theorem uploadTier_performed (fault : Fault) (level : QualityLevel) (mode : TickMode) :
    Performed objects upload (.tier level mode) (uploadTier objects upload fault level mode) := by
  unfold uploadTier
  cases listed : upload.disk.get level with
  | none => exact .idle _ listed
  | some files =>
      cases fault with
      | none => exact .queued level mode files listed
      | error applied message => exact .failed _ _ _ (.inl rfl)

theorem uploadOneSegment_performed (fault : Fault) (removed : Bool) (level : QualityLevel)
    (filename : String) :
    Performed objects upload (.segment level filename)
      (uploadOneSegment objects upload fault removed level filename) := by
  unfold uploadOneSegment
  split
  · rename_i present
    exact .idle _ present
  · rename_i fresh
    split
    · exact .failed _ _ _ (.inl rfl)
    · rename_i file found
      have stored : file ∈ upload.files level := List.mem_of_find?_eq_some found
      obtain rfl : file.name = filename := by simpa using List.find?_some found
      have target : (⟨tierObjectKey upload.uploader.outputPrefix level file.name, TS_CONTENT_TYPE,
          .bytes file.content⟩ : Object) = upload.segmentObject level file := by
        rw [tierObjectKey_eq]
        rfl
      cases fault with
      | none =>
          simp only [attempt_none, uploadBytes, target]
          exact .recorded level file _ _ fresh stored (recordSegment_recorded _ _ _ _)
      | error applied message =>
          simp only [attempt, uploadBytes, target]
          refine .failed _ _ _ ?_
          cases applied
          · exact .inl rfl
          · exact .inr ⟨_, .segment level file stored, rfl⟩

theorem publish_idle {level : QualityLevel} {mode : TickMode}
    (idle : Idle upload (.publish level mode)) (fault : Fault) :
    publishVariantPlaylistIfChanged objects upload fault level mode =
      ⟨objects, upload, .ok []⟩ := by
  unfold publishVariantPlaylistIfChanged
  dsimp only
  rcases idle with empty | unchanged
  · exact if_pos empty
  · split
    · rfl
    · exact if_pos unchanged

/-- A call with something new stores it, and remembers what it stored.  Under a fault it
may still be stored, but the call fails and remembers nothing. -/
theorem publish_changed {level : QualityLevel} {mode : TickMode}
    (changed : ¬ Idle upload (.publish level mode)) :
    publishVariantPlaylistIfChanged objects upload .none level mode =
        ⟨objects.put (upload.playlistObject level mode), upload.recordPlaylist level mode,
          .ok []⟩ ∧
      ∀ applied message,
        publishVariantPlaylistIfChanged objects upload (.error applied message) level mode =
          ⟨if applied then objects.put (upload.playlistObject level mode) else objects, upload,
            .error (.transcodeFailed ("upload playlist: " ++ storageError message))⟩ := by
  unfold publishVariantPlaylistIfChanged
  dsimp only
  split
  · rename_i empty
    exact absurd (.inl empty) changed
  · split
    · rename_i unchanged
      exact absurd (.inr unchanged) changed
    · rw [tierObjectKey_eq]
      exact ⟨rfl, fun _ _ => rfl⟩

theorem publish_performed (fault : Fault) (level : QualityLevel) (mode : TickMode) :
    Performed objects upload (.publish level mode)
      (publishVariantPlaylistIfChanged objects upload fault level mode) := by
  by_cases idle : Idle upload (.publish level mode)
  · rw [publish_idle idle]
    exact .idle _ idle
  have some : upload.segments level ≠ [] := fun empty => idle (.inl empty)
  cases fault with
  | none =>
      rw [(publish_changed idle).1]
      exact .published level mode some
  | error applied message =>
      rw [(publish_changed idle).2]
      refine .failed _ _ _ ?_
      cases applied
      · exact .inl rfl
      · exact .inr ⟨_, .playlist level mode some, rfl⟩

theorem uploadMaster_performed (fault : Fault) :
    Performed objects upload .master (uploadMaster objects upload fault) := by
  unfold uploadMaster
  rw [fireNotifierOnce_eq]
  cases fault with
  | none => exact .mastered
  | error applied message =>
      refine .failed _ _ _ ?_
      cases applied
      · exact .inl rfl
      · exact .inr ⟨_, .master, rfl⟩

theorem perform_performed (fault : Fault) (removed : Bool) (action : Action) :
    Performed objects upload action (perform objects upload fault removed action) := by
  cases action with
  | tier level mode => exact uploadTier_performed fault level mode
  | segment level filename => exact uploadOneSegment_performed fault removed level filename
  | publish level mode => exact publish_performed fault level mode
  | master => exact uploadMaster_performed fault

/-! ## One step -/

/-- What the pipeline has produced once it wrote a file: a segment counts with its
first write. -/
inductive Produces (produced : PerTier (List String)) (level : QualityLevel) :
    PipelineFile → PerTier (List String) → Prop where
  | again (file : PipelineFile)
      (known : ∀ index, file = .segment index → segmentName index ∈ produced.get level) :
      Produces produced level file produced
  | first (index : Nat) (fresh : segmentName index ∉ produced.get level) :
      Produces produced level (.segment index)
        (produced.set level (produced.get level ++ [segmentName index]))

inductive UploadEffect (objects : Objects) (upload : Upload) : Objects → Upload → Prop where
  | wrote (level : QualityLevel) (files : List File) (file : PipelineFile) (content : Content)
      (produced : PerTier (List String)) (running : upload.pipeline = true)
      (listed : upload.disk.get level = some files)
      (produces : Produces upload.produced level file produced) :
      UploadEffect objects upload objects { upload with
        disk := upload.disk.set level (some (without files file.name ++ [⟨file.name, content⟩]))
        produced }
  | ended : UploadEffect objects upload objects { upload with pipeline := false }
  | stopped (ended : upload.pipeline = false) :
      UploadEffect objects upload objects { upload with stopped := true }
  | abandoned :
      UploadEffect objects upload objects { upload with awaited := false, stopped := true }
  | dropped (lost : upload.awaited = false) :
      UploadEffect objects upload objects { upload with disk := .all none }
  | ticked (mode : TickMode) (asleep : upload.uploader.phase = .sleeping)
      (timely : mode = .finalDrain → upload.stopped = true) :
      UploadEffect objects upload objects
        (upload.withPhase (settle mode (tick mode upload.uploader.qualityLevels)))
  | acted (mode : TickMode) (action : Action) (rest more : List Action) (reached : Objects)
      (after : Upload) (working : upload.uploader.phase = .working mode (action :: rest))
      (performed : Performed objects upload action ⟨reached, after, .ok more⟩) :
      UploadEffect objects upload reached (after.withPhase (settle mode (more ++ rest)))
  | failed (mode : TickMode) (action : Action) (rest : List Action) (reached : Objects)
      (error : TranscoderError)
      (working : upload.uploader.phase = .working mode (action :: rest))
      (perhaps : reached = objects ∨
        ∃ object, Writes upload action object ∧ reached = objects.put object) :
      UploadEffect objects upload reached (upload.withPhase (.returned (.error error)))

theorem actStep_performed {fault : Fault} {removed : Bool} {reached : Objects} {after : Upload}
    (stepped : actStep objects upload fault removed = some (reached, after)) :
    ∃ mode action rest, upload.uploader.phase = .working mode (action :: rest) ∧
      ((∃ done more, Performed objects upload action ⟨reached, done, .ok more⟩ ∧
          after = done.withPhase (settle mode (more ++ rest))) ∨
        ∃ error, (reached = objects ∨
            ∃ object, Writes upload action object ∧ reached = objects.put object) ∧
          after = upload.withPhase (.returned (.error error))) := by
  unfold actStep at stepped
  split at stepped
  · rename_i mode action rest working
    refine ⟨mode, action, rest, working, ?_⟩
    have performed : Performed objects upload action
        (perform objects upload fault removed action) := perform_performed fault removed action
    generalize perform objects upload fault removed action = outcome at performed stepped
    obtain ⟨objects', upload', next⟩ := outcome
    cases next with
    | ok more =>
        cases stepped
        exact .inl ⟨upload', more, performed, rfl⟩
    | error error =>
        cases stepped
        cases performed with
        | failed _ _ _ perhaps => exact .inr ⟨error, perhaps, rfl⟩
  · contradiction

theorem actStep_effect {fault : Fault} {removed : Bool} {reached : Objects} {after : Upload}
    (stepped : actStep objects upload fault removed = some (reached, after)) :
    UploadEffect objects upload reached after := by
  obtain ⟨mode, action, rest, working, ⟨done, more, performed, rfl⟩ | ⟨error, perhaps, rfl⟩⟩ :=
    actStep_performed stepped
  · exact .acted mode action rest more _ _ working performed
  · exact .failed mode action rest _ error working perhaps

theorem tickStep_some {mode : TickMode} {ticked : Upload}
    (moved : tickStep upload mode = some ticked) :
    upload.uploader.phase = .sleeping ∧
      ticked = upload.withPhase (settle mode (tick mode upload.uploader.qualityLevels)) := by
  unfold tickStep at moved
  split at moved
  · rename_i asleep
    cases moved
    exact ⟨asleep, rfl⟩
  · contradiction

/-- What each event asks of the upload, and what it leaves. -/
inductive UploadMove (objects : Objects) (upload : Upload) :
    UploadEvent → Objects → Upload → Prop where
  | write (level : QualityLevel) (file : PipelineFile) (content : Content) (files : List File)
      (produced : PerTier (List String)) (running : upload.pipeline = true)
      (listed : upload.disk.get level = some files)
      (produces : Produces upload.produced level file produced) :
      UploadMove objects upload (.write level file content) objects { upload with
        disk := upload.disk.set level (some (without files file.name ++ [⟨file.name, content⟩]))
        produced }
  | endPipeline : UploadMove objects upload .endPipeline objects { upload with pipeline := false }
  | stop (awaited : upload.awaited = true) (ended : upload.pipeline = false) :
      UploadMove objects upload .stop objects { upload with stopped := true }
  | abandon : UploadMove objects upload .abandon objects upload.abandon
  | dropDisk (lost : upload.awaited = false) :
      UploadMove objects upload .dropDisk objects { upload with disk := .all none }
  | tick (asleep : upload.uploader.phase = .sleeping) :
      UploadMove objects upload .tick objects
        (upload.withPhase (settle .running (tick .running upload.uploader.qualityLevels)))
  | drain (stopped : upload.stopped = true) (asleep : upload.uploader.phase = .sleeping) :
      UploadMove objects upload .drain objects
        (upload.withPhase (settle .finalDrain (tick .finalDrain upload.uploader.qualityLevels)))
  | act (fault : Fault) (removed : Bool) (reached : Objects) (after : Upload)
      (acted : actStep objects upload fault removed = some (reached, after)) :
      UploadMove objects upload (.act fault removed) reached after

theorem writeStep_some {level : QualityLevel} {file : PipelineFile} {content : Content}
    {written : Upload} (wrote : writeStep upload level file content = some written) :
    ∃ files produced, upload.disk.get level = some files ∧
      Produces upload.produced level file produced ∧
      written = { upload with
        disk := upload.disk.set level (some (without files file.name ++ [⟨file.name, content⟩]))
        produced } := by
  unfold writeStep at wrote
  split at wrote
  · contradiction
  · rename_i files listed
    refine ⟨files, ?_⟩
    cases file with
    | playlist =>
        cases wrote
        exact ⟨upload.produced, listed, .again _ (fun _ same => by cases same), rfl⟩
    | segment index =>
        dsimp only at wrote
        split at wrote
        · rename_i known
          split at wrote
          · cases wrote
            refine ⟨upload.produced, listed, .again _ fun _ same => ?_, rfl⟩
            cases same
            exact known
          · contradiction
        · rename_i fresh
          cases wrote
          exact ⟨_, listed, .first index fresh, rfl⟩

theorem uploadStep_move {event : UploadEvent} {reached : Objects} {after : Upload}
    (stepped : uploadStep objects upload event = some (reached, after)) :
    UploadMove objects upload event reached after := by
  cases event with
  | write level file content =>
      simp only [uploadStep] at stepped
      split at stepped
      · rename_i running
        obtain ⟨written, wrote, same⟩ := Option.map_eq_some_iff.mp stepped
        cases same
        obtain ⟨files, produced, listed, produces, rfl⟩ := writeStep_some wrote
        exact .write level file content files produced running listed produces
      · contradiction
  | endPipeline => cases stepped; exact .endPipeline
  | stop =>
      simp only [uploadStep] at stepped
      split at stepped
      · rename_i ready
        cases stepped
        exact .stop ready.1 ready.2
      · contradiction
  | abandon => cases stepped; exact .abandon
  | dropDisk =>
      simp only [uploadStep] at stepped
      split at stepped
      · contradiction
      · rename_i lost
        cases stepped
        exact .dropDisk (Bool.eq_false_iff.mpr lost)
  | tick =>
      obtain ⟨ticked, moved, same⟩ := Option.map_eq_some_iff.mp stepped
      cases same
      obtain ⟨asleep, rfl⟩ := tickStep_some moved
      exact .tick asleep
  | drain =>
      simp only [uploadStep] at stepped
      split at stepped
      · rename_i stopped
        obtain ⟨ticked, moved, same⟩ := Option.map_eq_some_iff.mp stepped
        cases same
        obtain ⟨asleep, rfl⟩ := tickStep_some moved
        exact .drain stopped asleep
      · contradiction
  | act fault removed => exact .act fault removed reached after stepped

theorem uploadStep_effect {event : UploadEvent} {reached : Objects} {after : Upload}
    (stepped : uploadStep objects upload event = some (reached, after)) :
    UploadEffect objects upload reached after := by
  cases uploadStep_move stepped with
  | write level file content files produced running listed produces =>
      exact .wrote level files file content produced running listed produces
  | endPipeline => exact .ended
  | stop awaited ended => exact .stopped ended
  | abandon => exact .abandoned
  | dropDisk lost => exact .dropped lost
  | tick asleep => exact .ticked .running asleep nofun
  | drain stopped asleep => exact .ticked .finalDrain asleep fun _ => stopped
  | act fault removed reached after acted => exact actStep_effect acted

/-! ## What no step does -/

variable {reached : Objects} {after : Upload}

/-- Only the uploader's own calls store anything. -/
theorem uploadStep_objects {event : UploadEvent}
    (stepped : uploadStep objects upload event = some (reached, after)) :
    reached = objects ∨ ∃ fault removed, event = .act fault removed := by
  cases uploadStep_move stepped with
  | act fault removed => exact .inr ⟨fault, removed, rfl⟩
  | write | endPipeline | stop | abandon | dropDisk | tick | drain => exact .inl rfl

/-- The segments are the pipeline's, and the uploader only removes files. -/
theorem uploadStep_files {event : UploadEvent}
    (stepped : uploadStep objects upload event = some (reached, after)) :
    (∃ level file content, event = .write level file content) ∨
      after.produced = upload.produced ∧
      ∀ level, (after.files level).Sublist (upload.files level) := by
  cases uploadStep_move stepped with
  | write level file content => exact .inl ⟨level, file, content, rfl⟩
  | endPipeline | stop | abandon | tick | drain => exact .inr ⟨rfl, fun _ => .refl _⟩
  | dropDisk lost =>
      refine .inr ⟨rfl, fun level => ?_⟩
      cases level <;> exact List.nil_sublist _
  | act fault removed reached after acted =>
      obtain ⟨mode, action, rest, working, ⟨done, more, performed, rfl⟩ | ⟨error, _, rfl⟩⟩ :=
        actStep_performed acted
      · cases performed with
        | recorded level file _ _ fresh stored recorded =>
            exact .inr ⟨recorded.produced, recorded.files⟩
        | queued | idle | published | mastered => exact .inr ⟨rfl, fun _ => .refl _⟩
      · exact .inr ⟨rfl, fun _ => .refl _⟩

theorem UploadEffect.outputPrefix (effect : UploadEffect objects upload reached after) :
    after.uploader.outputPrefix = upload.uploader.outputPrefix := by
  cases effect with
  | acted mode action rest more reached after working performed =>
      cases performed with
      | recorded level file _ _ fresh stored recorded => exact recorded.outputPrefix
      | queued | idle | published | mastered => rfl
  | wrote | ended | stopped | abandoned | dropped | ticked | failed => rfl

theorem UploadEffect.qualityLevels (effect : UploadEffect objects upload reached after) :
    after.uploader.qualityLevels = upload.uploader.qualityLevels := by
  cases effect with
  | acted mode action rest more reached after working performed =>
      cases performed with
      | recorded level file _ _ fresh stored recorded => exact recorded.qualityLevels
      | queued | idle | published | mastered => rfl
  | wrote | ended | stopped | abandoned | dropped | ticked | failed => rfl

/-- A pipeline is not started again. -/
theorem UploadEffect.pipeline (effect : UploadEffect objects upload reached after)
    (running : after.pipeline = true) : upload.pipeline = true := by
  cases effect with
  | acted mode action rest more reached after working performed =>
      cases performed with
      | recorded level file _ _ fresh stored recorded => exact recorded.pipeline.symm.trans running
      | queued | idle | published | mastered => exact running
  | ended => cases running
  | wrote | stopped | abandoned | dropped | ticked | failed => exact running

/-- A signal is not taken back. -/
theorem UploadEffect.signals_le (effect : UploadEffect objects upload reached after) :
    upload.signals ≤ after.signals := by
  cases effect with
  | acted mode action rest more reached after working performed =>
      cases performed with
      | recorded level file _ _ fresh stored recorded => exact recorded.signals.ge
      | mastered => exact Nat.le_add_right _ _
      | queued | idle | published => exact Nat.le_refl _
  | wrote | ended | stopped | abandoned | dropped | ticked | failed => exact Nat.le_refl _

theorem Writes.key {action : Action} {object : Object} (writes : Writes upload action object) :
    ∃ path, object.key = upload.key path := by
  cases writes with
  | segment level file stored => exact ⟨.tier level file.name, rfl⟩
  | playlist level mode some => exact ⟨.tier level PLAYLIST_FILENAME, rfl⟩
  | master => exact ⟨.master, rfl⟩

/-- The uploader writes under its own prefix only. -/
theorem UploadEffect.elsewhere (effect : UploadEffect objects upload reached after)
    {wanted : String} (outside : ∀ path, wanted ≠ upload.key path) :
    reached.find? wanted = objects.find? wanted := by
  have put : ∀ {action object}, Writes upload action object →
      (objects.put object).find? wanted = objects.find? wanted := by
    intro action object writes
    obtain ⟨path, same⟩ := writes.key
    rw [Table.find?_put, if_neg fun hit => outside path (hit.symm.trans same)]
  cases effect with
  | acted mode action rest more reached after working performed =>
      cases performed with
      | recorded level file _ _ fresh stored recorded => exact put (.segment level file stored)
      | published level mode some => exact put (.playlist level mode some)
      | mastered => exact put .master
      | queued | idle => rfl
  | failed mode action rest reached error working perhaps =>
      rcases perhaps with rfl | ⟨object, writes, rfl⟩
      · rfl
      · exact put writes
  | wrote | ended | stopped | abandoned | dropped | ticked => rfl

end Benri.Transcoder
