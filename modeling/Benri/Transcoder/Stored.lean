import Benri.Transcoder.UploadEffect

namespace Benri.Transcoder

open Benri.Data Benri.Domain Benri.Storage Benri.Transition

/-! # What the uploader has stored

Every playlist the uploader has published lists segments that are stored, and
the master is published after the low playlist.  Nothing here needs a call to
succeed: a call that fails may still have stored its object.
-/

/-! ## Segment names -/

def IsSegment (filename : String) : Prop := ∃ index, filename = segmentName index

theorem padded_toList (index : Nat) :
    (padded index).toList = List.replicate (5 - (toString index).length) '0' ++
      Nat.toDigits 10 index := by
  simp [padded]

theorem IsSegment.plain {filename : String} (segment : IsSegment filename) :
    PlainName filename := by
  obtain ⟨index, rfl⟩ := segment
  constructor
  · simp [segmentName, padded_toList, List.mem_replicate, newline_notMem_toDigits]
  · simp [segmentName, isUri]

/-- Segments are told from the pipeline's own playlist by their extension. -/
theorem isSegmentFile_iff (file : PipelineFile) :
    isSegmentFile file.name = true ↔ IsSegment file.name := by
  cases file with
  | playlist =>
      refine iff_of_false (by decide) ?_
      rintro ⟨index, same⟩
      have chars := congrArg String.toList same
      simp [PipelineFile.name, segmentName] at chars
  | segment index =>
      refine iff_of_true ?_ ⟨index, rfl⟩
      have reversed : ∃ last front,
          (segmentName index).toList.reverse = 's' :: 't' :: '.' :: last :: front := by
        cases digits : (padded index).toList.reverse with
        | nil => exact ⟨'_', "tnemges".toList, by simp [segmentName, digits]⟩
        | cons last front => exact ⟨last, front ++ "_tnemges".toList, by simp [segmentName, digits]⟩
      obtain ⟨last, front, reversed⟩ := reversed
      simp [isSegmentFile, PipelineFile.name, extension, reversed, SEGMENT_EXTENSION]

theorem not_isSegment_playlist : ¬ IsSegment PLAYLIST_FILENAME :=
  fun segment => absurd ((isSegmentFile_iff .playlist).mpr segment) (by decide)

theorem mem_scanSegments {files : List File} {filename : String} :
    filename ∈ scanSegments files ↔
      (∃ file ∈ files, file.name = filename) ∧ isSegmentFile filename = true := by
  simp only [scanSegments, List.mem_insertionSort, List.mem_filter, List.mem_map]

theorem mem_selectUploadableSegments {segments : List String} {mode : TickMode}
    {filename : String} (member : filename ∈ selectUploadableSegments segments mode) :
    filename ∈ segments := by
  cases mode with
  | finalDrain => exact member
  | running => exact List.mem_of_mem_take member

theorem mem_tierActions {level : QualityLevel} {mode : TickMode} {files : List File}
    {action : Action} (member : action ∈ tierActions level mode files) :
    (∃ filename ∈ selectUploadableSegments (scanSegments files) mode,
      action = .segment level filename ∨ action = .publish level .running) ∨
      action = .publish level mode := by
  rcases List.mem_append.mp member with inside | last
  · obtain ⟨filename, selected, either⟩ := List.mem_flatMap.mp inside
    refine .inl ⟨filename, selected, ?_⟩
    simpa using either
  · exact .inr (List.mem_singleton.mp last)

/-- The names an upload deals in are those the pipeline gives. -/
structure Named (upload : Upload) : Prop where
  segments : ∀ level, ∀ filename ∈ upload.segments level, IsSegment filename
  files : ∀ level, ∀ file ∈ upload.files level, ∃ made : PipelineFile, file.name = made.name
  queued : ∀ level filename, .segment level filename ∈ upload.todo → IsSegment filename

@[simp] theorem todo_withPhase_settle (upload : Upload) (mode : TickMode)
    (actions : List Action) : (upload.withPhase (settle mode actions)).todo = actions := by
  cases actions with
  | nil => cases mode <;> rfl
  | cons action rest => cases mode <;> rfl

theorem mem_tick {mode : TickMode} {levels : List QualityLevel} {action : Action} :
    action ∈ tick mode levels ↔ ∃ level ∈ levels, action = .tier level mode := by
  simp [tick, eq_comm]

theorem todo_of_working {upload : Upload} {mode : TickMode} {actions : List Action}
    (working : upload.uploader.phase = .working mode actions) : upload.todo = actions := by
  rw [Upload.todo, working]

theorem mem_todo_of_working {upload : Upload} {mode : TickMode} {action : Action}
    {rest : List Action} (working : upload.uploader.phase = .working mode (action :: rest)) :
    action ∈ upload.todo := by
  rw [todo_of_working working]
  exact List.mem_cons_self

theorem files_of_listed {upload : Upload} {level : QualityLevel} {files : List File}
    (listed : upload.disk.get level = some files) : upload.files level = files := by
  rw [Upload.files, listed]
  rfl

/-- Once something is written into one directory. -/
theorem files_written (upload : Upload) (level wanted : QualityLevel) (files : List File)
    (produced : PerTier (List String)) :
    ({ upload with disk := upload.disk.set level (some files), produced } : Upload).files wanted =
      if level = wanted then files else upload.files wanted := by
  simp only [Upload.files, PerTier.get_set]
  split <;> rfl

theorem files_start (outputPrefix : String) (levels : List QualityLevel) (hasAudio : Bool)
    (level : QualityLevel) : (Upload.start outputPrefix levels hasAudio).files level = [] := by
  have fresh : ∀ (disk : Disk), (∀ level, (disk.get level).getD [] = []) →
      ((levels.foldl (fun disk level => disk.set level (some [])) disk).get level).getD [] =
        [] := by
    induction levels with
    | nil => exact fun disk empty => empty level
    | cons first rest ih =>
        intro disk empty
        refine ih _ fun level => ?_
        rw [PerTier.get_set]
        split
        · rfl
        · exact empty level
  exact fresh _ fun level => by cases level <;> rfl

theorem Named.start (outputPrefix : String) (levels : List QualityLevel) (hasAudio : Bool) :
    Named (Upload.start outputPrefix levels hasAudio) := by
  refine ⟨?_, ?_, nofun⟩
  · intro level filename member
    cases level <;> cases member
  · intro level file member
    rw [files_start] at member
    cases member

variable {objects reached : Objects} {upload after : Upload}

/-- Every segment a tier directory offers is a segment by name. -/
theorem Named.offered (named : Named upload) {level : QualityLevel} {files : List File}
    {mode : TickMode} {filename : String} (listed : upload.disk.get level = some files)
    (member : filename ∈ selectUploadableSegments (scanSegments files) mode) :
    IsSegment filename := by
  obtain ⟨⟨file, inside, rfl⟩, segment⟩ := mem_scanSegments.mp (mem_selectUploadableSegments member)
  obtain ⟨made, same⟩ := named.files level file (files_of_listed listed ▸ inside)
  rw [same] at segment ⊢
  exact (isSegmentFile_iff made).mp segment

/-- What is left to do names segments only. -/
theorem Named.withTodo (named : Named upload) {mode : TickMode} {actions : List Action}
    (queued : ∀ level filename, .segment level filename ∈ actions → IsSegment filename) :
    Named (upload.withPhase (settle mode actions)) :=
  ⟨named.segments, named.files, by rwa [todo_withPhase_settle]⟩

theorem Named.recorded (named : Named upload) {level : QualityLevel} {filename : String}
    {more : List Action} (segment : IsSegment filename)
    (recorded : Recorded upload after level filename more) : Named after := by
  refine ⟨?_, ?_, ?_⟩
  · intro wanted other member
    rw [recorded.segments] at member
    split at member
    · rcases List.mem_append.mp member with old | new
      · exact named.segments wanted other old
      · rw [List.mem_singleton.mp new]
        exact segment
    · exact named.segments wanted other member
  · exact fun wanted other member => named.files wanted other ((recorded.files wanted).subset member)
  · rw [recorded.todo]
    exact named.queued

theorem Named.step (named : Named upload) (effect : UploadEffect objects upload reached after) :
    Named after := by
  cases effect with
  | wrote level files file content produced running listed produces =>
      refine ⟨named.segments, ?_, named.queued⟩
      intro wanted other member
      rw [files_written] at member
      split at member
      · rcases List.mem_append.mp member with old | new
        · exact named.files level other
            (files_of_listed listed ▸ (List.mem_filter.mp old).1)
        · exact ⟨file, by rw [List.mem_singleton.mp new]⟩
      · exact named.files wanted other member
  | ended => exact ⟨named.segments, named.files, named.queued⟩
  | stopped ended => exact ⟨named.segments, named.files, named.queued⟩
  | abandoned => exact ⟨named.segments, named.files, named.queued⟩
  | dropped lost =>
      refine ⟨named.segments, ?_, named.queued⟩
      intro level file member
      cases level <;> cases member
  | ticked mode asleep timely =>
      refine named.withTodo fun level filename member => ?_
      obtain ⟨other, _, same⟩ := mem_tick.mp member
      cases same
  | failed mode action rest reached error working perhaps =>
      exact ⟨named.segments, named.files, nofun⟩
  | acted mode action rest more reached after working performed =>
      have todo := todo_of_working working
      have others : ∀ level filename, .segment level filename ∈ rest → IsSegment filename :=
        fun level filename member =>
          named.queued level filename (by rw [todo]; exact List.mem_cons_of_mem _ member)
      cases performed with
      | queued level mode files listed =>
          refine named.withTodo fun wanted filename member => ?_
          rcases List.mem_append.mp member with inside | outside
          · rcases mem_tierActions inside with ⟨other, selected, segment | publish⟩ | last
            · cases segment
              exact named.offered listed selected
            · cases publish
            · cases last
          · exact others wanted filename outside
      | idle _ idle => exact named.withTodo others
      | recorded level file _ _ fresh stored recorded =>
          have segment := named.queued level file.name (by rw [todo]; exact List.mem_cons_self)
          refine (named.recorded segment recorded).withTodo fun wanted filename member => ?_
          rcases recorded.shape with rfl | ⟨_, rfl⟩ <;>
            exact others wanted filename (by simpa using member)
      | published level mode some =>
          have same : Named (upload.recordPlaylist level mode) :=
            ⟨named.segments, named.files, named.queued⟩
          exact same.withTodo others
      | mastered =>
          have same : Named upload.recordMaster := ⟨named.segments, named.files, named.queued⟩
          exact same.withTodo others

/-! ## What an uploader writes -/

/-- What an uploader makes: the master playlist, a tier's playlist, or a segment. -/
inductive HlsOutput : OutputPath → Prop where
  | master : HlsOutput .master
  | playlist (level : QualityLevel) : HlsOutput (.tier level PLAYLIST_FILENAME)
  | segment (level : QualityLevel) (index : Nat) : HlsOutput (.tier level (segmentName index))

theorem Writes.made {upload : Upload} {action : Action} {object : Object}
    (writes : Writes upload action object) (named : Named upload)
    (queued : action ∈ upload.todo) :
    ∃ path, HlsOutput path ∧ object.key = upload.key path := by
  cases writes with
  | segment level file stored =>
      obtain ⟨index, same⟩ := named.queued level file.name queued
      exact ⟨_, .segment level index, by rw [← same]; rfl⟩
  | playlist level mode some => exact ⟨_, .playlist level, rfl⟩
  | master => exact ⟨_, .master, rfl⟩

/-- Only what an uploader makes is changed by it. -/
theorem UploadEffect.made (effect : UploadEffect objects upload reached after)
    (named : Named upload) {wanted : String} (changed : reached.find? wanted ≠ objects.find? wanted) :
    ∃ path, HlsOutput path ∧ wanted = upload.key path := by
  have put : ∀ {action object}, action ∈ upload.todo → Writes upload action object →
      reached = objects.put object → ∃ path, HlsOutput path ∧ wanted = upload.key path := by
    rintro action object queued writes rfl
    rw [Table.find?_put] at changed
    split at changed
    · rename_i same
      obtain ⟨path, made, keyed⟩ := writes.made named queued
      exact ⟨path, made, same.symm.trans keyed⟩
    · exact absurd rfl changed
  cases effect with
  | acted mode action rest more reached after working performed =>
      have queued := mem_todo_of_working working
      cases performed with
      | recorded level file _ _ fresh stored recorded =>
          exact put queued (.segment level file stored) rfl
      | published level mode some => exact put queued (.playlist level mode some) rfl
      | mastered => exact put queued .master rfl
      | queued | idle => exact absurd rfl changed
  | failed mode action rest reached error working perhaps =>
      have queued := mem_todo_of_working working
      rcases perhaps with rfl | ⟨object, writes, same⟩
      · exact absurd rfl changed
      · exact put queued writes same
  | wrote | ended | stopped | abandoned | dropped | ticked => exact absurd rfl changed

/-! ## The stored objects -/

/-- What the uploader's bookkeeping says about storage. -/
structure Stored (objects : Objects) (upload : Upload) : Prop where
  segments : ∀ level, ∀ filename ∈ upload.segments level,
    (objects.find? (upload.key (.tier level filename))).isSome
  playlists : ∀ level, upload.published level ≠ none → ∃ listed finalize,
    objects.find? (upload.key (.tier level PLAYLIST_FILENAME)) =
      some ⟨upload.key (.tier level PLAYLIST_FILENAME), HLS_CONTENT_TYPE,
        .text (synthesizeVariantPlaylist listed finalize)⟩ ∧
      listed ≠ [] ∧ ∀ filename ∈ listed, filename ∈ upload.segments level
  master : upload.uploader.state.masterUploaded = true →
    objects.find? (upload.key .master) = some upload.masterObject

theorem Stored.start (objects : Objects) (outputPrefix : String) (levels : List QualityLevel)
    (hasAudio : Bool) : Stored objects (Upload.start outputPrefix levels hasAudio) := by
  refine ⟨?_, ?_, nofun⟩
  · intro level filename member
    cases level <;> cases member
  · intro level published
    cases level <;> exact absurd rfl published

/-- The uploader's facts live under its own prefix. -/
theorem Stored.of_agree (stored : Stored objects upload)
    (agree : ∀ path : OutputPath,
      reached.find? (upload.key path) = objects.find? (upload.key path)) :
    Stored reached upload := by
  refine ⟨?_, ?_, ?_⟩
  · intro level filename member
    rw [agree]
    exact stored.segments level filename member
  · intro level published
    rw [agree]
    exact stored.playlists level published
  · intro uploaded
    rw [agree]
    exact stored.master uploaded

/-- An object that was about to be written breaks none of it. -/
theorem Stored.put (stored : Stored objects upload) (named : Named upload) {action : Action}
    {object : Object} (queued : action ∈ upload.todo) (writes : Writes upload action object) :
    Stored (objects.put object) upload := by
  refine ⟨?_, ?_, ?_⟩
  · intro level filename member
    rw [Table.find?_put]
    split
    · rfl
    · exact stored.segments level filename member
  · intro level published
    rw [Table.find?_put]
    split
    · rename_i same
      cases writes with
      | segment other file _ =>
          obtain ⟨_, name⟩ := OutputPath.tier.inj (OutputPath.key_inj.mp same)
          exact absurd (name ▸ named.queued other _ queued) not_isSegment_playlist
      | playlist other mode some =>
          cases OutputPath.key_inj.mp same
          exact ⟨_, _, rfl, some, fun _ member => member⟩
      | master => cases OutputPath.key_inj.mp same
    · exact stored.playlists level published
  · intro uploaded
    rw [Table.find?_put]
    split
    · rename_i same
      cases writes with
      | segment other file _ => cases OutputPath.key_inj.mp same
      | playlist other mode some => cases OutputPath.key_inj.mp same
      | master => rfl
    · exact stored.master uploaded

/-- Only the bookkeeping of the uploads matters, and where they go. -/
theorem Stored.of_state (stored : Stored objects upload)
    (state : after.uploader.state = upload.uploader.state) (key : after.key = upload.key)
    (master : after.masterObject = upload.masterObject) : Stored objects after := by
  refine ⟨?_, ?_, ?_⟩
  · intro level
    rw [Upload.segments, state, key]
    exact stored.segments level
  · intro level
    rw [Upload.segments, Upload.published, state, key]
    exact stored.playlists level
  · rw [state, key, master]
    exact stored.master

/-- A segment is listed once it is stored. -/
theorem Stored.recorded (stored : Stored objects upload) {level : QualityLevel}
    {filename : String} {more : List Action}
    (present : (objects.find? (upload.key (.tier level filename))).isSome)
    (recorded : Recorded upload after level filename more) : Stored objects after := by
  refine ⟨?_, ?_, ?_⟩
  · intro wanted other member
    rw [recorded.key]
    rw [recorded.segments] at member
    split at member
    · rename_i same
      subst same
      rcases List.mem_append.mp member with old | new
      · exact stored.segments level other old
      · rw [List.mem_singleton.mp new]
        exact present
    · exact stored.segments wanted other member
  · intro wanted published
    rw [recorded.published] at published
    obtain ⟨listed, finalize, found, some, subset⟩ := stored.playlists wanted published
    rw [← recorded.key] at found
    exact ⟨listed, finalize, found, some,
      fun other member => recorded.grown (subset other member)⟩
  · intro uploaded
    rw [recorded.masterUploaded] at uploaded
    rw [recorded.key, recorded.masterObject]
    exact stored.master uploaded

/-- A playlist is published once it is stored. -/
theorem Stored.published (stored : Stored objects upload) {level : QualityLevel}
    {mode : TickMode} (some : upload.segments level ≠ [])
    (present : objects.find? (upload.key (.tier level PLAYLIST_FILENAME)) =
      Option.some (upload.playlistObject level mode)) :
    Stored objects (upload.recordPlaylist level mode) := by
  refine ⟨stored.segments, ?_, stored.master⟩
  intro wanted published
  by_cases same : level = wanted
  · subst same
    exact ⟨_, _, present, some, fun _ member => member⟩
  · refine stored.playlists wanted fun none => published ?_
    simp only [Upload.published, Upload.recordPlaylist, Upload.withState, PerTier.get_set,
      if_neg same]
    exact none

theorem Stored.step (stored : Stored objects upload) (named : Named upload)
    (effect : UploadEffect objects upload reached after) : Stored reached after := by
  cases effect with
  | wrote level files file content produced running listed produces =>
      exact stored.of_state rfl rfl rfl
  | ended => exact stored.of_state rfl rfl rfl
  | stopped ended => exact stored.of_state rfl rfl rfl
  | abandoned => exact stored.of_state rfl rfl rfl
  | dropped lost => exact stored.of_state rfl rfl rfl
  | ticked mode asleep timely => exact stored.of_state rfl rfl rfl
  | failed mode action rest _ error working perhaps =>
      have queued := mem_todo_of_working working
      rcases perhaps with rfl | ⟨object, writes, rfl⟩
      · exact stored.of_state rfl rfl rfl
      · exact (stored.put named queued writes).of_state rfl rfl rfl
  | acted mode action rest more _ after working performed =>
      have queued := mem_todo_of_working working
      cases performed with
      | queued level mode files listed => exact stored.of_state rfl rfl rfl
      | idle _ idle => exact stored.of_state rfl rfl rfl
      | recorded level file _ _ fresh offered recorded =>
          have put := stored.put named queued (.segment level file offered)
          refine (put.recorded ?_ recorded).of_state rfl rfl rfl
          exact Option.isSome_of_eq_some
            (Table.find?_put_self objects (upload.segmentObject level file))
      | published level mode some =>
          have put := stored.put named queued (.playlist level mode some)
          refine (put.published some ?_).of_state rfl rfl rfl
          exact Table.find?_put_self objects (upload.playlistObject level mode)
      | mastered =>
          have put := stored.put named queued .master
          exact ⟨put.segments, put.playlists,
            fun _ => Table.find?_put_self objects upload.masterObject⟩

/-- Until a call fails, the published playlists are the stored ones. -/
def Synced (objects : Objects) (upload : Upload) : Prop :=
  (∀ error, upload.uploader.phase ≠ .returned (.error error)) → ∀ level body,
    upload.published level = some body →
      objects.find? (upload.key (.tier level PLAYLIST_FILENAME)) =
        some ⟨upload.key (.tier level PLAYLIST_FILENAME), HLS_CONTENT_TYPE, .text body⟩

theorem Synced.step (synced : Synced objects upload) (named : Named upload)
    (effect : UploadEffect objects upload reached after) : Synced reached after := by
  cases effect with
  | wrote level files file content produced running listed produces => exact synced
  | ended => exact synced
  | stopped ended => exact synced
  | abandoned => exact synced
  | dropped lost => exact synced
  | ticked mode asleep timely => exact fun _ => synced fun error => by rw [asleep]; nofun
  | failed mode action rest _ error working perhaps => exact fun fine => absurd rfl (fine error)
  | acted mode action rest more _ after working performed =>
      have before := synced fun error => by rw [working]; nofun
      intro _
      cases performed with
      | queued level mode files listed => exact before
      | idle _ idle => exact before
      | recorded level file _ _ fresh stored recorded =>
          intro wanted body published
          have older : upload.published wanted = some body := recorded.published wanted ▸ published
          have keys : after.key = upload.key := funext fun path => by
            rw [Upload.key, Upload.key, recorded.outputPrefix]
          change (objects.put _).find? (after.key _) = some ⟨after.key _, _, _⟩
          rw [keys, Table.find?_put]
          split
          · rename_i same
            obtain ⟨_, name⟩ := OutputPath.tier.inj (OutputPath.key_inj.mp same)
            have segment := named.queued level file.name
              (by rw [todo_of_working working]; exact List.mem_cons_self)
            exact absurd (name ▸ segment) not_isSegment_playlist
          · exact before wanted body older
      | published level publishMode filled =>
          intro wanted body published
          have now : (upload.recordPlaylist level publishMode).published wanted = some body :=
            published
          simp only [Upload.published, Upload.recordPlaylist, Upload.withState,
            PerTier.get_set] at now
          split at now
          · rename_i same
            subst same
            cases now
            exact Table.find?_put_self objects (upload.playlistObject level publishMode)
          · rename_i other
            rw [Table.find?_put, if_neg fun same => ?_]
            · exact before wanted body now
            · exact other (OutputPath.tier.inj (OutputPath.key_inj.mp same)).1
      | mastered =>
          intro wanted body published
          rw [Table.find?_put, if_neg fun same => ?_]
          · exact before wanted body published
          · cases OutputPath.key_inj.mp same

/-! ## The master's turn -/

/-- Where the master upload stands in what is left to do. -/
inductive MasterNext (state : UploadState) : List Action → Prop where
  | ready (rest : List Action) (last : .master ∉ rest)
      (published : state.lastPublishedPlaylist.get .low ≠ none) :
      MasterNext state (.master :: rest)
  | afterPlaylist (rest : List Action) (last : .master ∉ rest)
      (some : state.uploadedSegments.get .low ≠ []) :
      MasterNext state (.publish .low .running :: .master :: rest)

structure Gated (upload : Upload) : Prop where
  master : .master ∈ upload.todo → MasterNext upload.uploader.state upload.todo
  published : upload.uploader.state.masterUploaded = true → upload.published .low ≠ none
  signals : upload.signals = if upload.uploader.state.masterUploaded then 1 else 0
  notifier : upload.uploader.notifier = !upload.uploader.state.masterUploaded

theorem Gated.start (outputPrefix : String) (levels : List QualityLevel) (hasAudio : Bool) :
    Gated (Upload.start outputPrefix levels hasAudio) := ⟨nofun, nofun, rfl, rfl⟩

/-- Only the two uploads before the master's own can precede it. -/
theorem Gated.behind (gated : Gated upload) {action : Action} {rest : List Action}
    (todo : upload.todo = action :: rest) (behind : .master ∈ rest) :
    action = .publish .low .running ∧ (∃ others, rest = .master :: others ∧ .master ∉ others) ∧
      upload.segments .low ≠ [] := by
  have next := gated.master (by rw [todo]; exact List.mem_cons_of_mem _ behind)
  rw [todo] at next
  cases next with
  | ready _ last published => exact absurd behind last
  | afterPlaylist others last some => exact ⟨rfl, ⟨others, rfl, last⟩, some⟩

/-- What is left to do keeps the master in its place. -/
theorem Gated.withTodo (gated : Gated upload) {mode : TickMode} {actions : List Action}
    (master : .master ∈ actions → MasterNext upload.uploader.state actions) :
    Gated (upload.withPhase (settle mode actions)) :=
  ⟨by rwa [todo_withPhase_settle], gated.published, gated.signals, gated.notifier⟩

theorem Gated.recorded (gated : Gated upload) {level : QualityLevel} {filename : String}
    {more : List Action} (absent : .master ∉ upload.todo)
    (recorded : Recorded upload after level filename more) : Gated after := by
  refine ⟨?_, ?_, ?_, ?_⟩
  · rw [recorded.todo]
    exact fun member => absurd member absent
  · rw [recorded.masterUploaded, recorded.published]
    exact gated.published
  · rw [recorded.signals, recorded.masterUploaded]
    exact gated.signals
  · rw [recorded.notifier, recorded.masterUploaded]
    exact gated.notifier

/-- A playlist that was published stays so, if perhaps with another content. -/
theorem published_recordPlaylist {level wanted : QualityLevel} (mode : TickMode)
    (either : upload.published wanted ≠ none ∨ level = wanted) :
    (upload.recordPlaylist level mode).published wanted ≠ none := by
  simp only [Upload.published, Upload.recordPlaylist, Upload.withState, PerTier.get_set]
  split
  · exact Option.some_ne_none _
  · rename_i other
    exact either.resolve_right other

theorem Gated.step (gated : Gated upload) (effect : UploadEffect objects upload reached after) :
    Gated after := by
  cases effect with
  | wrote level files file content produced running listed produces =>
      exact ⟨gated.master, gated.published, gated.signals, gated.notifier⟩
  | ended => exact ⟨gated.master, gated.published, gated.signals, gated.notifier⟩
  | stopped ended => exact ⟨gated.master, gated.published, gated.signals, gated.notifier⟩
  | abandoned => exact ⟨gated.master, gated.published, gated.signals, gated.notifier⟩
  | dropped lost => exact ⟨gated.master, gated.published, gated.signals, gated.notifier⟩
  | ticked mode asleep timely =>
      refine gated.withTodo fun member => ?_
      obtain ⟨level, _, same⟩ := mem_tick.mp member
      cases same
  | failed mode action rest _ error working perhaps =>
      exact ⟨nofun, gated.published, gated.signals, gated.notifier⟩
  | acted mode action rest more _ after working performed =>
      have todo := todo_of_working working
      cases performed with
      | queued level tierMode files listed =>
          refine gated.withTodo fun member => ?_
          rcases List.mem_append.mp member with inside | behind
          · rcases mem_tierActions inside with ⟨_, _, same | same⟩ | same <;> cases same
          · cases (gated.behind todo behind).1
      | idle _ idle =>
          refine gated.withTodo fun behind => ?_
          obtain ⟨rfl, ⟨others, rfl, last⟩, some⟩ := gated.behind todo behind
          rcases idle with none | unchanged
          · exact absurd none some
          · refine .ready others last ?_
            change upload.published .low ≠ none
            rw [unchanged]
            exact Option.some_ne_none _
      | recorded level file _ _ fresh stored recorded =>
          have later : .master ∉ rest := fun behind => by cases (gated.behind todo behind).1
          have absent : .master ∉ upload.todo := by
            rw [todo]
            exact fun member => later ((List.mem_cons.mp member).resolve_left nofun)
          refine (gated.recorded absent recorded).withTodo fun member => ?_
          rcases recorded.shape with rfl | ⟨rfl, rfl⟩
          · exact absurd member later
          · exact .afterPlaylist rest later (List.ne_nil_of_mem recorded.listed)
      | published level publishMode some =>
          refine ⟨?_, fun uploaded =>
            published_recordPlaylist publishMode (.inl (gated.published uploaded)),
            gated.signals, gated.notifier⟩
          rw [todo_withPhase_settle, List.nil_append]
          intro behind
          obtain ⟨same, ⟨others, rfl, last⟩, _⟩ := gated.behind todo behind
          cases same
          exact .ready others last (published_recordPlaylist .running (.inr rfl))
      | mastered =>
          have next := gated.master (by rw [todo]; exact List.mem_cons_self)
          rw [todo] at next
          cases next with
          | ready _ last published =>
              refine ⟨?_, fun _ => published, ?_, rfl⟩
              · rw [todo_withPhase_settle]
                exact fun member => absurd member last
              · change upload.signals + (if upload.uploader.notifier then 1 else 0) = 1
                rw [gated.signals, gated.notifier]
                cases upload.uploader.state.masterUploaded <;> rfl

/-! ## What a run has stored -/

structure Sound (objects : Objects) (upload : Upload) : Prop where
  named : Named upload
  stored : Stored objects upload
  gated : Gated upload

theorem Sound.start (objects : Objects) (outputPrefix : String) (levels : List QualityLevel)
    (hasAudio : Bool) : Sound objects (Upload.start outputPrefix levels hasAudio) :=
  ⟨.start _ _ _, .start _ _ _ _, .start _ _ _⟩

theorem Sound.step (sound : Sound objects upload)
    (effect : UploadEffect objects upload reached after) : Sound reached after :=
  ⟨sound.named.step effect, sound.stored.step sound.named effect, sound.gated.step effect⟩

/-- The uploader minds its own keys only. -/
theorem Sound.of_agree (sound : Sound objects upload)
    (agree : ∀ path : OutputPath,
      reached.find? (upload.key path) = objects.find? (upload.key path)) :
    Sound reached upload :=
  ⟨sound.named, sound.stored.of_agree agree, sound.gated⟩

/-- Neither the pipeline's end nor who waits for the upload matters to it. -/
theorem Sound.flags (sound : Sound objects upload) (awaited stopped pipeline : Bool) :
    Sound objects { upload with awaited, stopped, pipeline } :=
  ⟨⟨sound.named.segments, sound.named.files, sound.named.queued⟩,
    ⟨sound.stored.segments, sound.stored.playlists, sound.stored.master⟩,
    ⟨sound.gated.master, sound.gated.published, sound.gated.signals, sound.gated.notifier⟩⟩

/-- What a viewer needs once the link is out: the master, and a low playlist
that lists some segments, all of them stored. -/
structure Watchable (objects : Objects) (outputPrefix : String) : Prop where
  master : ∃ contentType body, objects.find? (OutputPath.master.key outputPrefix) =
    some ⟨OutputPath.master.key outputPrefix, contentType, .text body⟩
  low : ∃ contentType body,
    objects.find? ((OutputPath.tier .low PLAYLIST_FILENAME).key outputPrefix) =
      some ⟨(OutputPath.tier .low PLAYLIST_FILENAME).key outputPrefix, contentType, .text body⟩ ∧
    uris body ≠ [] ∧ ∀ uri ∈ uris body,
      (objects.find? ((OutputPath.tier .low uri).key outputPrefix)).isSome

/-- The signal means that the output can be watched. -/
theorem Sound.watchable (sound : Sound objects upload) (signalled : 0 < upload.signals) :
    Watchable objects upload.uploader.outputPrefix := by
  have uploaded : upload.uploader.state.masterUploaded = true := by
    rw [sound.gated.signals] at signalled
    cases uploaded : upload.uploader.state.masterUploaded with
    | true => rfl
    | false => simp [uploaded] at signalled
  refine ⟨⟨_, _, sound.stored.master uploaded⟩, ?_⟩
  obtain ⟨listed, finalize, found, some, subset⟩ :=
    sound.stored.playlists .low (sound.gated.published uploaded)
  have plain : ∀ filename ∈ listed, PlainName filename := fun filename member =>
    (sound.named.segments .low filename (subset filename member)).plain
  refine ⟨_, _, found, ?_, ?_⟩ <;> rw [uris_variantPlaylist finalize plain]
  · exact some
  · exact fun filename member => sound.stored.segments .low filename (subset filename member)

end Benri.Transcoder
