import Benri.Transcoder.Stored

namespace Benri.Transcoder

open Benri.Data Benri.Domain Benri.Storage Benri.Transition

/-! # The final drain

While its transcode waits for it, the uploader's final tick goes through every
tier, uploads what the pipeline has left there, and then closes the tier's
playlist.  `Draining` says how much of that a list of remaining actions has yet
to do, tier by tier; nothing remaining means that every tier is finished.
-/

def Action.level : Action → Option QualityLevel
  | .tier level _ | .segment level _ | .publish level _ => some level
  | .master => none

/-- The tier of which an action is the last one for now. -/
def Action.closes : Action → Option QualityLevel
  | .tier level _ | .publish level .finalDrain => some level
  | .segment _ _ | .publish _ .running | .master => none

/-- What the uploader knows about its tiers while it is waited for. -/
structure Supplied (levels : List QualityLevel) (upload : Upload) : Prop where
  configured : upload.uploader.qualityLevels = levels
  directories : upload.awaited = true → ∀ level ∈ levels, (upload.disk.get level).isSome
  produced : upload.awaited = true → ∀ level, ∀ filename ∈ upload.produced.get level,
    filename ∈ upload.segments level ∨ ∃ file ∈ upload.files level, file.name = filename
  names : ∀ level, ∀ filename ∈ upload.produced.get level, IsSegment filename
  ended : upload.awaited = true → upload.stopped = true → upload.pipeline = false
  tiers : ∀ level mode, .tier level mode ∈ upload.todo → level ∈ levels
  queued : ∀ level filename, .segment level filename ∈ upload.todo → level ∈ levels
  uploaded : ∀ level, upload.segments level ≠ [] → level ∈ levels

/-- The first low segment opens the gate to the master, and nothing else does. -/
structure Opened (upload : Upload) : Prop where
  first : upload.uploader.state.firstLowSegmentUploaded = true ↔ upload.segments .low ≠ []
  master : upload.uploader.state.firstLowSegmentUploaded = true →
    upload.uploader.state.masterUploaded = true ∨ .master ∈ upload.todo ∨
      ∃ error, upload.uploader.phase = .returned (.error error)

variable {levels : List QualityLevel} {objects reached : Objects} {upload after : Upload}

theorem directories_start {level : QualityLevel} (outputPrefix : String) (hasAudio : Bool)
    (member : level ∈ levels) :
    ((Upload.start outputPrefix levels hasAudio).disk.get level).isSome := by
  have made : ∀ (disk : Disk), level ∈ levels ∨ (disk.get level).isSome →
      ((levels.foldl (fun disk level => disk.set level (some [])) disk).get level).isSome := by
    clear member
    induction levels with
    | nil => simp
    | cons first rest ih =>
        intro disk either
        refine ih _ ?_
        rw [PerTier.get_set]
        rcases either with member | there
        · rcases List.mem_cons.mp member with rfl | later
          · exact .inr (by rw [if_pos rfl]; rfl)
          · exact .inl later
        · right
          split
          · rfl
          · exact there
  exact made _ (.inl member)

theorem Supplied.start (outputPrefix : String) (levels : List QualityLevel) (hasAudio : Bool) :
    Supplied levels (Upload.start outputPrefix levels hasAudio) := by
  refine ⟨rfl, fun _ level => directories_start outputPrefix hasAudio, ?_, ?_, nofun, nofun, nofun,
    ?_⟩
  · intro _ level filename member
    cases level <;> cases member
  · intro level filename member
    cases level <;> cases member
  · intro level some
    cases level <;> exact absurd rfl some

theorem Opened.start (outputPrefix : String) (levels : List QualityLevel) (hasAudio : Bool) :
    Opened (Upload.start outputPrefix levels hasAudio) :=
  ⟨⟨nofun, fun some => absurd rfl some⟩, nofun⟩

/-- Nothing but the disk and the pipeline changes when a file is written. -/
theorem Supplied.write (supplied : Supplied levels upload) {level : QualityLevel}
    {files : List File} {file : PipelineFile} {content : Content}
    {produced : PerTier (List String)} (listed : upload.disk.get level = some files)
    (produces : Produces upload.produced level file produced) :
    Supplied levels { upload with
      disk := upload.disk.set level (some (without files file.name ++ [⟨file.name, content⟩]))
      produced } := by
  have kept : ∀ wanted filename, (∃ other ∈ upload.files wanted, other.name = filename) →
      ∃ other ∈ ({ upload with
        disk := upload.disk.set level (some (without files file.name ++ [⟨file.name, content⟩]))
        produced } : Upload).files wanted, other.name = filename := by
    rintro wanted filename ⟨other, inside, rfl⟩
    rw [files_written]
    split
    · rename_i same
      subst same
      by_cases named : other.name = file.name
      · exact ⟨_, List.mem_append_right _ (List.mem_singleton_self _), named.symm⟩
      · refine ⟨other, List.mem_append_left _ (List.mem_filter.mpr ⟨?_, by simp [named]⟩), rfl⟩
        exact files_of_listed listed ▸ inside
    · exact ⟨other, inside, rfl⟩
  refine ⟨supplied.configured, ?_, ?_, ?_, supplied.ended, supplied.tiers, supplied.queued,
    supplied.uploaded⟩
  · intro awaited wanted member
    rw [PerTier.get_set]
    split
    · rfl
    · exact supplied.directories awaited wanted member
  · intro awaited wanted filename member
    have older : filename ∈ upload.produced.get wanted ∨
        wanted = level ∧ filename = file.name := by
      cases produces with
      | again => exact .inl member
      | first index fresh =>
          rw [PerTier.get_set] at member
          split at member
          · rename_i same
            rcases List.mem_append.mp member with old | new
            · exact .inl (same ▸ old)
            · exact .inr ⟨same.symm, List.mem_singleton.mp new⟩
          · exact .inl member
    rcases older with old | ⟨rfl, rfl⟩
    · exact (supplied.produced awaited wanted filename old).imp_right (kept wanted filename)
    · refine .inr ⟨⟨file.name, content⟩, ?_, rfl⟩
      rw [files_written, if_pos rfl]
      exact List.mem_append_right _ (List.mem_singleton_self _)
  · intro wanted filename member
    cases produces with
    | again => exact supplied.names wanted filename member
    | first index fresh =>
        rw [PerTier.get_set] at member
        split at member
        · rcases List.mem_append.mp member with old | new
          · exact supplied.names level filename old
          · exact ⟨index, List.mem_singleton.mp new⟩
        · exact supplied.names wanted filename member

/-- What is left to do stays within the configured tiers. -/
theorem Supplied.withTodo (supplied : Supplied levels upload) {mode : TickMode}
    {actions : List Action} (tiers : ∀ level mode, .tier level mode ∈ actions → level ∈ levels)
    (queued : ∀ level filename, .segment level filename ∈ actions → level ∈ levels) :
    Supplied levels (upload.withPhase (settle mode actions)) :=
  ⟨supplied.configured, supplied.directories, supplied.produced, supplied.names, supplied.ended,
    by rwa [todo_withPhase_settle], by rwa [todo_withPhase_settle], supplied.uploaded⟩

/-- A stored segment goes from its directory into the uploader's list. -/
theorem Supplied.recorded (supplied : Supplied levels upload) {level : QualityLevel}
    {filename : String} {more : List Action} (known : level ∈ levels)
    (recorded : Recorded upload after level filename more) : Supplied levels after := by
  refine ⟨recorded.qualityLevels.trans supplied.configured, ?_, ?_, ?_, ?_, ?_, ?_, ?_⟩
  · intro awaited wanted member
    rw [recorded.directories]
    exact supplied.directories (recorded.awaited ▸ awaited) wanted member
  · intro awaited wanted name member
    rw [recorded.produced] at member
    rcases supplied.produced (recorded.awaited ▸ awaited) wanted name member with
      old | ⟨file, inside, rfl⟩
    · exact .inl (recorded.grown old)
    · rcases recorded.remaining wanted file inside with remains | ⟨rfl, named⟩
      · exact .inr ⟨file, remains, rfl⟩
      · exact .inl (named ▸ recorded.listed)
  · intro wanted name member
    exact supplied.names wanted name (recorded.produced ▸ member)
  · intro awaited stopped
    rw [recorded.pipeline]
    exact supplied.ended (recorded.awaited ▸ awaited) (recorded.stopped ▸ stopped)
  · rw [recorded.todo]
    exact supplied.tiers
  · rw [recorded.todo]
    exact supplied.queued
  · intro wanted some
    rw [recorded.segments] at some
    split at some
    · rename_i same
      exact same ▸ known
    · exact supplied.uploaded wanted some

theorem Supplied.step (supplied : Supplied levels upload)
    (effect : UploadEffect objects upload reached after) : Supplied levels after := by
  cases effect with
  | wrote level files file content produced running listed produces =>
      exact supplied.write listed produces
  | ended =>
      exact ⟨supplied.configured, supplied.directories, supplied.produced, supplied.names,
        fun _ _ => rfl, supplied.tiers, supplied.queued, supplied.uploaded⟩
  | stopped ended =>
      exact ⟨supplied.configured, supplied.directories, supplied.produced, supplied.names,
        fun _ _ => ended, supplied.tiers, supplied.queued, supplied.uploaded⟩
  | abandoned =>
      exact ⟨supplied.configured, nofun, nofun, supplied.names, nofun, supplied.tiers,
        supplied.queued, supplied.uploaded⟩
  | dropped lost =>
      have gone : ∀ {P : Prop}, upload.awaited = true → P := fun awaited => by
        rw [lost] at awaited
        cases awaited
      exact ⟨supplied.configured, gone, gone, supplied.names, supplied.ended, supplied.tiers,
        supplied.queued, supplied.uploaded⟩
  | ticked mode asleep timely =>
      refine supplied.withTodo ?_ ?_
      · intro level other member
        obtain ⟨wanted, inside, same⟩ := mem_tick.mp member
        cases same
        exact supplied.configured ▸ inside
      · intro level filename member
        obtain ⟨wanted, inside, same⟩ := mem_tick.mp member
        cases same
  | failed mode action rest _ error working perhaps =>
      exact ⟨supplied.configured, supplied.directories, supplied.produced, supplied.names,
        supplied.ended, nofun, nofun, supplied.uploaded⟩
  | acted mode action rest more _ after working performed =>
      have todo := todo_of_working working
      have tiers : ∀ level mode, .tier level mode ∈ rest → level ∈ levels :=
        fun level mode member =>
          supplied.tiers level mode (by rw [todo]; exact List.mem_cons_of_mem _ member)
      have queued : ∀ level filename, .segment level filename ∈ rest → level ∈ levels :=
        fun level filename member =>
          supplied.queued level filename (by rw [todo]; exact List.mem_cons_of_mem _ member)
      cases performed with
      | queued level tierMode files listed =>
          have known : level ∈ levels :=
            supplied.tiers level tierMode (by rw [todo]; exact List.mem_cons_self)
          refine supplied.withTodo ?_ ?_
          · intro wanted other member
            rcases List.mem_append.mp member with inside | behind
            · rcases mem_tierActions inside with ⟨_, _, same | same⟩ | same <;> cases same
            · exact tiers wanted other behind
          · intro wanted filename member
            rcases List.mem_append.mp member with inside | behind
            · rcases mem_tierActions inside with ⟨_, _, same | same⟩ | same <;> cases same
              exact known
            · exact queued wanted filename behind
      | idle _ idle => exact supplied.withTodo tiers queued
      | recorded level file _ _ fresh stored recorded =>
          have known : level ∈ levels :=
            supplied.queued level file.name (by rw [todo]; exact List.mem_cons_self)
          refine (supplied.recorded known recorded).withTodo ?_ ?_
          · intro wanted other member
            refine tiers wanted other ?_
            rcases recorded.shape with rfl | ⟨_, rfl⟩ <;> simpa using member
          · intro wanted filename member
            refine queued wanted filename ?_
            rcases recorded.shape with rfl | ⟨_, rfl⟩ <;> simpa using member
      | published level publishMode some =>
          have same : Supplied levels (upload.recordPlaylist level publishMode) :=
            ⟨supplied.configured, supplied.directories, supplied.produced, supplied.names,
              supplied.ended, supplied.tiers, supplied.queued, supplied.uploaded⟩
          exact same.withTodo tiers queued
      | mastered =>
          have same : Supplied levels upload.recordMaster :=
            ⟨supplied.configured, supplied.directories, supplied.produced, supplied.names,
              supplied.ended, supplied.tiers, supplied.queued, supplied.uploaded⟩
          exact same.withTodo tiers queued

/-- Where the master is while the uploader works. -/
theorem Opened.waits (opened : Opened upload) {mode : TickMode} {action : Action}
    {rest : List Action} (working : upload.uploader.phase = .working mode (action :: rest))
    (other : action ≠ .master) (first : upload.uploader.state.firstLowSegmentUploaded = true) :
    upload.uploader.state.masterUploaded = true ∨ .master ∈ rest := by
  rcases opened.master first with uploaded | queued | ⟨error, gaveUp⟩
  · exact .inl uploaded
  · rw [todo_of_working working] at queued
    exact .inr ((List.mem_cons.mp queued).resolve_left fun same => other same.symm)
  · rw [working] at gaveUp
    cases gaveUp

theorem Opened.withTodo {mode : TickMode} {actions : List Action}
    (opens : upload.uploader.state.firstLowSegmentUploaded = true ↔ upload.segments .low ≠ [])
    (master : upload.uploader.state.firstLowSegmentUploaded = true →
      upload.uploader.state.masterUploaded = true ∨ .master ∈ actions) :
    Opened (upload.withPhase (settle mode actions)) := by
  refine ⟨opens, fun first => ?_⟩
  rw [todo_withPhase_settle]
  exact (master first).imp_right .inl

/-- The first low segment is the one that asks for the master. -/
theorem Opened.recorded (opened : Opened upload) {mode : TickMode} {level : QualityLevel}
    {filename : String} {rest more : List Action}
    (working : upload.uploader.phase = .working mode (.segment level filename :: rest))
    (recorded : Recorded upload after level filename more) :
    Opened (after.withPhase (settle mode (more ++ rest))) := by
  refine .withTodo ?_ fun first => ?_
  · rw [recorded.first, recorded.segments]
    by_cases low : level = .low
    · simp [low]
    · simpa [low] using opened.first
  · rw [recorded.masterUploaded]
    cases was : upload.uploader.state.firstLowSegmentUploaded with
    | true =>
        exact (opened.waits working nofun was).imp_right (List.mem_append_right _)
    | false =>
        have low : level = .low := by simpa [recorded.first, was] using first
        cases master : upload.uploader.state.masterUploaded with
        | true => exact .inl rfl
        | false =>
            right
            rw [recorded.more, if_pos ⟨low, was, master⟩]
            simp

theorem Opened.step (opened : Opened upload)
    (effect : UploadEffect objects upload reached after) : Opened after := by
  cases effect with
  | wrote level files file content produced running listed produces =>
      exact ⟨opened.first, opened.master⟩
  | ended => exact ⟨opened.first, opened.master⟩
  | stopped ended => exact ⟨opened.first, opened.master⟩
  | abandoned => exact ⟨opened.first, opened.master⟩
  | dropped lost => exact ⟨opened.first, opened.master⟩
  | ticked mode asleep timely =>
      refine .withTodo opened.first fun first => ?_
      rcases opened.master first with uploaded | queued | ⟨error, gaveUp⟩
      · exact .inl uploaded
      · rw [Upload.todo, asleep] at queued
        cases queued
      · rw [asleep] at gaveUp
        cases gaveUp
  | failed mode action rest _ error working perhaps =>
      exact ⟨opened.first, fun _ => .inr (.inr ⟨error, rfl⟩)⟩
  | acted mode action rest more _ after working performed =>
      cases performed with
      | queued level tierMode files listed =>
          exact .withTodo opened.first fun first =>
            (opened.waits working (by rintro ⟨⟩) first).imp_right (List.mem_append_right _)
      | idle _ idle =>
          refine .withTodo opened.first (opened.waits working ?_)
          rintro rfl
          exact idle
      | recorded level file _ _ fresh stored recorded => exact opened.recorded working recorded
      | published level publishMode some =>
          have same : Opened (upload.recordPlaylist level publishMode) :=
            ⟨opened.first, opened.master⟩
          exact .withTodo same.first (same.waits working (by rintro ⟨⟩))
      | mastered => exact ⟨opened.first, fun _ => .inl rfl⟩

/-! ## The tiers of the final tick -/

/-- A tier's playlist, if it has segments, is published in its closed form. -/
def Finalized (upload : Upload) (level : QualityLevel) : Prop :=
  upload.segments level ≠ [] →
    upload.published level = some (synthesizeVariantPlaylist (upload.segments level) true)

/-- A tier is yet to be read, or what it holds is uploaded or about to be, and
its playlist is closed or about to be. -/
def Attended (upload : Upload) (actions : List Action) (level : QualityLevel) : Prop :=
  .tier level .finalDrain ∈ actions ∨
    (∀ filename ∈ upload.produced.get level,
      filename ∈ upload.segments level ∨ .segment level filename ∈ actions) ∧
    (.publish level .finalDrain ∈ actions ∨
      (∀ action ∈ actions, action.level ≠ some level) ∧ Finalized upload level)

def Apart (earlier later : Action) : Prop :=
  ∀ level, earlier.closes = some level → later.level ≠ some level

structure Draining (levels : List QualityLevel) (upload : Upload) (actions : List Action) :
    Prop where
  stopped : upload.stopped = true
  modes : ∀ level mode, .tier level mode ∈ actions → mode = .finalDrain
  ordered : actions.Pairwise Apart
  attended : ∀ level ∈ levels, Attended upload actions level

/-- In the final tick, and once it is over. -/
def Drains (levels : List QualityLevel) (upload : Upload) : Prop :=
  upload.awaited = true → ∀ actions, upload.uploader.phase = settle .finalDrain actions →
    Draining levels upload actions

theorem settle_finalDrain {mode : TickMode} {actions others : List Action}
    (same : settle mode actions = settle .finalDrain others) :
    mode = .finalDrain ∧ actions = others := by
  cases mode <;> cases actions <;> cases others <;> simp_all [settle]

theorem closes_of_mem_uploads {level : QualityLevel} {filenames : List String} {action : Action}
    (member : action ∈ filenames.flatMap fun filename =>
      [.segment level filename, .publish level .running]) : action.closes = none := by
  obtain ⟨filename, _, either⟩ := List.mem_flatMap.mp member
  rcases List.mem_cons.mp either with rfl | publish
  · rfl
  · rw [List.mem_singleton.mp publish]
    rfl

theorem Apart.of_open {earlier later : Action} (opens : earlier.closes = none) :
    Apart earlier later := by
  intro level closes
  rw [opens] at closes
  cases closes

theorem tierActions_apart (level : QualityLevel) (mode : TickMode) (files : List File) :
    (tierActions level mode files).Pairwise Apart :=
  List.pairwise_append.mpr ⟨List.Pairwise.imp_of_mem
    (fun inside _ _ => Apart.of_open (closes_of_mem_uploads inside))
    (List.pairwise_of_forall fun _ _ => trivial), List.pairwise_singleton _ _,
    fun _ inside _ _ => Apart.of_open (closes_of_mem_uploads inside)⟩

/-- Whatever a tier's actions close is that tier. -/
theorem tierActions_closes {level : QualityLevel} {mode : TickMode} {files : List File}
    {action : Action} {closed : QualityLevel} (member : action ∈ tierActions level mode files)
    (closes : action.closes = some closed) : closed = level := by
  rcases mem_tierActions member with ⟨_, _, rfl | rfl⟩ | rfl
  · cases closes
  · cases closes
  · cases mode <;> cases closes
    rfl

theorem tierActions_level {level : QualityLevel} {mode : TickMode} {files : List File}
    {action : Action} (member : action ∈ tierActions level mode files) :
    action.level = some level := by
  rcases mem_tierActions member with ⟨_, _, rfl | rfl⟩ | rfl <;> rfl

/-- A tick visits each tier once. -/
theorem tick_apart (mode : TickMode) (distinct : levels.Nodup) :
    (tick mode levels).Pairwise Apart := by
  refine List.pairwise_map.mpr (distinct.imp ?_)
  intro earlier later different level closes same
  cases closes
  cases same
  exact different rfl

/-- A tier's own actions take the place of the tier. -/
theorem apart_queued {level : QualityLevel} {mode : TickMode} {rest : List Action}
    (ordered : (Action.tier level mode :: rest).Pairwise Apart) (files : List File) :
    (tierActions level mode files ++ rest).Pairwise Apart := by
  obtain ⟨ahead, ordered⟩ := List.pairwise_cons.mp ordered
  refine List.pairwise_append.mpr ⟨tierActions_apart _ _ _, ordered, ?_⟩
  intro earlier inside later behind closed closes
  obtain rfl := tierActions_closes inside closes
  exact ahead later behind closed rfl

theorem apart_opening {more rest : List Action} (ordered : rest.Pairwise Apart)
    (opening : ∀ next ∈ more, next.closes = none) : (more ++ rest).Pairwise Apart := by
  refine List.pairwise_append.mpr
    ⟨?_, ordered, fun next inside _ _ => .of_open (opening next inside)⟩
  exact List.Pairwise.imp_of_mem (fun inside _ _ => Apart.of_open (opening _ inside))
    (List.pairwise_of_forall fun _ _ => trivial)

/-- The first low segment closes no tier. -/
theorem Recorded.opening {level : QualityLevel} {filename : String} {more : List Action}
    (recorded : Recorded upload after level filename more) : ∀ next ∈ more, next.closes = none := by
  rcases recorded.shape with rfl | ⟨_, rfl⟩ <;> simp [Action.closes]

theorem Draining.tick (levels : List QualityLevel) (distinct : levels.Nodup)
    (stopped : upload.stopped = true) :
    Draining levels upload (Transcoder.tick .finalDrain levels) := by
  refine ⟨stopped, ?_, tick_apart _ distinct,
    fun level member => .inl (mem_tick.mpr ⟨level, member, rfl⟩)⟩
  intro level mode member
  obtain ⟨_, _, same⟩ := mem_tick.mp member
  cases same
  rfl

section Acted

variable {action : Action} {rest : List Action}

/-- A tier whose directory was read. -/
theorem Draining.queued (draining : Draining levels upload (action :: rest))
    (supplied : Supplied levels upload) (awaited : upload.awaited = true) {level : QualityLevel}
    {mode : TickMode} {files : List File} (same : action = .tier level mode)
    (listed : upload.disk.get level = some files) :
    Draining levels upload (tierActions level mode files ++ rest) := by
  subst same
  obtain rfl := draining.modes level mode List.mem_cons_self
  refine ⟨draining.stopped, ?_, apart_queued draining.ordered files, ?_⟩
  · intro other mode member
    rcases List.mem_append.mp member with inside | behind
    · rcases mem_tierActions inside with ⟨_, _, same | same⟩ | same <;> cases same
    · exact draining.modes other mode (List.mem_cons_of_mem _ behind)
  · intro wanted known
    by_cases same : wanted = level
    · subst same
      refine .inr ⟨?_, .inl ?_⟩
      · intro filename member
        rcases supplied.produced awaited wanted filename member with old | ⟨file, inside, named⟩
        · exact .inl old
        · refine .inr (List.mem_append_left _ (List.mem_append_left _ (List.mem_flatMap.mpr
            ⟨filename, ?_, List.mem_cons_self⟩)))
          obtain ⟨index, segment⟩ := supplied.names wanted filename member
          refine mem_scanSegments.mpr ⟨⟨file, files_of_listed listed ▸ inside, named⟩, ?_⟩
          rw [segment]
          exact (isSegmentFile_iff (.segment index)).mpr ⟨index, rfl⟩
      · exact List.mem_append_left _ (List.mem_append_right _ (List.mem_singleton_self _))
    · have shift : ∀ {action}, action.level = some wanted →
          action ∈ Action.tier level .finalDrain :: rest →
          action ∈ tierActions level .finalDrain files ++ rest := by
        intro action onLevel member
        rcases List.mem_cons.mp member with rfl | behind
        · cases onLevel
          exact absurd rfl same
        · exact List.mem_append_right _ behind
      rcases draining.attended wanted known with tier | ⟨uploads, closing⟩
      · exact .inl (shift rfl tier)
      · refine .inr ⟨fun filename member => (uploads filename member).imp_right (shift rfl), ?_⟩
        refine closing.imp (shift rfl) fun finished => ⟨?_, finished.2⟩
        intro action member
        rcases List.mem_append.mp member with inside | behind
        · rw [tierActions_level inside]
          exact fun onLevel => same (Option.some.inj onLevel).symm
        · exact finished.1 action (List.mem_cons_of_mem _ behind)

/-- An action that is done with, and what it did to its own tier. -/
theorem Draining.advance (draining : Draining levels upload (action :: rest))
    {more : List Action} (stopped : after.stopped = upload.stopped)
    (produced : after.produced = upload.produced)
    (opening : ∀ next ∈ more, next.closes = none) (notTier : ∀ level mode, .tier level mode ∉ more)
    (onLevel : ∀ level, ∀ next ∈ more, next.level = some level →
      ∃ filename, action = .segment level filename)
    (grown : ∀ level, ∀ filename ∈ upload.segments level, filename ∈ after.segments level)
    (segment : ∀ level filename, action = .segment level filename →
      filename ∈ after.segments level)
    (tier : ∀ level ∈ levels, action ≠ .tier level .finalDrain)
    (publish : ∀ level, action = .publish level .finalDrain → Finalized after level)
    (elsewhere : ∀ level, action.level ≠ some level →
      Finalized upload level → Finalized after level) :
    Draining levels after (more ++ rest) := by
  obtain ⟨ahead, ordered⟩ := List.pairwise_cons.mp draining.ordered
  refine ⟨stopped.trans draining.stopped, ?_, apart_opening ordered opening, ?_⟩
  · intro level mode member
    rcases List.mem_append.mp member with inside | behind
    · exact absurd inside (notTier level mode)
    · exact draining.modes level mode (List.mem_cons_of_mem _ behind)
  · intro level known
    rcases draining.attended level known with queued | ⟨uploads, closing⟩
    · refine .inl (List.mem_append_right _ ((List.mem_cons.mp queued).resolve_left ?_))
      exact fun same => tier level known same.symm
    · have uploaded : ∀ filename ∈ after.produced.get level, filename ∈ after.segments level ∨
          .segment level filename ∈ more ++ rest := by
        intro filename member
        rcases uploads filename (produced ▸ member) with old | queued
        · exact .inl (grown level filename old)
        · rcases List.mem_cons.mp queued with same | behind
          · exact .inl (segment level filename same.symm)
          · exact .inr (List.mem_append_right _ behind)
      rcases closing with queued | ⟨quiet, finalized⟩
      · rcases List.mem_cons.mp queued with same | behind
        · by_cases reread : .tier level .finalDrain ∈ rest
          · exact .inl (List.mem_append_right _ reread)
          · refine .inr ⟨uploaded, .inr ⟨?_, publish level same.symm⟩⟩
            intro next member
            rcases List.mem_append.mp member with inside | behind
            · intro there
              obtain ⟨filename, segment⟩ := onLevel level next inside there
              rw [← same] at segment
              cases segment
            · exact ahead next behind level (by rw [← same]; rfl)
        · exact .inr ⟨uploaded, .inl (List.mem_append_right _ behind)⟩
      · have other : action.level ≠ some level := quiet action List.mem_cons_self
        refine .inr ⟨uploaded, .inr ⟨?_, elsewhere level other finalized⟩⟩
        intro next member
        rcases List.mem_append.mp member with inside | behind
        · intro there
          obtain ⟨filename, rfl⟩ := onLevel level next inside there
          exact other rfl
        · exact quiet next (List.mem_cons_of_mem _ behind)

/-- The bookkeeping of a stored segment touches neither the other tiers nor the
playlists. -/
theorem Draining.recorded {level : QualityLevel} {filename : String} {more : List Action}
    (draining : Draining levels upload (.segment level filename :: rest))
    (recorded : Recorded upload after level filename more) :
    Draining levels after (more ++ rest) := by
  refine draining.advance recorded.stopped recorded.produced recorded.opening ?_ ?_
    (fun _ _ member => recorded.grown member) ?_ nofun nofun ?_
  · rcases recorded.shape with rfl | ⟨_, rfl⟩ <;> simp
  · intro wanted next member onLevel
    rcases recorded.shape with rfl | ⟨rfl, rfl⟩
    · cases member
    · rcases List.mem_cons.mp member with rfl | master
      · cases onLevel
        exact ⟨_, rfl⟩
      · rw [List.mem_singleton.mp master] at onLevel
        cases onLevel
  · intro wanted name same
    cases same
    exact recorded.listed
  · intro wanted other finalized
    have unrelated : level ≠ wanted := fun same => other (congrArg some same)
    rw [Finalized, recorded.segments, recorded.published, if_neg unrelated]
    exact finalized

/-- An action that uploads no segment and asks for nothing more. -/
theorem Draining.finish (draining : Draining levels upload (action :: rest))
    (stopped : after.stopped = upload.stopped) (produced : after.produced = upload.produced)
    (segments : ∀ level, after.segments level = upload.segments level)
    (segment : ∀ level filename, action = .segment level filename →
      filename ∈ upload.segments level)
    (tier : ∀ level ∈ levels, action ≠ .tier level .finalDrain)
    (publish : ∀ level, action = .publish level .finalDrain → Finalized after level)
    (elsewhere : ∀ level, action.level ≠ some level →
      Finalized upload level → Finalized after level) :
    Draining levels after rest := by
  have advanced : Draining levels after ([] ++ rest) :=
    draining.advance stopped produced nofun nofun nofun
      (fun level _ member => segments level ▸ member)
      (fun level filename same => segments level ▸ segment level filename same)
      tier publish elsewhere
  exact advanced

/-- Nothing to do is not for want of a directory. -/
theorem Draining.idle (draining : Draining levels upload (action :: rest))
    (directories : ∀ level ∈ levels, (upload.disk.get level).isSome)
    (idle : Idle upload action) : Draining levels upload rest := by
  refine draining.finish rfl rfl (fun _ => rfl) ?_ ?_ ?_ fun _ _ finalized => finalized
  · rintro level filename rfl
    exact idle
  · rintro level known rfl
    have there := directories level known
    rw [show upload.disk.get level = none from idle] at there
    cases there
  · rintro level rfl some
    exact idle.resolve_left some

/-- A playlist published in the final tick's own mode closes its tier. -/
theorem Draining.published {level : QualityLevel} {mode : TickMode}
    (draining : Draining levels upload (.publish level mode :: rest)) :
    Draining levels (upload.recordPlaylist level mode) rest := by
  have recorded : ∀ wanted, (upload.recordPlaylist level mode).published wanted =
      if level = wanted then some (synthesizeVariantPlaylist (upload.segments level)
        (decide (mode = .finalDrain))) else upload.published wanted :=
    fun wanted => PerTier.get_set _ _ _ _
  refine draining.finish rfl rfl (fun _ => rfl) nofun nofun ?_ ?_
  · intro wanted same _
    cases same
    rw [recorded, if_pos rfl]
    rfl
  · intro wanted other finalized some
    rw [recorded, if_neg fun same => other (congrArg Option.some same)]
    exact finalized some

theorem Draining.mastered (draining : Draining levels upload (.master :: rest)) :
    Draining levels upload.recordMaster rest :=
  draining.finish rfl rfl (fun _ => rfl) nofun nofun nofun fun _ _ finalized => finalized

/-- Where the tick stands is not part of it. -/
theorem Draining.withPhase {actions : List Action} (draining : Draining levels upload actions)
    (phase : UploaderPhase) : Draining levels (upload.withPhase phase) actions :=
  ⟨draining.stopped, draining.modes, draining.ordered, draining.attended⟩

end Acted

theorem Drains.step (drains : Drains levels upload) (distinct : levels.Nodup)
    (supplied : Supplied levels upload) (effect : UploadEffect objects upload reached after) :
    Drains levels after := by
  cases effect with
  | wrote level files file content produced running listed produces =>
      intro awaited actions phase
      have stopped := (drains awaited actions phase).stopped
      rw [supplied.ended awaited stopped] at running
      cases running
  | ended =>
      intro awaited actions phase
      have draining := drains awaited actions phase
      exact ⟨draining.stopped, draining.modes, draining.ordered, draining.attended⟩
  | stopped ended =>
      intro awaited actions phase
      have draining := drains awaited actions phase
      exact ⟨rfl, draining.modes, draining.ordered, draining.attended⟩
  | abandoned => exact nofun
  | dropped lost =>
      intro awaited
      rw [show _ = upload.awaited from rfl, lost] at awaited
      cases awaited
  | ticked mode asleep timely =>
      intro awaited actions phase
      obtain ⟨rfl, rfl⟩ := settle_finalDrain phase
      rw [supplied.configured]
      exact (Draining.tick levels distinct (timely rfl)).withPhase _
  | failed mode action rest _ error working perhaps =>
      intro awaited actions phase
      cases actions <;> cases phase
  | acted mode action rest more _ after working performed =>
      intro awaited actions phase
      obtain ⟨rfl, rfl⟩ := settle_finalDrain phase
      have before : upload.awaited = true → Draining levels upload (action :: rest) :=
        fun awaited => drains awaited _ (by rw [working]; rfl)
      refine Draining.withPhase ?_ _
      cases performed with
      | queued level tierMode files listed =>
          exact (before awaited).queued supplied awaited rfl listed
      | idle _ idle => exact (before awaited).idle (supplied.directories awaited) idle
      | recorded level file _ _ fresh stored recorded =>
          exact (before (recorded.awaited ▸ awaited)).recorded recorded
      | published level publishMode filled => exact (before awaited).published
      | mastered => exact (before awaited).mastered

end Benri.Transcoder
