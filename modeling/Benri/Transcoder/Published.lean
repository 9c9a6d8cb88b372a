import Benri.Transcoder.Playable

namespace Benri.Transcoder

open Benri.Data Benri.Domain Benri.Storage Benri.Transition

/-! # The playlists in storage

A tier's playlist is stored from three places of a tick, and each time it is made
from all the segments of the tier that are stored by then.  So the playlists of one
run extend each other, and the one that is closed comes last: it is stored by the
tier's last action in the final tick, and no tick follows that one.
-/

/-- The actions of the final tick. -/
def Action.Final : Action → Prop
  | .tier _ mode | .publish _ mode => mode = .finalDrain
  | .segment _ _ | .master => False

/-- A phase that no further tick follows. -/
def UploaderPhase.Last : UploaderPhase → Prop
  | .sleeping => False
  | .working mode _ => mode = .finalDrain
  | .returned _ => True

theorem last_settle {mode : TickMode} {actions : List Action} :
    (settle mode actions).Last ↔ mode = .finalDrain := by
  cases mode <;> cases actions <;> simp [settle, UploaderPhase.Last]

/-- A tier is closed by the last of its actions, in the final tick. -/
structure Orderly (upload : Upload) : Prop where
  apart : upload.todo.Pairwise Apart
  final : ∀ action ∈ upload.todo, action.Final → upload.uploader.phase.Last

variable {levels : List QualityLevel} {objects reached : Objects} {upload after : Upload}

theorem Orderly.withTodo {mode : TickMode} {actions : List Action}
    (apart : actions.Pairwise Apart)
    (final : ∀ action ∈ actions, action.Final → mode = .finalDrain) :
    Orderly (upload.withPhase (settle mode actions)) := by
  refine ⟨by rwa [todo_withPhase_settle], ?_⟩
  rw [todo_withPhase_settle]
  exact fun action member drains => last_settle.mpr (final action member drains)

theorem Orderly.step (orderly : Orderly upload) (distinct : upload.uploader.qualityLevels.Nodup)
    (effect : UploadEffect objects upload reached after) : Orderly after := by
  cases effect with
  | wrote | ended | stopped | abandoned | dropped => exact ⟨orderly.apart, orderly.final⟩
  | ticked mode asleep timely =>
      refine .withTodo (tick_apart mode distinct) fun action member drains => ?_
      obtain ⟨level, _, rfl⟩ := mem_tick.mp member
      exact drains
  | failed mode action rest _ error working perhaps => exact ⟨List.Pairwise.nil, nofun⟩
  | acted mode action rest more _ after working performed =>
      have todo := todo_of_working working
      have apart : (action :: rest).Pairwise Apart := todo ▸ orderly.apart
      have final : ∀ next ∈ action :: rest, next.Final → mode = .finalDrain := by
        intro next member drains
        have last := orderly.final next (todo ▸ member) drains
        rwa [working] at last
      have others := fun next behind => final next (List.mem_cons_of_mem _ behind)
      have ordered := (List.pairwise_cons.mp apart).2
      cases performed with
      | idle | published | mastered => exact .withTodo ordered others
      | queued level tierMode files listed =>
          refine .withTodo (apart_queued apart files) fun next member drains => ?_
          rcases List.mem_append.mp member with inside | behind
          · rcases mem_tierActions inside with ⟨_, _, rfl | rfl⟩ | rfl
            · cases drains
            · cases drains
            · exact final _ List.mem_cons_self drains
          · exact others next behind drains
      | recorded level file _ _ fresh stored recorded =>
          refine .withTodo (apart_opening ordered recorded.opening) fun next member drains => ?_
          rcases List.mem_append.mp member with inside | behind
          · rcases recorded.shape with rfl | ⟨_, rfl⟩
            · cases inside
            · rcases List.mem_cons.mp inside with rfl | master
              · cases drains
              · rw [List.mem_singleton.mp master] at drains
                cases drains
          · exact others next behind drains

/-! ## One step and one tier -/

/-- What an action asks for is in its own tier. -/
theorem Performed.within {action : Action} {more : List Action}
    (performed : Performed objects upload action ⟨reached, after, .ok more⟩) {level : QualityLevel}
    {next : Action} (member : next ∈ more) (onLevel : next.level = some level) :
    action.level = some level := by
  cases performed with
  | queued known mode files listed => rwa [tierActions_level member] at onLevel
  | recorded known file _ _ fresh stored recorded =>
      rcases recorded.shape with rfl | ⟨rfl, rfl⟩
      · cases member
      · rcases List.mem_cons.mp member with rfl | master
        · exact onLevel
        · rw [List.mem_singleton.mp master] at onLevel
          cases onLevel
  | idle | published | mastered => cases member

/-- The list of a tier's stored segments only grows. -/
theorem UploadEffect.segments_grow (effect : UploadEffect objects upload reached after)
    (level : QualityLevel) : upload.segments level <+: after.segments level := by
  cases effect with
  | acted mode action rest more _ after working performed =>
      cases performed with
      | recorded known file _ _ fresh stored recorded =>
          change _ <+: after.segments level
          rw [recorded.segments]
          split
          · exact List.prefix_append _ _
          · exact List.prefix_rfl
      | queued | idle | published | mastered => exact List.prefix_rfl
  | wrote | ended | stopped | abandoned | dropped | ticked | failed => exact List.prefix_rfl

/-- A run removes nothing from storage. -/
theorem UploadEffect.stays (effect : UploadEffect objects upload reached after) {wanted : String}
    (there : (objects.find? wanted).isSome) : (reached.find? wanted).isSome := by
  have put : ∀ object, ((objects.put object).find? wanted).isSome := by
    intro object
    rw [Table.find?_put]
    split
    · rfl
    · exact there
  cases effect with
  | acted mode action rest more _ after working performed =>
      cases performed with
      | recorded | published | mastered => exact put _
      | queued | idle => exact there
  | failed mode action rest _ error working perhaps =>
      rcases perhaps with rfl | ⟨object, _, rfl⟩
      · exact there
      · exact put object
  | wrote | ended | stopped | abandoned | dropped | ticked => exact there

theorem UploadEffect.key (effect : UploadEffect objects upload reached after) :
    after.key = upload.key :=
  funext fun path => by rw [Upload.key, Upload.key, effect.outputPrefix]

/-- Storing a tier's playlist. -/
structure Publishes (objects : Objects) (upload : Upload) (reached : Objects) (after : Upload)
    (level : QualityLevel) (mode : TickMode) : Prop where
  turn : ∃ rest, upload.todo = .publish level mode :: rest ∧ ∀ action ∈ after.todo, action ∈ rest
  some : upload.segments level ≠ []
  stored : reached = objects.put (upload.playlistObject level mode)
  segments : after.segments level = upload.segments level
  last : upload.uploader.phase.Last → after.uploader.phase.Last

/-- A step stores a tier's playlist, or leaves it and the bookkeeping of it alone. -/
theorem UploadEffect.playlist (named : Named upload)
    (effect : UploadEffect objects upload reached after) (level : QualityLevel) :
    (reached.find? (upload.key (.tier level PLAYLIST_FILENAME)) =
        objects.find? (upload.key (.tier level PLAYLIST_FILENAME)) ∧
      after.published level = upload.published level) ∨
      ∃ mode, Publishes objects upload reached after level mode := by
  have elsewhere : ∀ {action object}, action ∈ upload.todo → Writes upload action object →
      (∀ mode, action ≠ .publish level mode) →
      (objects.put object).find? (upload.key (.tier level PLAYLIST_FILENAME)) =
        objects.find? (upload.key (.tier level PLAYLIST_FILENAME)) := by
    intro action object queued writes other
    rw [Table.find?_put, if_neg]
    intro same
    cases writes with
    | segment known file stored =>
        obtain ⟨_, name⟩ := OutputPath.tier.inj (OutputPath.key_inj.mp same)
        exact absurd (name ▸ named.queued known _ queued) not_isSegment_playlist
    | playlist known mode some =>
        cases OutputPath.key_inj.mp same
        exact other mode rfl
    | master => cases OutputPath.key_inj.mp same
  cases effect with
  | wrote | ended | stopped | abandoned | dropped | ticked => exact .inl ⟨rfl, rfl⟩
  | failed mode action rest _ error working perhaps =>
      have todo := todo_of_working working
      rcases perhaps with rfl | ⟨object, writes, rfl⟩
      · exact .inl ⟨rfl, rfl⟩
      by_cases mine : ∃ mode, action = .publish level mode
      · obtain ⟨_, rfl⟩ := mine
        cases writes with
        | playlist _ _ some =>
            exact .inr ⟨_, ⟨rest, todo, nofun⟩, some, rfl, rfl, fun _ => trivial⟩
      · have queued : action ∈ upload.todo := by
          rw [todo]
          exact List.mem_cons_self
        exact .inl ⟨elsewhere queued writes fun mode same => mine ⟨mode, same⟩, rfl⟩
  | acted mode action rest more _ after working performed =>
      have todo := todo_of_working working
      have queued : action ∈ upload.todo := by
        rw [todo]
        exact List.mem_cons_self
      cases performed with
      | queued | idle => exact .inl ⟨rfl, rfl⟩
      | recorded known file _ _ fresh stored recorded =>
          exact .inl ⟨elsewhere queued (.segment known file stored) nofun, recorded.published level⟩
      | mastered => exact .inl ⟨elsewhere queued .master nofun, rfl⟩
      | published known publishMode some =>
          by_cases mine : known = level
          · subst mine
            refine .inr ⟨publishMode, ⟨rest, todo, ?_⟩, some, rfl, rfl, ?_⟩
            · rw [todo_withPhase_settle]
              exact fun action member => member
            · intro last
              rw [working] at last
              exact last_settle.mpr last
          · refine .inl ⟨elsewhere queued (.playlist known publishMode some) ?_, ?_⟩
            · intro mode same
              cases same
              exact mine rfl
            · change (upload.recordPlaylist known publishMode).published level = _
              simp only [Upload.published, Upload.recordPlaylist, Upload.withState,
                PerTier.get_set, if_neg mine]

/-! ## A tier that is closed -/

/-- Nothing more happens in a tier. -/
structure Shut (upload : Upload) (level : QualityLevel) : Prop where
  last : upload.uploader.phase.Last
  quiet : ∀ action ∈ upload.todo, action.level ≠ some level

theorem Shut.step {level : QualityLevel} (shut : Shut upload level)
    (effect : UploadEffect objects upload reached after) : Shut after level := by
  cases effect with
  | wrote | ended | stopped | abandoned | dropped => exact ⟨shut.last, shut.quiet⟩
  | ticked mode asleep timely =>
      have last := shut.last
      rw [asleep] at last
      cases last
  | failed mode action rest _ error working perhaps => exact ⟨trivial, nofun⟩
  | acted mode action rest more _ after working performed =>
      have last := shut.last
      rw [working] at last
      have quiet : ∀ next ∈ action :: rest, next.level ≠ some level :=
        todo_of_working working ▸ shut.quiet
      refine ⟨last_settle.mpr last, ?_⟩
      rw [todo_withPhase_settle]
      intro next member onLevel
      rcases List.mem_append.mp member with inside | behind
      · exact quiet action List.mem_cons_self (performed.within inside onLevel)
      · exact quiet next (List.mem_cons_of_mem _ behind) onLevel

/-- The final playlist of a tier is its last action. -/
theorem Publishes.shut {level : QualityLevel} (orderly : Orderly upload)
    (publishes : Publishes objects upload reached after level .finalDrain) : Shut after level := by
  obtain ⟨rest, todo, remaining⟩ := publishes.turn
  have apart := orderly.apart
  rw [todo] at apart
  have queued : .publish level .finalDrain ∈ upload.todo := by
    rw [todo]
    exact List.mem_cons_self
  refine ⟨publishes.last (orderly.final _ queued rfl), ?_⟩
  exact fun action member => (List.pairwise_cons.mp apart).1 action (remaining action member) _ rfl

theorem Publishes.open {level : QualityLevel} {mode : TickMode}
    (publishes : Publishes objects upload reached after level mode) : ¬ Shut upload level := by
  obtain ⟨rest, todo, _⟩ := publishes.turn
  intro shut
  exact shut.quiet _ (by rw [todo]; exact List.mem_cons_self) rfl

/-! ## What is stored -/

/-- The playlist a tier had when the run began, if any. -/
structure Untouched (initial objects : Objects) (upload : Upload) (level : QualityLevel) :
    Prop where
  found : objects.find? (upload.key (.tier level PLAYLIST_FILENAME)) =
    initial.find? (upload.key (.tier level PLAYLIST_FILENAME))
  unpublished : upload.published level = none

/-- The stored playlist of a tier, and what it was made from. -/
structure Lists (objects : Objects) (upload : Upload) (level : QualityLevel)
    (listed : List String) (finalize : Bool) : Prop where
  found : objects.find? (upload.key (.tier level PLAYLIST_FILENAME)) =
    some ⟨upload.key (.tier level PLAYLIST_FILENAME), HLS_CONTENT_TYPE,
      .text (synthesizeVariantPlaylist listed finalize)⟩
  some : listed ≠ []
  grows : listed <+: upload.segments level
  shut : finalize = true → Shut upload level

structure Traced (initial objects : Objects) (upload : Upload) : Prop where
  distinct : ∀ level, (upload.segments level).Nodup
  playlists : ∀ level, Untouched initial objects upload level ∨
    ∃ listed finalize, Lists objects upload level listed finalize

variable {initial : Objects}

theorem Traced.start (objects : Objects) (outputPrefix : String) (levels : List QualityLevel)
    (hasAudio : Bool) : Traced objects objects (.start outputPrefix levels hasAudio) := by
  refine ⟨?_, ?_⟩
  · intro level
    cases level <;> exact List.nodup_nil
  · intro level
    refine .inl ⟨rfl, ?_⟩
    cases level <;> rfl

theorem Publishes.lists {level : QualityLevel} {mode : TickMode} (orderly : Orderly upload)
    (effect : UploadEffect objects upload reached after)
    (publishes : Publishes objects upload reached after level mode) :
    Lists reached after level (upload.segments level) (decide (mode = .finalDrain)) := by
  refine ⟨?_, publishes.some, publishes.segments ▸ List.prefix_rfl, ?_⟩
  · rw [publishes.stored, effect.key]
    exact Table.find?_put_self objects (upload.playlistObject level mode)
  · intro final
    obtain rfl := of_decide_eq_true final
    exact publishes.shut orderly

theorem segments_distinct (distinct : ∀ level, (upload.segments level).Nodup)
    (effect : UploadEffect objects upload reached after) (level : QualityLevel) :
    (after.segments level).Nodup := by
  cases effect with
  | acted mode action rest more _ after working performed =>
      cases performed with
      | recorded known file _ _ fresh stored recorded =>
          change (after.segments level).Nodup
          rw [recorded.segments]
          split
          · rename_i same
            subst same
            refine List.nodup_append.mpr ⟨distinct known, List.nodup_singleton _, ?_⟩
            rintro older member _ single rfl
            exact fresh (List.mem_singleton.mp single ▸ member)
          · exact distinct level
      | queued | idle | published | mastered => exact distinct level
  | wrote | ended | stopped | abandoned | dropped | ticked | failed => exact distinct level

theorem Traced.step (traced : Traced initial objects upload) (named : Named upload)
    (orderly : Orderly upload) (effect : UploadEffect objects upload reached after) :
    Traced initial reached after := by
  refine ⟨segments_distinct traced.distinct effect, fun level => ?_⟩
  rcases effect.playlist named level with ⟨found, published⟩ | ⟨mode, publishes⟩
  · rcases traced.playlists level with untouched | ⟨listed, finalize, lists⟩
    · refine .inl ⟨?_, published.trans untouched.unpublished⟩
      rw [effect.key, found]
      exact untouched.found
    · refine .inr ⟨listed, finalize, ?_, lists.some,
        lists.grows.trans (effect.segments_grow level), fun final => (lists.shut final).step effect⟩
      rw [effect.key, found]
      exact lists.found
  · exact .inr ⟨_, _, publishes.lists orderly effect⟩

/-! ## What the final drain finds -/

/-- The final tick lists a tier's directory. -/
structure Reads (level : QualityLevel) (before after : Objects × Upload) (found : List String) :
    Prop where
  stepped : ∃ event, transcodeStep before event = some after
  read : ∃ files rest, before.2.todo = .tier level .finalDrain :: rest ∧
    before.2.disk.get level = some files ∧ found = scanSegments files ∧
    after.2.todo = tierActions level .finalDrain files ++ rest

/-- Earlier in the run the final tick has found these segments of a tier. -/
def Drained (start : Objects × Upload) (level : QualityLevel) (found : List String)
    (world : Objects × Upload) : Prop :=
  ∃ before after, Reaches transcodeStep Anything start before ∧ Reads level before after found ∧
    Reaches transcodeStep Anything after world

/-- What was found is stored or will be, unless the run gives up. -/
def Owed (level : QualityLevel) (found : List String) (upload : Upload) : Prop :=
  (∃ error, upload.uploader.phase = .returned (.error error)) ∨
    ∀ filename ∈ found, filename ∈ upload.segments level ∨
      .segment level filename ∈ upload.todo

theorem Owed.step {level : QualityLevel} {found : List String} (owed : Owed level found upload)
    (effect : UploadEffect objects upload reached after) : Owed level found after := by
  cases effect with
  | wrote | ended | stopped | abandoned | dropped => exact owed
  | failed mode action rest _ error working perhaps => exact .inl ⟨error, rfl⟩
  | ticked mode asleep timely =>
      rcases owed with ⟨error, gaveUp⟩ | owed
      · rw [asleep] at gaveUp
        cases gaveUp
      · refine .inr fun filename member => .inl ?_
        rcases owed filename member with stored | queued
        · exact stored
        · rw [Upload.todo, asleep] at queued
          cases queued
  | acted mode action rest more _ after working performed =>
      rcases owed with ⟨error, gaveUp⟩ | owed
      · rw [working] at gaveUp
        cases gaveUp
      have kept : (∀ filename, action = .segment level filename →
          filename ∈ after.segments level) → upload.segments level ⊆ after.segments level →
          Owed level found (after.withPhase (settle mode (more ++ rest))) := by
        intro finished grown
        refine .inr fun filename member => ?_
        rw [todo_withPhase_settle]
        rcases owed filename member with stored | queued
        · exact .inl (grown stored)
        · rw [todo_of_working working] at queued
          rcases List.mem_cons.mp queued with same | behind
          · exact .inl (finished filename same.symm)
          · exact .inr (List.mem_append_right _ behind)
      cases performed with
      | queued known tierMode files listed => exact kept (by rintro _ ⟨⟩) fun _ member => member
      | published | mastered => exact kept (by rintro _ ⟨⟩) fun _ member => member
      | idle _ idle =>
          refine kept ?_ fun _ member => member
          rintro filename rfl
          exact idle
      | recorded known file _ _ fresh stored recorded =>
          refine kept ?_ fun _ member => recorded.grown member
          intro filename same
          cases same
          exact recorded.listed

theorem Reads.owed {level : QualityLevel} {before after : Objects × Upload}
    {found : List String} (reads : Reads level before after found) :
    Owed level found after.2 := by
  obtain ⟨files, rest, _, _, rfl, todo⟩ := reads.read
  refine .inr fun filename member => .inr ?_
  rw [todo]
  exact List.mem_append_left _ (List.mem_append_left _
    (List.mem_flatMap.mpr ⟨filename, member, List.mem_cons_self⟩))

theorem Drained.owed {start world : Objects × Upload} {level : QualityLevel}
    {found : List String} (drained : Drained start level found world) :
    Owed level found world.2 := by
  obtain ⟨before, after, _, reads, ran⟩ := drained
  refine ran.preserves (fun world => Owed level found world.2) reads.owed ?_
  exact fun owed _ stepped => owed.step (uploadStep_effect stepped)

/-- A tier is not closed before the final tick has listed its directory. -/
theorem drained_of_queued {start world : Objects × Upload} {level : QualityLevel}
    (fresh : start.2.uploader.phase = .sleeping)
    (ran : Reaches transcodeStep Anything start world)
    (queued : .publish level .finalDrain ∈ world.2.todo) :
    ∃ found, Drained start level found world := by
  induction ran with
  | refl =>
      rw [Upload.todo, fresh] at queued
      cases queued
  | @tail before after event reached permitted stepped ih =>
      have later : .publish level .finalDrain ∈ before.2.todo →
          ∃ found, Drained start level found after := by
        intro earlier
        obtain ⟨found, first, second, reading, reads, since⟩ := ih earlier
        exact ⟨found, first, second, reading, reads, since.andThen event permitted stepped⟩
      have effect := uploadStep_effect stepped
      obtain ⟨objects, upload⟩ := before
      obtain ⟨objects', upload'⟩ := after
      dsimp only at effect queued later
      cases effect with
      | wrote | ended | stopped | abandoned | dropped => exact later queued
      | ticked mode asleep timely =>
          rw [todo_withPhase_settle] at queued
          obtain ⟨_, _, same⟩ := mem_tick.mp queued
          cases same
      | failed => cases queued
      | acted mode action rest more _ after working performed =>
          have todo := todo_of_working working
          rw [todo_withPhase_settle] at queued
          rcases List.mem_append.mp queued with inside | behind
          · cases performed with
            | queued known tierMode files listed =>
                rcases mem_tierActions inside with ⟨_, _, same | same⟩ | same
                · cases same
                · cases same
                · cases same
                  refine ⟨scanSegments files, _, _, reached, ⟨⟨event, stepped⟩, files, rest, todo,
                    listed, rfl, todo_withPhase_settle _ _ _⟩, .refl⟩
            | recorded known file _ _ fresh stored recorded =>
                rcases recorded.shape with rfl | ⟨_, rfl⟩ <;> simp at inside
            | idle | published | mastered => cases inside
          · exact later (by rw [todo]; exact List.mem_cons_of_mem _ behind)

/-! ## The playlists of a run -/

/-- A tier's playlist lists segments that are stored beside it, each once. -/
def Consistent (objects : Objects) (location : String) : Prop :=
  ∀ playlist, StoredText objects location playlist →
    (uris playlist).Nodup ∧ ∀ uri ∈ uris playlist, (objects.find? (resolve location uri)).isSome

/-- What holds when a run that began in `start` stores a tier's playlist. -/
structure Republished (start before after : Objects × Upload) (level : QualityLevel)
    (location playlist : String) : Prop where
  stored : StoredText after.1 location playlist
  grows : Untouched start.1 before.1 before.2 level ∨
    ∃ older, StoredText before.1 location older ∧ uris older <+: uris playlist ∧ ¬ closed older
  drained : closed playlist → ∃ found, Drained start level found before
  complete : closed playlist → ∀ found, Drained start level found before →
    ∀ filename ∈ found, filename ∈ uris playlist ∧
      (before.1.find? (resolve location filename)).isSome

def playlistLocation (id : VideoId) (level : QualityLevel) : String :=
  (OutputPath.tier level PLAYLIST_FILENAME).key (storagePrefix id)

/-- What holds of a run and of the playlists it has stored. -/
structure Publishing (levels : List QualityLevel) (home : String) (initial objects : Objects)
    (upload : Upload) : Prop where
  uploading : Uploading levels home objects upload
  orderly : Orderly upload
  traced : Traced initial objects upload

theorem Publishing.start (objects : Objects) (home : String) (levels : List QualityLevel)
    (hasAudio : Bool) : Publishing levels home objects objects (.start home levels hasAudio) :=
  ⟨.start _ _ _ _, ⟨List.Pairwise.nil, nofun⟩, .start _ _ _ _⟩

theorem Publishing.step {home : String} (distinct : levels.Nodup)
    (publishing : Publishing levels home initial objects upload)
    (effect : UploadEffect objects upload reached after) :
    Publishing levels home initial reached after where
  uploading := publishing.uploading.step distinct effect
  orderly := publishing.orderly.step
    (publishing.uploading.supplied.configured ▸ distinct) effect
  traced := publishing.traced.step publishing.uploading.sound.named publishing.orderly effect

theorem publishing_of_reaches {id : VideoId} {hasAudio : Bool} {world : Objects × Upload}
    (distinct : levels.Nodup)
    (ran : Reaches transcodeStep Anything (transcodeStart objects id levels hasAudio) world) :
    Publishing levels (storagePrefix id) objects world.1 world.2 := by
  refine ran.preserves
    (fun world => Publishing levels (storagePrefix id) objects world.1 world.2)
    (.start _ _ _ _) ?_
  intro before after event publishing _ stepped
  exact publishing.step distinct (uploadStep_effect stepped)

section Publishing

variable {home : String} {level : QualityLevel}

theorem Publishing.plain (publishing : Publishing levels home initial objects upload)
    {listed : List String} (grows : listed <+: upload.segments level) :
    ∀ filename ∈ listed, PlainName filename := fun filename member =>
  (publishing.uploading.sound.named.segments level filename (grows.subset member)).plain

theorem Publishing.location (publishing : Publishing levels home initial objects upload) :
    upload.key (.tier level PLAYLIST_FILENAME) =
      (OutputPath.tier level PLAYLIST_FILENAME).key home := by
  rw [Upload.key, publishing.uploading.location]

/-- Where the segments of a tier are found from its playlist. -/
theorem Publishing.beside (publishing : Publishing levels home initial objects upload)
    {filename : String} (member : filename ∈ upload.segments level) :
    (objects.find? (resolve ((OutputPath.tier level PLAYLIST_FILENAME).key home)
      filename)).isSome := by
  have stored := publishing.uploading.sound.stored.segments level filename member
  rw [Upload.key, publishing.uploading.location] at stored
  rwa [resolve_segment]

/-- The text a run has stored for a tier's playlist. -/
theorem Publishing.text (publishing : Publishing levels home initial objects upload)
    {listed : List String} {finalize : Bool}
    (lists : Lists objects upload level listed finalize) {playlist : String}
    (stored : StoredText objects ((OutputPath.tier level PLAYLIST_FILENAME).key home) playlist) :
    playlist = synthesizeVariantPlaylist listed finalize := by
  obtain ⟨contentType, found⟩ := stored
  have same := lists.found
  rw [publishing.location, found] at same
  cases same
  rfl

theorem Publishing.consistent (publishing : Publishing levels home initial objects upload) :
    Untouched initial objects upload level ∨
      Consistent objects ((OutputPath.tier level PLAYLIST_FILENAME).key home) := by
  refine (publishing.traced.playlists level).imp_right ?_
  rintro ⟨listed, finalize, lists⟩ playlist stored
  rw [publishing.text lists stored, uris_variantPlaylist _ (publishing.plain lists.grows)]
  exact ⟨(publishing.traced.distinct level).sublist lists.grows.sublist,
    fun filename member => publishing.beside (lists.grows.subset member)⟩

/-- A playlist from before the run stays as consistent as it was. -/
theorem Untouched.consistent (untouched : Untouched initial objects upload level)
    {location : String} (same : upload.key (.tier level PLAYLIST_FILENAME) = location)
    (stays : ∀ wanted, (initial.find? wanted).isSome → (objects.find? wanted).isSome)
    (was : Consistent initial location) : Consistent objects location := by
  rintro playlist ⟨contentType, found⟩
  have older := untouched.found
  rw [same, found] at older
  obtain ⟨once, listed⟩ := was playlist ⟨contentType, older.symm⟩
  exact ⟨once, fun uri member => stays _ (listed uri member)⟩

/-- A closed playlist of the run's own shuts its tier. -/
theorem Publishing.shut (publishing : Publishing levels home initial objects upload)
    {playlist : String}
    (stored : StoredText objects ((OutputPath.tier level PLAYLIST_FILENAME).key home) playlist)
    (ended : closed playlist) : Untouched initial objects upload level ∨ Shut upload level := by
  refine (publishing.traced.playlists level).imp_right ?_
  rintro ⟨listed, finalize, lists⟩
  rw [publishing.text lists stored] at ended
  cases finalize with
  | true => exact lists.shut rfl
  | false => exact absurd ended (not_closed_variantPlaylist (publishing.plain lists.grows))

/-- A shut tier keeps its playlist. -/
theorem Shut.keeps (named : Named upload) (shut : Shut upload level)
    (effect : UploadEffect objects upload reached after) :
    reached.find? (upload.key (.tier level PLAYLIST_FILENAME)) =
      objects.find? (upload.key (.tier level PLAYLIST_FILENAME)) := by
  rcases effect.playlist named level with ⟨found, _⟩ | ⟨mode, publishes⟩
  · exact found
  · exact absurd shut publishes.open

theorem Publishing.republished (start : Objects × Upload) {before after : Objects × Upload}
    (publishing : Publishing levels home start.1 before.1 before.2)
    (fresh : start.2.uploader.phase = .sleeping)
    (ran : Reaches transcodeStep Anything start before)
    (effect : UploadEffect before.1 before.2 after.1 after.2)
    {mode : TickMode} (publishes : Publishes before.1 before.2 after.1 after.2 level mode) :
    Republished start before after level ((OutputPath.tier level PLAYLIST_FILENAME).key home)
      (synthesizeVariantPlaylist (before.2.segments level) (decide (mode = .finalDrain))) := by
  have plain : ∀ filename ∈ before.2.segments level, PlainName filename :=
    publishing.plain List.prefix_rfl
  have lists := publishes.lists publishing.orderly effect
  obtain ⟨rest, todo, _⟩ := publishes.turn
  have queued : .publish level mode ∈ before.2.todo := by
    rw [todo]
    exact List.mem_cons_self
  have final : closed (synthesizeVariantPlaylist (before.2.segments level)
      (decide (mode = .finalDrain))) → mode = .finalDrain := by
    intro ended
    cases mode with
    | finalDrain => rfl
    | running => exact absurd ended (not_closed_variantPlaylist plain)
  refine ⟨?_, ?_, ?_, ?_⟩
  · have found := lists.found
    rw [effect.key, publishing.location] at found
    exact ⟨_, found⟩
  · refine (publishing.traced.playlists level).imp_right ?_
    rintro ⟨listed, finalize, older⟩
    cases finalize with
    | true => exact absurd (older.shut rfl) publishes.open
    | false =>
        have listedPlain := publishing.plain older.grows
        have found := older.found
        rw [publishing.location] at found
        refine ⟨_, ⟨_, found⟩, ?_, not_closed_variantPlaylist listedPlain⟩
        rw [uris_variantPlaylist _ listedPlain, uris_variantPlaylist _ plain]
        exact older.grows
  · intro ended
    obtain rfl := final ended
    exact drained_of_queued fresh ran queued
  · intro ended found drained filename member
    obtain rfl := final ended
    have uploaded : filename ∈ before.2.segments level := by
      rcases drained.owed with ⟨error, gaveUp⟩ | owed
      · rw [Upload.todo, gaveUp] at queued
        cases queued
      refine (owed filename member).resolve_right fun waits => ?_
      have apart := publishing.orderly.apart
      rw [todo] at apart waits
      rcases List.mem_cons.mp waits with same | behind
      · cases same
      · exact (List.pairwise_cons.mp apart).1 _ behind level rfl rfl
    rw [uris_variantPlaylist _ plain]
    exact ⟨uploaded, publishing.beside uploaded⟩

end Publishing

/-- At every point of a run, the playlist a tier has in storage lists stored segments
only, each once, also if it is one from before the run that did so then.  Every further
playlist extends the one before; one is closed only after everything that the final
tick found in the tier's directory was stored, and is then kept for the rest of the
run. -/
theorem playlists_consistent {raw : String} {objects : Objects} {id : VideoId} {hasAudio : Bool}
    {before : Objects × Upload}
    (ran : Reaches transcodeStep Anything
      (transcodeStart objects id (parseQualityTiers raw) hasAudio) before)
    (level : QualityLevel) :
    (Untouched objects before.1 before.2 level ∨
      Consistent before.1 (playlistLocation id level)) ∧
    (Consistent objects (playlistLocation id level) →
      Consistent before.1 (playlistLocation id level)) ∧
    (∀ event after, transcodeStep before event = some after →
      after.1.find? (playlistLocation id level) ≠ before.1.find? (playlistLocation id level) →
      ∃ playlist, Republished (transcodeStart objects id (parseQualityTiers raw) hasAudio)
        before after level (playlistLocation id level) playlist) ∧
    ∀ playlist later, StoredText before.1 (playlistLocation id level) playlist →
      closed playlist → ¬ Untouched objects before.1 before.2 level →
      Reaches transcodeStep Anything before later →
      later.1.find? (playlistLocation id level) = before.1.find? (playlistLocation id level) := by
  have distinct := parseQualityTiers_nodup raw
  have publishing := publishing_of_reaches distinct ran
  refine ⟨publishing.consistent, fun was => ?_, ?_, ?_⟩
  · rcases publishing.consistent with untouched | consistent
    · refine untouched.consistent publishing.location (fun wanted there => ?_) was
      refine ran.preserves (fun world => (world.1.find? wanted).isSome) there ?_
      exact fun there _ stepped => (uploadStep_effect stepped).stays there
    · exact consistent
  · intro event after stepped changed
    have effect := uploadStep_effect stepped
    rcases effect.playlist publishing.uploading.sound.named level with ⟨same, _⟩ | ⟨mode, publishes⟩
    · rw [publishing.location] at same
      exact absurd same changed
    · exact ⟨_, publishing.republished (transcodeStart objects id _ hasAudio) rfl ran effect
        publishes⟩
  · intro playlist later stored ended touched since
    have shut := (publishing.shut stored ended).resolve_left touched
    have kept := since.preserves (fun world =>
        Reaches transcodeStep Anything
          (transcodeStart objects id (parseQualityTiers raw) hasAudio) world ∧
        Shut world.2 level ∧
        world.1.find? (playlistLocation id level) = before.1.find? (playlistLocation id level))
      ⟨ran, shut, rfl⟩ ?_
    · exact kept.2.2
    · rintro earlier next event ⟨reached, shut, same⟩ permitted stepped
      have effect := uploadStep_effect stepped
      have publishing := publishing_of_reaches distinct reached
      have keeps := shut.keeps publishing.uploading.sound.named effect
      rw [publishing.location] at keeps
      exact ⟨reached.andThen event permitted stepped, shut.step effect, keeps.trans same⟩

/-- The text of a stored playlist. -/
def playlistText (objects : Objects) (location : String) : Option String :=
  match objects.find? location with
  | some ⟨_, _, .text text⟩ => some text
  | _ => none

theorem playlistText_stored {objects : Objects} {location playlist : String}
    (stored : StoredText objects location playlist) :
    playlistText objects location = some playlist := by
  obtain ⟨contentType, found⟩ := stored
  unfold playlistText
  rw [found]

/-- The drain of a run with two tiers closes the playlist of the high one. -/
theorem playlists_consistent_twoTiers : ∃ (before after later : Objects × Upload)
    (playlist : String),
    Reaches transcodeStep Anything
      (transcodeStart .empty ⟨.ofNat 7⟩ (parseQualityTiers "high, low,high") true) before ∧
    transcodeStep before (.act .none true) = some after ∧
    Reaches transcodeStep Anything after later ∧
    Consistent before.1 (playlistLocation ⟨.ofNat 7⟩ .high) ∧
    Republished (transcodeStart .empty ⟨.ofNat 7⟩ (parseQualityTiers "high, low,high") true)
      before after .high (playlistLocation ⟨.ofNat 7⟩ .high) playlist ∧
    closed playlist ∧
    later.1.find? (playlistLocation ⟨.ofNat 7⟩ .high) =
      after.1.find? (playlistLocation ⟨.ofNat 7⟩ .high) := by
  have passed : ((run transcodeStep Anything (transcodeStart .empty ⟨.ofNat 7⟩
      (parseQualityTiers "high, low,high") true)
      (twoTiers ++ List.replicate 5 (.act .none true))).map fun before =>
        (before.2.published .high).isSome &&
        (transcodeStep before (.act .none true)).any fun after =>
          (after.2.published .high).isSome &&
          ((playlistText after.1 (playlistLocation ⟨.ofNat 7⟩ .high)).any fun text =>
            decide (playlistText before.1 (playlistLocation ⟨.ofNat 7⟩ .high) ≠ some text) &&
            decide ((textLines text).getLast? = some "#EXT-X-ENDLIST")) &&
          (run transcodeStep Anything after (List.replicate 4 (.act .none true))).isSome) =
      some true := by decide +kernel
  obtain ⟨before, ran, checked⟩ := reaches_of_check _ passed
  obtain ⟨published, stepPassed⟩ := Bool.and_eq_true_iff.mp checked
  obtain ⟨after, stepped, afterPassed⟩ := (Option.any_eq_true _ _).mp stepPassed
  simp only [Bool.and_eq_true, Option.any_eq_true, decide_eq_true_eq] at afterPassed
  obtain ⟨⟨publishedAfter, text, written, changed, ended⟩, goesOn⟩ := afterPassed
  obtain ⟨later, rest⟩ := Option.isSome_iff_exists.mp goesOn
  have since := reaches_of_run _ rest
  obtain ⟨consistent, _, republished, _⟩ := playlists_consistent ran .high
  have different : after.1.find? (playlistLocation ⟨.ofNat 7⟩ .high) ≠
      before.1.find? (playlistLocation ⟨.ofNat 7⟩ .high) := by
    intro same
    apply changed
    rw [← written, playlistText, playlistText, same]
  obtain ⟨playlist, republished⟩ := republished _ after stepped different
  obtain rfl : text = playlist :=
    Option.some.inj (written.symm.trans (playlistText_stored republished.stored))
  have ranAfter := ran.andThen (.act .none true) trivial stepped
  have kept := (playlists_consistent ranAfter .high).2.2.2 text later republished.stored ended
    (fun untouched => by rw [untouched.unpublished] at publishedAfter; cases publishedAfter) since
  refine ⟨before, after, later, text, ran, stepped, since, consistent.resolve_left ?_,
    republished, ended, kept⟩
  intro untouched
  rw [untouched.unpublished] at published
  cases published

end Benri.Transcoder
