import Benri.Service.Immutable
import Benri.Transcoder.Published

namespace Benri.Service

open Benri.Data Benri.Domain Benri.Postgres Benri.Storage Benri.Transcoder Benri.Transition

/-! # The playlists of a video

Whatever the rest of the service does, a tier's playlist is made from the list of what
the video's one uploader has stored in it.  That list only grows, also when a deletion
takes the playlist away meanwhile, and the closed playlist is the last.
-/

/-- The uploader deals in the pipeline's names, and closes a tier last. -/
structure WellRun (upload : Upload) : Prop where
  named : Named upload
  orderly : Orderly upload
  distinct : upload.uploader.qualityLevels.Nodup

theorem wellRun_invariant : UploadInvariant fun _ => WellRun where
  start _ _ raw _ :=
    ⟨.start _ _ _, ⟨List.Pairwise.nil, fun _ member => absurd member List.not_mem_nil⟩,
      parseQualityTiers_nodup raw⟩
  flags _ holds :=
    ⟨⟨holds.named.segments, holds.named.files, holds.named.queued⟩,
      ⟨holds.orderly.apart, holds.orderly.final⟩, holds.distinct⟩
  step holds effect :=
    ⟨holds.named.step effect, holds.orderly.step holds.distinct effect,
      effect.qualityLevels ▸ holds.distinct⟩

/-! ## What a playlist was made from -/

def playlistObject (id : VideoId) (level : QualityLevel) (listed : List String)
    (finalize : Bool) : Object :=
  ⟨playlistLocation id level, HLS_CONTENT_TYPE, .text (synthesizeVariantPlaylist listed finalize)⟩

/-- A playlist of these segments. -/
structure Spells (id : VideoId) (level : QualityLevel) (listed : List String) (finalize : Bool)
    (object : Object) : Prop where
  shape : object = playlistObject id level listed finalize
  segments : ∀ filename ∈ listed, IsSegment filename

/-- The video's uploader has stored at least this much of the tier, and is done with the
tier if the playlist was closed. -/
structure Backs (id : VideoId) (level : QualityLevel) (listed : List String) (finalize : Bool)
    (owner : VideoId) (upload : Upload) : Prop where
  mine : owner = id
  grows : listed <+: upload.segments level
  shut : finalize = true → Shut upload level

variable {id : VideoId} {level : QualityLevel} {listed : List String} {finalize : Bool}

theorem backs_fact : UploadFact (Backs id level listed finalize) where
  flags _ backs := ⟨backs.mine, backs.grows, fun final =>
    ⟨(backs.shut final).last, (backs.shut final).quiet⟩⟩
  step backs effect := ⟨backs.mine, backs.grows.trans (effect.segments_grow level),
    fun final => (backs.shut final).step effect⟩

theorem Spells.uris {listed : List String} {finalize : Bool} {playlist : Object}
    (spells : Spells id level listed finalize playlist) :
    ∃ text, playlist.body = .text text ∧ uris text = listed ∧ (closed text → finalize = true) := by
  have plain : ∀ filename ∈ listed, PlainName filename := fun filename member =>
    (spells.segments filename member).plain
  refine ⟨_, by rw [spells.shape]; rfl, uris_variantPlaylist finalize plain, fun ended => ?_⟩
  cases finalize with
  | true => rfl
  | false => exact absurd ended (not_closed_variantPlaylist plain)

/-! ## What a step does to a playlist -/

theorem playlistLocation_output (id : VideoId) (level : QualityLevel) :
    under OUTPUT_PREFIX (playlistLocation id level) = true := by
  simp [under, OUTPUT_PREFIX, playlistLocation, OutputPath.key, storagePrefix]

variable {before after : State} {event : Event}

/-- A step leaves a tier's playlist alone, deletes it, or stores what the uploader makes
of all the tier's segments. -/
inductive PlaylistEffect (id : VideoId) (level : QualityLevel) (before after : State) : Prop where
  | kept (same : after.stores.objects.find? (playlistLocation id level) =
      before.stores.objects.find? (playlistLocation id level))
  | gone (absent : after.stores.objects.find? (playlistLocation id level) = none)
  | stored (execution : Execution) (upload : Upload) (member : execution ∈ before.executions)
      (uploading : execution.upload = some upload) (mine : execution.id = id) (mode : TickMode)
      (made : SomeUpload
        (Backs id level (upload.segments level) (decide (mode = .finalDrain))) after)
      (unshut : ¬ Shut upload level) (object : Object)
      (spells : Spells id level (upload.segments level) (decide (mode = .finalDrain)) object)
      (found : after.stores.objects.find? (playlistLocation id level) = some object)

theorem Effect.playlist (effect : Effect before event after) (snapshots : Snapshots before)
    (wellRun : EveryUpload (fun _ => WellRun) before) (id : VideoId) (level : QualityLevel) :
    PlaylistEffect id level before after := by
  cases found : after.stores.objects.find? (playlistLocation id level) with
  | none => exact .gone found
  | some object =>
      rcases effect.output_origin (playlistLocation_output id level) found with
        there | ⟨index, execution, upload, next, uploadEvent, turn⟩
      · exact .kept (found.trans there.symm)
      · have member := List.mem_of_getElem? turn.slot
        have home := ((snapshots.executions execution member).uploading upload turn.uploading).2
        have holds := wellRun execution member upload turn.uploading
        have step := uploadStep_effect turn.stepped
        by_cases mine : execution.id = id
        · subst mine
          have location : upload.key (.tier level PLAYLIST_FILENAME) =
              playlistLocation execution.id level := by
            rw [Upload.key, home, playlistLocation]
          rcases step.playlist holds.named level with ⟨same, _⟩ | ⟨mode, publishes⟩
          · rw [location] at same
            exact .kept same
          · obtain ⟨bound, _⟩ := List.getElem?_eq_some_iff.mp turn.slot
            have inside : { execution with upload := some next } ∈ after.executions := by
              rw [turn.executions]
              exact List.mem_set bound _
            refine .stored execution upload member turn.uploading rfl mode
              ⟨_, inside, next, rfl, rfl, ?_, ?_⟩ publishes.open _
              ⟨rfl, holds.named.segments level⟩ ?_
            · exact publishes.segments ▸ List.prefix_rfl
            · intro final
              obtain rfl := of_decide_eq_true final
              exact publishes.shut holds.orderly
            · have put : (upload.playlistObject level mode) = playlistObject execution.id level
                  (upload.segments level) (decide (mode = .finalDrain)) := by
                rw [Upload.playlistObject, location, playlistObject]
              rw [publishes.stored, ← put, ← location]
              exact Table.find?_put_self _ (upload.playlistObject level mode)
        · refine .kept ((step.elsewhere fun path same => mine ?_))
          have covered := under_key (.tier level PLAYLIST_FILENAME) id id
          rw [playlistLocation, Upload.key, home] at same
          rw [same, under_key, decide_eq_decide] at covered
          exact (covered.mpr rfl).symm

/-! ## Playlists extend each other -/

/-- A playlist that was read at some time, and what can be read from now on. -/
structure Tracked (id : VideoId) (level : QualityLevel) (listed : List String) (finalize : Bool)
    (state : State) : Prop where
  made : SomeUpload (Backs id level listed finalize) state
  ahead : ∀ newer, state.stores.objects.find? (playlistLocation id level) = some newer →
    ∃ more final, Spells id level more final newer ∧ listed <+: more ∧
      (finalize = true → more = listed ∧ final = true)

/-- What is stored as a playlist is one, and has its uploader. -/
def Published (id : VideoId) (level : QualityLevel) (state : State) : Prop :=
  ∀ object, state.stores.objects.find? (playlistLocation id level) = some object →
    ∃ listed finalize, Spells id level listed finalize object ∧
      SomeUpload (Backs id level listed finalize) state

theorem Published.step (published : Published id level before) (snapshots : Snapshots before)
    (wellRun : EveryUpload (fun _ => WellRun) before) (effect : Effect before event after) :
    Published id level after := by
  intro object found
  cases effect.playlist snapshots wellRun id level with
  | kept same =>
      obtain ⟨listed, finalize, spells, made⟩ := published object (same ▸ found)
      exact ⟨listed, finalize, spells, made.step backs_fact snapshots effect⟩
  | gone absent =>
      rw [absent] at found
      cases found
  | stored execution upload member uploading mine mode made unshut other spells stored =>
      obtain rfl := Option.some.inj (stored.symm.trans found)
      exact ⟨_, _, spells, made⟩

/-- Reading a playlist. -/
theorem Published.tracked {state : State} (published : Published id level state) {object : Object}
    (found : state.stores.objects.find? (playlistLocation id level) = some object) :
    ∃ listed finalize, Spells id level listed finalize object ∧
      Tracked id level listed finalize state := by
  obtain ⟨listed, finalize, spells, made⟩ := published object found
  refine ⟨listed, finalize, spells, made, fun newer there => ?_⟩
  obtain rfl := Option.some.inj (there.symm.trans found)
  exact ⟨listed, finalize, spells, List.prefix_rfl, fun final => ⟨rfl, final⟩⟩

theorem Tracked.step (tracked : Tracked id level listed finalize before) (served : Served before)
    (wellRun : EveryUpload (fun _ => WellRun) before) (effect : Effect before event after) :
    Tracked id level listed finalize after := by
  refine ⟨tracked.made.step backs_fact served.snapshots effect, fun newer found => ?_⟩
  cases effect.playlist served.snapshots wellRun id level with
  | kept same => exact tracked.ahead newer (same ▸ found)
  | gone absent =>
      rw [absent] at found
      cases found
  | stored execution upload member uploading mine mode made unshut object spells stored =>
      obtain rfl := Option.some.inj (stored.symm.trans found)
      obtain ⟨other, inside, otherUpload, there, backs⟩ := tracked.made
      have claimed : ∀ {one : Execution} {its : Upload}, one ∈ before.executions →
          one.upload = some its → one.claimed = true := fun inside there =>
        ((served.snapshots.executions _ inside).uploading _ there).1
      obtain rfl : execution = other := (served.claims.once id).eq member inside
        ⟨claimed member uploading, mine⟩ ⟨claimed inside there, backs.mine⟩
      obtain rfl := Option.some.inj (uploading.symm.trans there)
      exact ⟨_, _, spells, backs.grows, fun final => absurd (backs.shut final) unshut⟩

end Benri.Service
