import Benri.Transcoder.Published
import Benri.Transition.History

namespace Benri.Transcoder

open Benri.Data Benri.Domain Benri.Storage Benri.Transition

/-! # Playlists that are not stored again

`publish_variant_playlist_if_changed` compares texts: the playlist it would store with
the one it remembers.  What was stored is a list of segments and whether the list was
closed, and a run remembers the last such pair here.  Two pairs never have the same
text, so that comparing the texts is comparing the pairs.
-/

/-- What a variant playlist is made from. -/
structure Listing where
  segments : List String
  finalize : Bool
deriving DecidableEq, Repr

def Listing.text (listing : Listing) : String :=
  synthesizeVariantPlaylist listing.segments listing.finalize

/-- No segment name breaks its line. -/
def Listing.Single (listing : Listing) : Prop := ∀ name ∈ listing.segments, '\n' ∉ name.toList

theorem Listing.text_injOn : Set.InjOn Listing.text {listing | listing.Single} := by
  intro left leftSingle right rightSingle same
  obtain ⟨segments, finalize⟩ := synthesizeVariantPlaylist_injective leftSingle rightSingle same
  cases left
  cases right
  cases segments
  cases finalize
  rfl

/-- What a call would make a tier's playlist from. -/
def Upload.listing (upload : Upload) (level : QualityLevel) (mode : TickMode) : Listing :=
  ⟨upload.segments level, decide (mode = .finalDrain)⟩

/-- A run gives its uploader up with the first error, and no further call is made. -/
def Upload.Alive (upload : Upload) : Prop :=
  ∀ error, upload.uploader.phase ≠ .returned (.error error)

variable {objects reached : Objects} {upload after : Upload} {level : QualityLevel}
  {mode : TickMode}

/-! ## One call -/

/-- A call that leaves everything as it is, and that no fault of the storage reaches. -/
def Skips (objects : Objects) (upload : Upload) (level : QualityLevel) (mode : TickMode) : Prop :=
  ∀ fault, publishVariantPlaylistIfChanged objects upload fault level mode =
    ⟨objects, upload, .ok []⟩

theorem skips_iff : Skips objects upload level mode ↔ Idle upload (.publish level mode) := by
  constructor
  · intro skips
    by_contra changed
    have lost : publishVariantPlaylistIfChanged objects upload (.error false "") level mode = _ :=
      (publish_changed changed).2 false ""
    rw [skips] at lost
    cases lost
  · exact publish_idle

instance : Decidable (Skips objects upload level mode) :=
  decidable_of_iff (upload.segments level = [] ∨
    upload.published level = some (upload.listing level mode).text) skips_iff.symm

/-! ## The last playlist stored -/

/-- What a step stores for a tier: one of its calls does, unless it skips or is lost. -/
def storedListing (level : QualityLevel) (world : Objects × Upload) : UploadEvent → Option Listing
  | .act fault _ =>
      match world.2.todo with
      | .publish wanted mode :: _ =>
          if wanted = level ∧ fault.applies ∧ ¬ Skips world.1 world.2 level mode then
            some (world.2.listing level mode)
          else none
      | _ => none
  | _ => none

def noteStored (level : QualityLevel) (world : Objects × Upload) (event : UploadEvent)
    (last : Option Listing) : Option Listing :=
  (storedListing level world event).or last

/-- Some run leads from `start` to `world`, and what it stored last for the tier is `last`. -/
def LastStored (start : Objects × Upload) (level : QualityLevel) (world : Objects × Upload)
    (last : Option Listing) : Prop :=
  Recalls transcodeStep Anything (noteStored level) (start, none) world last

/-! ## One step -/

/-- An uploader that has failed does not come back. -/
theorem UploadEffect.alive (effect : UploadEffect objects upload reached after)
    (alive : after.Alive) : upload.Alive := by
  cases effect with
  | wrote | ended | stopped | abandoned | dropped => exact alive
  | ticked mode asleep timely =>
      intro error
      rw [asleep]
      nofun
  | acted mode action rest more _ _ working | failed mode action rest _ _ working =>
      intro error
      rw [working]
      nofun

theorem working_of_todo {action : Action} {rest : List Action}
    (todo : upload.todo = action :: rest) :
    ∃ mode, upload.uploader.phase = .working mode (action :: rest) := by
  unfold Upload.todo at todo
  split at todo
  · rename_i mode actions working
    exact ⟨mode, todo ▸ working⟩
  · cases todo
  · cases todo

section Step

variable {before next : Objects × Upload} {event : UploadEvent}

/-- Only a call of the tier's own stores its playlist. -/
theorem call_of_stored {listing : Listing}
    (stored : storedListing level before event = some listing) :
    ∃ fault removed mode rest, event = .act fault removed ∧
      before.2.todo = .publish level mode :: rest ∧ fault.applies = true ∧
      ¬ Skips before.1 before.2 level mode ∧ listing = before.2.listing level mode := by
  unfold storedListing at stored
  split at stored
  · rename_i fault removed
    split at stored
    · rename_i wanted mode rest todo
      split at stored
      · rename_i calls
        obtain ⟨rfl, applies, changed⟩ := calls
        cases stored
        exact ⟨fault, removed, mode, rest, rfl, todo, applies, changed, rfl⟩
      · cases stored
    · cases stored
  · cases stored

/-- What is stored is what the call was made for, and a call that does not fail
remembers it. -/
theorem stored_step {listing : Listing} (stored : storedListing level before event = some listing)
    (stepped : transcodeStep before event = some next) :
    ∃ mode, listing = before.2.listing level mode ∧
      next.1 = before.1.put (before.2.playlistObject level mode) ∧
      (next.2.Alive → next.2.published level = some listing.text) := by
  obtain ⟨fault, removed, mode, rest, rfl, todo, applies, changed, rfl⟩ := call_of_stored stored
  rw [skips_iff] at changed
  obtain ⟨tickMode, working⟩ := working_of_todo todo
  refine ⟨mode, rfl, ?_⟩
  cases fault with
  | none =>
      simp only [transcodeStep, uploadStep, actStep, working, perform,
        (publish_changed changed).1, Option.some.injEq] at stepped
      rw [← stepped]
      refine ⟨rfl, fun _ => ?_⟩
      change (before.2.recordPlaylist level mode).published level = _
      simp only [Upload.published, Upload.recordPlaylist, Upload.withState, PerTier.get_set,
        if_true]
      rfl
  | error applied message =>
      obtain rfl : applied = true := applies
      simp only [transcodeStep, uploadStep, actStep, working, perform,
        (publish_changed changed).2, Option.some.injEq] at stepped
      rw [← stepped]
      exact ⟨rfl, fun alive => absurd rfl (alive _)⟩

/-- Where nothing is stored, storage and what is remembered of it stay as they are. -/
theorem silent_step (named : Named before.2) (silent : storedListing level before event = none)
    (stepped : transcodeStep before event = some next) :
    next.1.find? (before.2.key (.tier level PLAYLIST_FILENAME)) =
        before.1.find? (before.2.key (.tier level PLAYLIST_FILENAME)) ∧
      next.2.published level = before.2.published level := by
  obtain ⟨objects, upload⟩ := before
  obtain ⟨reached, after⟩ := next
  cases uploadStep_move stepped with
  | write | endPipeline | stop | abandon | dropDisk | tick | drain => exact ⟨rfl, rfl⟩
  | act fault removed _ _ acted =>
      rcases (actStep_effect acted).playlist named level with same | ⟨mode, publishes⟩
      · exact same
      · obtain ⟨rest, todo, _⟩ := publishes.turn
        dsimp only at todo
        obtain ⟨tickMode, working⟩ := working_of_todo todo
        simp only [storedListing, todo, true_and, ite_eq_right_iff, reduceCtorEq, imp_false,
          not_and, not_not] at silent
        by_cases skips : Skips objects upload level mode
        · simp only [actStep, working, perform, skips fault, Option.some.injEq,
            Prod.mk.injEq] at acted
          obtain ⟨rfl, rfl⟩ := acted
          exact ⟨rfl, rfl⟩
        · cases fault with
          | none => exact absurd (silent rfl) skips
          | error applied message =>
              obtain rfl : applied = false :=
                Bool.eq_false_iff.mpr fun applies => skips (silent applies)
              rw [skips_iff] at skips
              simp only [actStep, working, perform, (publish_changed skips).2,
                Option.some.injEq, Prod.mk.injEq] at acted
              obtain ⟨rfl, rfl⟩ := acted
              exact ⟨rfl, rfl⟩

end Step

/-! ## A run -/

/-- What a run remembers of a tier, what it has in storage, and what it stored last. -/
structure Kept (start : Objects × Upload) (level : QualityLevel) (world : Objects × Upload)
    (last : Option Listing) : Prop where
  named : Named world.2
  location : world.2.uploader.outputPrefix = start.2.uploader.outputPrefix
  single : ∀ listing ∈ last, listing.Single
  found : world.1.find? (start.2.key (.tier level PLAYLIST_FILENAME)) =
    (last.map fun listing => (⟨start.2.key (.tier level PLAYLIST_FILENAME), HLS_CONTENT_TYPE,
      .text listing.text⟩ : Object)).or
      (start.1.find? (start.2.key (.tier level PLAYLIST_FILENAME)))
  remembered : world.2.Alive → world.2.published level = last.map Listing.text

theorem Kept.step {start before next : Objects × Upload} {event : UploadEvent}
    {last : Option Listing} (kept : Kept start level before last)
    (stepped : transcodeStep before event = some next) :
    Kept start level next (noteStored level before event last) := by
  have effect : UploadEffect before.1 before.2 next.1 next.2 := uploadStep_effect stepped
  have keys : before.2.key = start.2.key := funext fun path => by
    rw [Upload.key, Upload.key, kept.location]
  have named := kept.named.step effect
  have location := effect.outputPrefix.trans kept.location
  unfold noteStored
  cases stored : storedListing level before event with
  | none =>
      obtain ⟨found, published⟩ := silent_step kept.named stored stepped
      rw [keys] at found
      rw [Option.none_or]
      refine ⟨named, location, kept.single, found.trans kept.found, fun alive => ?_⟩
      rw [published]
      exact kept.remembered (effect.alive alive)
  | some listing =>
      obtain ⟨mode, rfl, put, remembered⟩ := stored_step stored stepped
      rw [Option.some_or]
      refine ⟨named, location, ?_, ?_, remembered⟩
      · intro listing same name member
        cases same
        exact (kept.named.segments level name member).plain.single
      · rw [put, ← keys]
        exact Table.find?_put_self before.1 (before.2.playlistObject level mode)

theorem Kept.skips_iff {start world : Objects × Upload} {last : Option Listing}
    (kept : Kept start level world last) (alive : world.2.Alive) (mode : TickMode) :
    Skips world.1 world.2 level mode ↔
      world.2.segments level = [] ∨ last = some (world.2.listing level mode) := by
  have single : (world.2.listing level mode).Single := fun name member =>
    (kept.named.segments level name member).plain.single
  rw [Transcoder.skips_iff, Idle, kept.remembered alive]
  refine or_congr_right ?_
  constructor
  · intro same
    obtain ⟨listing, rfl, text⟩ := Option.map_eq_some_iff.mp same
    rw [Listing.text_injOn (kept.single listing rfl) single text]
  · rintro rfl
    rfl

/-- A call skips if and only if it has no segments or would store the last playlist again. -/
structure Exact (world : Objects × Upload) (level : QualityLevel) (last : Option Listing) :
    Prop where
  skips : ∀ mode, Skips world.1 world.2 level mode ↔
    world.2.segments level = [] ∨ last = some (world.2.listing level mode)
  segment : ∀ mode, ∀ name ∈ world.2.segments level,
    (∀ listing ∈ last, name ∉ listing.segments) → ¬ Skips world.1 world.2 level mode
  ending : world.2.segments level ≠ [] → (∀ listing ∈ last, listing.finalize = false) →
    ¬ Skips world.1 world.2 level .finalDrain

theorem Kept.exact {start world : Objects × Upload} {last : Option Listing}
    (kept : Kept start level world last) (alive : world.2.Alive) : Exact world level last := by
  refine ⟨kept.skips_iff alive, ?_, ?_⟩
  · intro mode name member new skips
    rcases (kept.skips_iff alive mode).mp skips with none | rfl
    · rw [none] at member
      cases member
    · exact new _ rfl member
  · intro filled running skips
    rcases (kept.skips_iff alive .finalDrain).mp skips with none | rfl
    · exact filled none
    · cases running _ rfl

/-- Two playlists with one text list the same segments and are both open or both closed.
At every point of a run, also after an error, storage has the playlist that the run stored
last; and until an error ends the run, the comparison of texts skips exactly that one. -/
theorem publish_skips_exactly {objects : Objects} {id : VideoId} {levels : List QualityLevel}
    {hasAudio : Bool} {world : Objects × Upload}
    (ran : Reaches transcodeStep Anything (transcodeStart objects id levels hasAudio) world)
    (level : QualityLevel) :
    Set.InjOn Listing.text {listing | listing.Single} ∧
    (∃ last, LastStored (transcodeStart objects id levels hasAudio) level world last) ∧
    ∀ last, LastStored (transcodeStart objects id levels hasAudio) level world last →
      world.1.find? (playlistLocation id level) =
        (last.map fun listing => (⟨playlistLocation id level, HLS_CONTENT_TYPE,
          .text listing.text⟩ : Object)).or (objects.find? (playlistLocation id level)) ∧
      (world.2.Alive → Exact world level last) := by
  refine ⟨Listing.text_injOn, ran.recall _ _, fun last stored => ?_⟩
  have kept : Kept (transcodeStart objects id levels hasAudio) level world last := by
    apply stored.preserves (fun world last => Kept _ level world last)
    · exact ⟨.start _ _ _, rfl, nofun, rfl, fun _ => by cases level <;> rfl⟩
    · exact fun kept _ stepped => kept.step stepped
  exact ⟨kept.found, kept.exact⟩

/-- The low tier alone, after its drain: the closed playlist is not stored again, and an
open one would be. -/
theorem publish_skips_exactly_lowOnly : ∃ world,
    Reaches transcodeStep Anything (transcodeStart .empty ⟨.ofNat 7⟩ [.low] true) world ∧
    Skips world.1 world.2 .low .finalDrain ∧ ¬ Skips world.1 world.2 .low .running := by
  have passed : ((run (recalling transcodeStep (noteStored .low)) (permitting Anything)
      (transcodeStart .empty ⟨.ofNat 7⟩ [.low] true, none) (oneSegment .low 6)).map fun world =>
        succeeded [.low] world.1.2 &&
          decide (world.1.2.segments .low = [segmentName 0] ∧
            world.2 = some ⟨[segmentName 0], true⟩)) = some true := by decide
  obtain ⟨⟨world, last⟩, ran, checked⟩ := reaches_of_check _ passed
  obtain ⟨success, shape⟩ := Bool.and_eq_true_iff.mp checked
  obtain ⟨segments, last⟩ := of_decide_eq_true shape
  have stored : LastStored _ .low world _ := ran
  have alive : world.2.Alive := by
    intro error failed
    rw [(succeeded_of_check success).returned] at failed
    cases failed
  have shortcut := ((publish_skips_exactly stored.forget .low).2.2 _ stored).2 alive
  dsimp only at segments last
  refine ⟨world, stored.forget, (shortcut.skips .finalDrain).mpr (.inr ?_), ?_⟩
  · rw [last, Upload.listing, segments]
    rfl
  · rw [shortcut.skips, last, Upload.listing, segments]
    simp

end Benri.Transcoder
