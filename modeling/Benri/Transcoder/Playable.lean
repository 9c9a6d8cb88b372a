import Benri.Transcoder.Drain

namespace Benri.Transcoder

open Benri.Data Benri.Domain Benri.Storage Benri.Transition

/-! # Playable output

An uploader and the storage it writes to, in any interleaving of the pipeline's
writes with the uploader's calls.  Once the final drain has succeeded the output
is playable exactly when the low tier is configured: nothing else opens the gate
to the master.
-/

def transcodeStep (world : Objects × Upload) (event : UploadEvent) : Option (Objects × Upload) :=
  uploadStep world.1 world.2 event

def transcodeStart (objects : Objects) (id : VideoId) (levels : List QualityLevel)
    (hasAudio : Bool) : Objects × Upload :=
  (objects, .start (storagePrefix id) levels hasAudio)

/-- A text stored at a location. -/
def StoredText (objects : Objects) (location text : String) : Prop :=
  ∃ contentType, objects.find? location = some ⟨location, contentType, .text text⟩

/-- What holds of an uploader throughout. -/
structure Uploading (levels : List QualityLevel) (home : String) (objects : Objects)
    (upload : Upload) : Prop where
  location : upload.uploader.outputPrefix = home
  sound : Sound objects upload
  supplied : Supplied levels upload
  opened : Opened upload
  synced : Synced objects upload
  drains : Drains levels upload

variable {levels : List QualityLevel} {home : String} {objects reached : Objects}
  {upload after : Upload}

theorem Uploading.start (objects : Objects) (home : String) (levels : List QualityLevel)
    (hasAudio : Bool) : Uploading levels home objects (.start home levels hasAudio) where
  location := rfl
  sound := .start _ _ _ _
  supplied := .start _ _ _
  opened := .start _ _ _
  synced _ level body published := by cases level <;> cases published
  drains _ actions phase := by cases actions <;> cases phase

theorem Uploading.step (distinct : levels.Nodup) (uploading : Uploading levels home objects upload)
    (effect : UploadEffect objects upload reached after) :
    Uploading levels home reached after where
  location := effect.outputPrefix.trans uploading.location
  sound := uploading.sound.step effect
  supplied := uploading.supplied.step effect
  opened := uploading.opened.step effect
  synced := uploading.synced.step uploading.sound.named effect
  drains := uploading.drains.step distinct uploading.supplied effect

/-- A tier's playlist lies beside its segments. -/
theorem resolve_segment (home : String) (level : QualityLevel) (filename : String) :
    resolve ((OutputPath.tier level PLAYLIST_FILENAME).key home) filename =
      (OutputPath.tier level filename).key home := by
  have beside : resolve (home ++ level.name ++ "/" ++ PLAYLIST_FILENAME) filename =
      home ++ level.name ++ "/" ++ filename := resolve_beside (by decide) filename
  simp only [OutputPath.key, OutputPath.text, ← String.append_assoc]
  exact beside

/-- A successful drain has stored everything, and the playlist that says so. -/
theorem Uploading.drained (uploading : Uploading levels home objects upload)
    (awaited : upload.awaited = true) (returned : upload.uploader.phase = .returned (.ok ()))
    {level : QualityLevel} (known : level ∈ levels) :
    (∀ filename ∈ upload.produced.get level, filename ∈ upload.segments level) ∧
      (upload.segments level ≠ [] →
        StoredText objects ((OutputPath.tier level PLAYLIST_FILENAME).key home)
          (synthesizeVariantPlaylist (upload.segments level) true)) := by
  have draining := uploading.drains awaited [] returned
  rcases draining.attended level known with tier | ⟨uploads, publish | ⟨_, finalized⟩⟩
  · cases tier
  · cases publish
  refine ⟨fun filename member => (uploads filename member).resolve_right List.not_mem_nil, ?_⟩
  intro filled
  have stored := uploading.synced (by rw [returned]; nofun) level _ (finalized filled)
  rw [Upload.key, uploading.location] at stored
  exact ⟨_, stored⟩

/-- With low segments a run that returned `Ok` has announced the link. -/
theorem Uploading.announced (uploading : Uploading levels home objects upload)
    (returned : upload.uploader.phase = .returned (.ok ())) (some : upload.segments .low ≠ []) :
    upload.uploader.state.masterUploaded = true := by
  rcases uploading.opened.master (uploading.opened.first.mpr some) with
    uploaded | queued | ⟨error, gaveUp⟩
  · exact uploaded
  · rw [Upload.todo, returned] at queued
    cases queued
  · rw [returned] at gaveUp
    cases gaveUp

/-- A successful run in which every tier was given a segment. -/
structure Succeeded (levels : List QualityLevel) (upload : Upload) : Prop where
  awaited : upload.awaited = true
  returned : upload.uploader.phase = .returned (.ok ())
  supplied : ∀ level ∈ levels, upload.produced.get level ≠ []

def succeeded (levels : List QualityLevel) (upload : Upload) : Bool :=
  upload.awaited &&
    (match upload.uploader.phase with
      | .returned (.ok ()) => true
      | _ => false) &&
    levels.all fun level => !(upload.produced.get level).isEmpty

theorem succeeded_of_check {levels : List QualityLevel} {upload : Upload}
    (checked : succeeded levels upload = true) : Succeeded levels upload := by
  simp only [succeeded, Bool.and_eq_true, List.all_eq_true, Bool.not_eq_true',
    List.isEmpty_eq_false_iff] at checked
  obtain ⟨⟨awaited, returned⟩, supplied⟩ := checked
  refine ⟨awaited, ?_, supplied⟩
  split at returned
  · assumption
  · cases returned

/-- The pipeline writes one segment and ends; the rest is the drain. -/
def oneSegment (level : QualityLevel) (calls : Nat) : List UploadEvent :=
  [.write level (.segment 0) ⟨0, fun _ => 0⟩, .endPipeline, .stop, .drain] ++
    List.replicate calls (.act .none true)

/-- Two tiers of two segments each, one tick while the pipeline runs, and a third segment
of the high tier before the drain. -/
def twoTiers : List UploadEvent :=
  [.write .low (.segment 0) ⟨0, fun _ => 0⟩, .write .low (.segment 1) ⟨0, fun _ => 0⟩,
    .write .high (.segment 0) ⟨0, fun _ => 0⟩, .write .high (.segment 1) ⟨0, fun _ => 0⟩,
    .tick] ++
  List.replicate 10 (.act .none true) ++
  [.write .high (.segment 2) ⟨0, fun _ => 0⟩, .endPipeline, .stop, .drain]

end Benri.Transcoder
