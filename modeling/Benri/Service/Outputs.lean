import Benri.Service.Snapshots

namespace Benri.Service

open Benri.Data Benri.Domain Benri.Postgres Benri.Storage Benri.Transcoder Benri.Transition

/-! # What a step does to the output of one video

Only the video's own uploader and a deletion of the video touch what lies under
its prefix: the originals lie elsewhere, and the prefixes of two videos are
disjoint.
-/

/-- Nothing under the video's prefix changes. -/
def OutputSame (id : VideoId) (before after : Objects) : Prop :=
  ∀ key, under (storagePrefix id) key = true → after.find? key = before.find? key

theorem OutputSame.refl (id : VideoId) (objects : Objects) : OutputSame id objects objects :=
  fun _ _ => rfl

theorem OutputSame.put_original (id owner : VideoId) (format : VideoFormat) (objects : Objects)
    (body : Body) (contentType : String) :
    OutputSame id objects (uploadBytes objects (originalKey owner format) body contentType) := by
  intro key covered
  have other : originalKey owner format ≠ key := by
    rintro rfl
    rw [not_under_originalKey] at covered
    cases covered
  rw [find?_uploadBytes, if_neg other]

theorem OutputSame.delete_original (id : VideoId) {owner : VideoId} {video : Video}
    (keyed : Keyed owner video) (objects : Objects) :
    OutputSame id objects (deleteObject objects video.uploadKey) := by
  intro key covered
  have other : video.uploadKey ≠ key := by
    rintro rfl
    rw [keyed.2, not_under_originalKey] at covered
    cases covered
  rw [find?_deleteObject, if_neg other]

/-- A key lies under the prefix of one video at most. -/
theorem under_unique {id owner : VideoId} {key : String}
    (mine : under (storagePrefix id) key = true)
    (theirs : under (storagePrefix owner) key = true) : id = owner := by
  obtain ⟨rest, split⟩ := List.isPrefixOf_iff_prefix.mp theirs
  have starts := List.isPrefixOf_iff_prefix.mp mine
  rw [← split] at starts
  exact storagePrefix_starts starts

theorem OutputSame.delete_other {id owner : VideoId} (different : owner ≠ id) (objects : Objects)
    (kept : List String) :
    OutputSame id objects (deletePrefix objects (storagePrefix owner) kept) := by
  intro key covered
  rw [find?_deletePrefix, if_neg fun both => different (under_unique both.1 covered)]

/-- Another video's uploader writes elsewhere. -/
theorem OutputSame.upload {id owner : VideoId} {objects reached : Objects} {upload after : Upload}
    (different : owner ≠ id) (home : upload.uploader.outputPrefix = storagePrefix owner)
    (effect : UploadEffect objects upload reached after) : OutputSame id objects reached := by
  intro key covered
  refine effect.elsewhere fun path same => different ?_
  rw [Upload.key, home] at same
  rw [same, under_key] at covered
  exact (of_decide_eq_true covered).symm

inductive OutputEffect (id : VideoId) (before : State) : Event → State → Prop where
  | same {event : Event} {after : State}
      (same : OutputSame id before.stores.objects after.stores.objects) :
      OutputEffect id before event after
  | uploaded (index : Nat) (execution : Execution) (upload uploadAfter : Upload)
      (event : UploadEvent) (after : State) (slot : before.executions[index]? = some execution)
      (named : execution.id = id) (uploading : execution.upload = some upload)
      (stepped : uploadStep before.stores.objects upload event =
        some (after.stores.objects, uploadAfter)) :
      OutputEffect id before (.execution index (.upload event)) after
  | deleted (index : Nat) (deletion : Deletion) (video : Video) (fault : Fault)
      (kept : List String) (after : State) (slot : before.deletions[index]? = some deletion)
      (named : deletion.id = id) (phase : deletion.phase = .deletePrefix video)
      (objects : after.stores.objects =
        deletePrefix before.stores.objects (storagePrefix id) kept) :
      OutputEffect id before (.deletion index (.deletePrefix fault kept)) after

theorem Effect.output {before after : State} {event : Event} (effect : Effect before event after)
    (snapshots : Snapshots before) (id : VideoId) : OutputEffect id before event after := by
  cases effect with
  | original owner format contentType body => exact .same (.put_original _ _ _ _ _ _)
  | completion index event completion stores next slot effect =>
      cases effect <;> exact .same (.refl _ _)
  | sweep index event phase next stores slot effect =>
      cases effect <;> exact .same (.refl _ _)
  | execution index event execution next stores slot effect =>
      have coherent := snapshots.executions execution (List.mem_of_getElem? slot)
      cases effect with
      | cleaned video result phase =>
          exact .same (.delete_original id (coherent.video video (by rw [phase]; rfl)) _)
      | uploaded upload after objects uploadEvent uploading stepped =>
          by_cases same : execution.id = id
          · exact .uploaded index execution upload after uploadEvent _ slot same uploading stepped
          · have home := (coherent.uploading upload uploading).2
            exact .same (.upload same home (uploadStep_effect stepped))
      | quiet | claimed | published | finalized | failed => exact .same (.refl _ _)
  | deletion index event deletion next stores slot effect =>
      have keyed := snapshots.deletions deletion (List.mem_of_getElem? slot)
      cases effect with
      | prefixed video kept _ phase answered =>
          have named : video.id = deletion.id := (keyed video (by rw [phase]; rfl)).1
          have home : video.storagePrefix = storagePrefix deletion.id :=
            congrArg storagePrefix named
          by_cases same : deletion.id = id
          · subst same
            exact .deleted index deletion video _ kept _ slot rfl phase (by rw [← home])
          · refine .same ?_
            dsimp only
            rw [home]
            exact .delete_other same _ _
      | objectDeleted video _ phase answered =>
          exact .same (.delete_original id (keyed video (by rw [phase]; rfl)) _)
      | found | ended | rowDeleted => exact .same (.refl _ _)
  | advance | unborn | born | tasks | startCompletion | startExecution | startSweep |
    startDeletion => exact .same (.refl _ _)

end Benri.Service
