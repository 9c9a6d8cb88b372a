import Benri.Service.Original

namespace Benri.Service

open Benri.Data Benri.Domain Benri.Postgres Benri.Storage Benri.Transition

/-! # The guards of `complete_upload`

What a step of a call decides, and on which content: the size check and the
signature check look at the stored original one after the other.
-/

/-- A step that writes nothing. -/
inductive CompletionMove (stores : Stores) (completion : Completion) : CompletionPhase → Prop where
  | loaded (video : Video) (phase : completion.phase = .findById)
      (found : stores.videos.find? completion.id = some video)
      (pending : video.status = .pendingUpload) :
      CompletionMove stores completion (.headObject video)
  | measured (video : Video) (object : Object) (phase : completion.phase = .headObject video)
      (there : stores.objects.find? video.uploadKey = some object)
      (small : tooLarge object.body = false) :
      CompletionMove stores completion (.readRange video)
  | oversized (video : Video) (object : Object) (phase : completion.phase = .headObject video)
      (there : stores.objects.find? video.uploadKey = some object)
      (large : tooLarge object.body = true) :
      CompletionMove stores completion (.reject video .fileTooLarge)
  | signed (video : Video) (object : Object) (phase : completion.phase = .readRange video)
      (there : stores.objects.find? video.uploadKey = some object)
      (valid : signed video.format object.body = some true) :
      CompletionMove stores completion (.transition video)
  | unsigned (video : Video) (object : Object) (phase : completion.phase = .readRange video)
      (there : stores.objects.find? video.uploadKey = some object)
      (invalid : signed video.format object.body = some false) :
      CompletionMove stores completion (.reject video .invalidFileSignature)
  | ended (error : CompleteUploadError)
      (other : error ≠ .fileTooLarge ∧ error ≠ .invalidFileSignature) :
      CompletionMove stores completion (.returned (.error error))
  | cut : CompletionMove stores completion .cut

inductive CompletionVerdict (stores : Stores) (completion : Completion) :
    Stores → CompletionPhase → Prop where
  | moved (next : CompletionPhase) (move : CompletionMove stores completion next) :
      CompletionVerdict stores completion stores next
  | rejected (video : Video) (error : CompleteUploadError) (tasks : TaskTable)
      (phase : completion.phase = .reject video error) :
      CompletionVerdict stores completion { stores with tasks } (.returned (.error error))
  | accepted (video row : Video) (tasks : TaskTable) (next : CompletionPhase)
      (phase : completion.phase = .transition video)
      (found : stores.videos.find? video.id = some row) (pending : row.status = .pendingUpload)
      (answered : next = .returned (.ok ⟨video.id, .uploaded⟩) ∨
        ∃ message, next = .returned (.error (.internal message))) :
      CompletionVerdict stores completion { stores with
        videos := (updateStatusIf stores.videos video.id .pendingUpload .uploaded).1, tasks } next

theorem completionStep_verdict {stores reached : Stores} {completion : Completion}
    {event : CompletionEvent} {next : CompletionPhase}
    (stepped : completionStep stores completion event = some (reached, next)) :
    CompletionVerdict stores completion reached next := by
  obtain ⟨id, phase⟩ := completion
  cases completionStep_turn stepped with
  | loaded video found pending => exact .moved _ (.loaded video rfl found pending)
  | measured video object there small =>
      exact .moved _ (.measured video object rfl there (decide_eq_false small))
  | oversized video object there large =>
      exact .moved _ (.oversized video object rfl there (decide_eq_true large))
  | signed video object headerBytes there read valid =>
      exact .moved _ (.signed video object rfl there
        (by rw [signed, read, Option.map_some, valid]))
  | unsigned video object headerBytes there read invalid =>
      exact .moved _ (.unsigned video object rfl there
        (by rw [signed, read, Option.map_some, Bool.eq_false_iff.mpr invalid]))
  | rejected video error seed tasks => exact .rejected video error tasks rfl
  | transitioned video row seed tasks next found pending _ answered =>
      exact .accepted video row tasks _ rfl found pending answered
  | gaveUp error other => exact .moved _ (.ended error other)
  | cut => exact .moved _ .cut

theorem completion_of_step {before after : State} {index : Nat} {event : CompletionEvent}
    (stepped : step before (.completion index event) = some after) :
    ∃ completion next, before.completions[index]? = some completion ∧
      CompletionVerdict before.stores completion after.stores next ∧
      after.completions = before.completions.set index ⟨completion.id, next⟩ := by
  obtain ⟨⟨stores, slots⟩, moved, rfl⟩ := Option.map_eq_some_iff.mp stepped
  obtain ⟨completion, next, slot, inner, rfl⟩ := slotStep_eq_some moved
  obtain ⟨⟨_, phase⟩, advanced, same⟩ := Option.map_eq_some_iff.mp inner
  cases same
  exact ⟨completion, phase, slot, completionStep_verdict advanced, rfl⟩

end Benri.Service
