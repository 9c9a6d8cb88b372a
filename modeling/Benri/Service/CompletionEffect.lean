import Benri.Service.System

namespace Benri.Service

open Benri.Data Benri.Domain Benri.Postgres Benri.Storage Benri.Transcoder Benri.Transition

/-! # What a completion step can do

For each kind of component the ways in which one of its steps can end, without
the faults and answers that lead there.  They are read off the turns that stand
beside the step functions.
-/

/-- The task rows afterwards: those of before, rescheduled at most, and new ones. -/
def TasksAdded (before after : TaskTable) (added : List Task) : Prop :=
  ∃ reschedule : Task → Task,
    (∀ row, (reschedule row).metadataType = row.metadataType ∧
      (reschedule row).metadata = row.metadata) ∧
    after.rows = before.rows.map reschedule ++ added

theorem TasksAdded.same (tasks : TaskTable) : TasksAdded tasks tasks [] :=
  ⟨id, fun _ => ⟨rfl, rfl⟩, by simp⟩

theorem TasksAdded.update {tasks : TaskTable} {condition : Task → Bool} {assign : Task → Task}
    {keeps : ∀ row, (assign row).id = row.id}
    (metadata : ∀ row, (assign row).metadataType = row.metadataType ∧
      (assign row).metadata = row.metadata) :
    TasksAdded tasks (tasks.update condition assign keeps) [] := by
  refine ⟨fun row => if condition row then assign row else row, fun row => ?_, ?_⟩
  · dsimp only
    split
    · exact metadata row
    · exact ⟨rfl, rfl⟩
  · rw [List.append_nil]
    rfl

theorem TasksAdded.insert {tasks after : TaskTable} {task : Task}
    (inserted : tasks.insert? task = some after) : TasksAdded tasks after [task] :=
  ⟨id, fun _ => ⟨rfl, rfl⟩, by rw [List.map_id]; exact (Table.insert?_eq_some inserted).2⟩

theorem TasksAdded.insertAll {tasks after : TaskTable} {added : List Task}
    (inserted : tasks.insertAll? added = some after) : TasksAdded tasks after added :=
  ⟨id, fun _ => ⟨rfl, rfl⟩, by rw [List.map_id]; exact Table.insertAll?_rows inserted⟩

/-- New rows that all ask for one of the videos to be deleted. -/
def DeletesOnly (ids : List VideoId) (added : List Task) : Prop :=
  ∀ task ∈ added, ∃ id ∈ ids, ∃ stores seed,
    task = pendingTask stores (DeleteVideoTaskMetadata.mk id) seed

theorem DeletesOnly.nil (ids : List VideoId) : DeletesOnly ids [] :=
  fun _ member => absurd member List.not_mem_nil

theorem DeletesOnly.single (id : VideoId) (stores : Stores) (seed : TaskSeed) :
    DeletesOnly [id] [pendingTask stores (DeleteVideoTaskMetadata.mk id) seed] := by
  intro task member
  exact ⟨id, List.mem_singleton_self id, stores, seed, List.mem_singleton.mp member⟩

/-! ## `complete_upload` -/

def CompletionPhase.video? : CompletionPhase → Option Video
  | .headObject video | .readRange video | .reject video _ | .transition video => some video
  | .findById | .returned _ | .cut => none

inductive CompletionEffect (stores : Stores) (completion : Completion) :
    CompletionEvent → Stores → CompletionPhase → Prop where
  | quiet {event : CompletionEvent} (next : CompletionPhase)
      (unfinished : ∀ output, next ≠ .returned (.ok output))
      (video : ∀ video, next.video? = some video → completion.phase.video? = some video ∨
        stores.videos.find? completion.id = some video) :
      CompletionEffect stores completion event stores next
  | rejected {fault : Fault} {seed : TaskSeed} (video : Video) (error : CompleteUploadError)
      (tasks : TaskTable) (added : List Task)
      (phase : completion.phase = .reject video error)
      (change : TasksAdded stores.tasks tasks added) (deletes : DeletesOnly [video.id] added) :
      CompletionEffect stores completion (.reject fault seed) { stores with tasks }
        (.returned (.error error))
  | uploaded {fault : TxFault} (video row : Video) (seed : TaskSeed) (tasks : TaskTable)
      (next : CompletionPhase)
      (phase : completion.phase = .transition video)
      (found : stores.videos.find? video.id = some row) (pending : row.status = .pendingUpload)
      (change : TasksAdded stores.tasks tasks
        [pendingTask stores (ProcessVideoTaskMetadata.mk video.id) seed])
      (answered : next = .returned (.ok ⟨video.id, .uploaded⟩) ∨
        ∃ error, next = .returned (.error error)) :
      CompletionEffect stores completion (.transition fault seed) { stores with
        videos := (updateStatusIf stores.videos video.id .pendingUpload .uploaded).1, tasks } next

variable {stores reached : Stores}

theorem CompletionEffect.failed (stores : Stores) (completion : Completion)
    (event : CompletionEvent) (error : CompleteUploadError) :
    CompletionEffect stores completion event stores (.returned (.error error)) :=
  .quiet _ (fun _ same => by cases same) fun _ same => by cases same

theorem TasksAdded.insert_deletion {tasks after : TaskTable} {stores : Stores} {id : VideoId}
    {seed : TaskSeed} (inserted : after = tasks ∨
      tasks.insert? (pendingTask stores (DeleteVideoTaskMetadata.mk id) seed) = some after) :
    ∃ added, TasksAdded tasks after added ∧ DeletesOnly [id] added := by
  rcases inserted with rfl | inserted
  · exact ⟨[], .same _, .nil _⟩
  · exact ⟨_, .insert inserted, .single id stores seed⟩

theorem completionStep_effect {completion : Completion} {event : CompletionEvent}
    {next : CompletionPhase}
    (stepped : completionStep stores completion event = some (reached, next)) :
    CompletionEffect stores completion event reached next := by
  obtain ⟨id, phase⟩ := completion
  cases completionStep_turn stepped with
  | loaded video found pending =>
      refine .quiet _ (fun _ same => by cases same) fun other same => .inr ?_
      cases same
      exact found
  | measured | oversized | signed | unsigned =>
      exact .quiet _ (fun _ same => by cases same) fun other same => .inl same
  | rejected video error seed tasks inserted =>
      obtain ⟨added, change, deletes⟩ := TasksAdded.insert_deletion inserted
      exact .rejected video error tasks added rfl change deletes
  | transitioned video row seed tasks next found pending inserted answered =>
      refine .uploaded video row seed tasks _ rfl found pending (.insert inserted) ?_
      exact answered.imp_right fun ⟨message, same⟩ => ⟨_, same⟩
  | gaveUp error => exact .failed _ _ _ _
  | cut => exact .quiet _ (fun _ same => by cases same) fun _ same => by cases same

end Benri.Service
