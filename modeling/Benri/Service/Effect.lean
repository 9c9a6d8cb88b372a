import Benri.Service.ExecutionEffect

namespace Benri.Service

open Benri.Data Benri.Domain Benri.Postgres Benri.Storage Benri.Transcoder Benri.Transition

/-! # What a step can do -/

variable {stores reached : Stores}

/-! ## The sweep -/

inductive SweepEffect (stores : Stores) (phase : SweepPhase) :
    SweepEvent → Stores → SweepPhase → Prop where
  | quiet {event : SweepEvent} (next : SweepPhase) : SweepEffect stores phase event stores next
  | marked {fault : Fault} (stale failed : List Video) (next : SweepPhase)
      (origin : phase = .markFailed stale failed) :
      SweepEffect stores phase (.call fault) { stores with
        videos := bulkMarkFailed stores.videos (collectStuckIds stale) [.uploaded, .processing] }
        next
  | scheduled {fault : Fault} {seeds : List TaskSeed} (stale failed : List Video)
      (tasks : TaskTable) (added : List Task)
      (next : SweepPhase) (origin : phase = .schedule stale failed)
      (change : TasksAdded stores.tasks tasks added)
      (deletes : DeletesOnly ((stale ++ failed).map Video.id) added) :
      SweepEffect stores phase (.schedule fault seeds) { stores with tasks } next

theorem DeletesOnly.build (stores : Stores) (videos : List Video) (seeds : List TaskSeed) :
    DeletesOnly (videos.map Video.id) (buildDeleteTasks stores videos seeds) := by
  intro task member
  obtain ⟨index, bound, same⟩ := List.mem_iff_getElem.mp member
  simp only [buildDeleteTasks, List.getElem_zipWith] at same
  rw [buildDeleteTasks, List.length_zipWith] at bound
  have inside : index < videos.length := by omega
  exact ⟨videos[index].id, List.mem_map_of_mem (List.getElem_mem inside), stores, _, same.symm⟩

theorem sweepStep_effect {phase next : SweepPhase} {event : SweepEvent}
    (stepped : sweepStep stores phase event = some (reached, next)) :
    SweepEffect stores phase event reached next := by
  cases sweepStep_turn stepped with
  | foundStale | foundFailed | foundNoneStuck | gaveUp | cut => exact .quiet _
  | marked stale failed => exact .marked stale failed _ rfl
  | scheduled stale failed seeds tasks next enough inserted =>
      have deletes := DeletesOnly.build stores (stale ++ failed) seeds
      exact .scheduled stale failed tasks _ _ rfl (.insertAll inserted) deletes

/-! ## `delete_video` -/

def DeletionPhase.video? : DeletionPhase → Option Video
  | .deletePrefix video | .deleteObject video | .deleteRow video => some video
  | .findById | .returned _ | .cut => none

inductive DeletionEffect (stores : Stores) (deletion : Deletion) :
    DeletionEvent → Stores → DeletionPhase → Prop where
  | found {fault : Fault} (video : Video) (phase : deletion.phase = .findById)
      (found : stores.videos.find? deletion.id = some video) :
      DeletionEffect stores deletion (.call fault) stores (.deletePrefix video)
  | ended {event : DeletionEvent} (next : DeletionPhase) (video : next.video? = none) :
      DeletionEffect stores deletion event stores next
  | prefixed {fault : Fault} (video : Video) (kept : List String) (next : DeletionPhase)
      (phase : deletion.phase = .deletePrefix video)
      (answered : fault = .none ∧ next = .deleteObject video ∨ next.video? = none) :
      DeletionEffect stores deletion (.deletePrefix fault kept) { stores with
        objects := Storage.deletePrefix stores.objects video.storagePrefix kept } next
  | objectDeleted {fault : Fault} (video : Video) (next : DeletionPhase)
      (phase : deletion.phase = .deleteObject video)
      (answered : next = .deleteRow video ∨ next.video? = none) :
      DeletionEffect stores deletion (.call fault) { stores with
        objects := Storage.deleteObject stores.objects video.uploadKey } next
  | rowDeleted {fault : Fault} (video : Video) (next : DeletionPhase)
      (phase : deletion.phase = .deleteRow video) (answered : next.video? = none) :
      DeletionEffect stores deletion (.call fault) { stores with
        videos := deleteVideo stores.videos video.id } next

theorem deletionStep_effect {deletion : Deletion} {event : DeletionEvent} {next : DeletionPhase}
    (stepped : deletionStep stores deletion event = some (reached, next)) :
    DeletionEffect stores deletion event reached next := by
  obtain ⟨id, phase⟩ := deletion
  cases deletionStep_turn stepped with
  | found video found => exact .found video rfl found
  | absent | gaveUp | cut => exact .ended _ rfl
  | prefixed video kept next answered =>
      refine .prefixed video kept _ rfl (answered.imp_right ?_)
      rintro ⟨error, rfl⟩
      rfl
  | objectDeleted video next answered =>
      refine .objectDeleted video _ rfl (answered.imp_right ?_)
      rintro ⟨error, rfl⟩
      rfl
  | rowDeleted video next answered =>
      refine .rowDeleted video _ rfl ?_
      rcases answered with rfl | ⟨error, rfl⟩ <;> rfl

/-! ## The whole service -/

/-- New rows that no video is named in. -/
def SystemOnly (added : List Task) : Prop :=
  ∀ task ∈ added, task.metadataType = CleanupStaleVideosTaskMetadata.METADATA_TYPE

inductive Effect (before : State) : Event → State → Prop where
  | advance (now : Instant) (later : before.stores.now ≤ now) :
      Effect before (.advance now) (before.withStores { before.stores with now })
  | unborn (id : VideoId) (title : String) (format : VideoFormat)
      (fresh : id ∉ before.stores.issued) :
      Effect before (.initiate id title format false)
        (before.withStores { before.stores with issued := before.stores.issued ++ [id] })
  | born (id : VideoId) (title : String) (format : VideoFormat) (videos : VideoTable)
      (fresh : id ∉ before.stores.issued)
      (inserted : before.stores.videos.insert? (newVideo before.stores id title format) =
        some videos) :
      Effect before (.initiate id title format true)
        (before.withStores { before.stores with
          videos, issued := before.stores.issued ++ [id] })
  | original (id : VideoId) (format : VideoFormat) (contentType : String) (body : Body) :
      Effect before (.putOriginal id format contentType body)
        (before.withStores (putOriginalStep before.stores id format contentType body))
  | tasks (statement : TaskStatement) (tasks : TaskTable) (added : List Task)
      (change : TasksAdded before.stores.tasks tasks added) (system : SystemOnly added) :
      Effect before (.tasks statement) (before.withStores { before.stores with tasks })
  | startCompletion (id : VideoId) :
      Effect before (.startCompletion id)
        { before with completions := before.completions ++ [⟨id, .findById⟩] }
  | completion (index : Nat) (event : CompletionEvent) (completion : Completion)
      (stores : Stores) (next : CompletionPhase)
      (slot : before.completions[index]? = some completion)
      (effect : CompletionEffect before.stores completion event stores next) :
      Effect before (.completion index event) { before with
        stores, completions := before.completions.set index ⟨completion.id, next⟩ }
  | startExecution (task : TaskId) (id : VideoId) (row : Task)
      (found : before.stores.tasks.find? task = some row) (named : processesVideo row id = true) :
      Effect before (.startExecution task id)
        { before with executions := before.executions ++ [.start id] }
  | execution (index : Nat) (event : ExecutionEvent) (execution next : Execution)
      (stores : Stores) (slot : before.executions[index]? = some execution)
      (effect : ExecutionEffect before.stores execution event stores next) :
      Effect before (.execution index event) { before with
        stores, executions := before.executions.set index next }
  | startSweep :
      Effect before .startSweep { before with
        sweeps := before.sweeps ++ [.findStale (before.stores.now - STALE_VIDEO_AGE)] }
  | sweep (index : Nat) (event : SweepEvent) (phase next : SweepPhase) (stores : Stores)
      (slot : before.sweeps[index]? = some phase)
      (effect : SweepEffect before.stores phase event stores next) :
      Effect before (.sweep index event) { before with
        stores, sweeps := before.sweeps.set index next }
  | startDeletion (task : TaskId) (id : VideoId) (row : Task)
      (found : before.stores.tasks.find? task = some row) (named : deletesVideo row id = true) :
      Effect before (.startDeletion task id)
        { before with deletions := before.deletions ++ [⟨id, .findById⟩] }
  | deletion (index : Nat) (event : DeletionEvent) (deletion : Deletion) (next : DeletionPhase)
      (stores : Stores) (slot : before.deletions[index]? = some deletion)
      (effect : DeletionEffect before.stores deletion event stores next) :
      Effect before (.deletion index event) { before with
        stores, deletions := before.deletions.set index ⟨deletion.id, next⟩ }

theorem slotStep_eq_some {Slot : Type} {slots answers : List Slot} {index : Nat}
    {step : Slot → Option (Stores × Slot)}
    (stepped : slotStep slots index step = some (reached, answers)) :
    ∃ slot next, slots[index]? = some slot ∧ step slot = some (reached, next) ∧
      answers = slots.set index next := by
  obtain ⟨slot, found, mapped⟩ := Option.bind_eq_some_iff.mp stepped
  obtain ⟨⟨stores, next⟩, moved, same⟩ := Option.map_eq_some_iff.mp mapped
  cases same
  exact ⟨slot, next, found, moved, rfl⟩

theorem taskStatement_effect {statement : TaskStatement}
    (stepped : taskStatement stores statement = some reached) :
    ∃ tasks added, TasksAdded stores.tasks tasks added ∧ SystemOnly added ∧
      reached = { stores with tasks } := by
  have none : SystemOnly [] := fun _ member => absurd member List.not_mem_nil
  cases statement with
  | markInProgress ids startedAt =>
      cases stepped
      refine ⟨markInProgress stores.tasks ids startedAt, [], .update ?_, none, rfl⟩
      exact fun _ => ⟨rfl, rfl⟩
  | batchUpdate updates =>
      cases stepped
      refine ⟨batchUpdate stores.tasks updates, [], .update fun row => ?_, none, rfl⟩
      split <;> exact ⟨rfl, rfl⟩
  | resetStale =>
      cases stepped
      refine ⟨resetStale stores.tasks stores.now, [], .update ?_, none, rfl⟩
      exact fun _ => ⟨rfl, rfl⟩
  | createSystemTask seed =>
      obtain ⟨tasks, inserted, rfl⟩ := Option.map_eq_some_iff.mp stepped
      refine ⟨tasks, _, .insert inserted, fun task member => ?_, rfl⟩
      rw [List.mem_singleton.mp member]
      rfl

theorem step_effect {before after : State} {event : Event}
    (stepped : step before event = some after) : Effect before event after := by
  cases event with
  | advance now =>
      simp only [step] at stepped
      split at stepped
      · cases stepped; exact .advance now ‹_›
      · contradiction
  | initiate id title format applied =>
      obtain ⟨stores, moved, rfl⟩ := Option.map_eq_some_iff.mp stepped
      unfold initiateStep at moved
      split at moved
      · contradiction
      · rename_i fresh
        cases applied with
        | false => cases moved; exact .unborn id title format fresh
        | true =>
            obtain ⟨videos, inserted, rfl⟩ := Option.map_eq_some_iff.mp moved
            exact .born id title format videos fresh inserted
  | putOriginal id format contentType body =>
      cases stepped
      exact .original id format contentType body
  | tasks statement =>
      obtain ⟨stores, moved, rfl⟩ := Option.map_eq_some_iff.mp stepped
      obtain ⟨tasks, added, change, system, rfl⟩ := taskStatement_effect moved
      exact .tasks statement tasks added change system
  | startCompletion id => cases stepped; exact .startCompletion id
  | completion index event =>
      obtain ⟨⟨stores, slots⟩, moved, rfl⟩ := Option.map_eq_some_iff.mp stepped
      obtain ⟨completion, next, slot, inner, rfl⟩ := slotStep_eq_some moved
      obtain ⟨⟨_, phase⟩, advanced, same⟩ := Option.map_eq_some_iff.mp inner
      cases same
      exact .completion index event completion _ phase slot (completionStep_effect advanced)
  | startExecution task id =>
      simp only [step] at stepped
      split at stepped
      · rename_i named
        obtain ⟨row, found, named⟩ := (Option.any_eq_true _ _).mp named
        cases stepped
        exact .startExecution task id row found named
      · contradiction
  | execution index event =>
      obtain ⟨⟨stores, slots⟩, moved, rfl⟩ := Option.map_eq_some_iff.mp stepped
      obtain ⟨execution, next, slot, inner, rfl⟩ := slotStep_eq_some moved
      exact .execution index event execution next _ slot (executionStep_effect inner)
  | startSweep => cases stepped; exact .startSweep
  | sweep index event =>
      obtain ⟨⟨stores, slots⟩, moved, rfl⟩ := Option.map_eq_some_iff.mp stepped
      obtain ⟨phase, next, slot, inner, rfl⟩ := slotStep_eq_some moved
      exact .sweep index event phase next _ slot (sweepStep_effect inner)
  | startDeletion task id =>
      simp only [step] at stepped
      split at stepped
      · rename_i named
        obtain ⟨row, found, named⟩ := (Option.any_eq_true _ _).mp named
        cases stepped
        exact .startDeletion task id row found named
      · contradiction
  | deletion index event =>
      obtain ⟨⟨stores, slots⟩, moved, rfl⟩ := Option.map_eq_some_iff.mp stepped
      obtain ⟨deletion, next, slot, inner, rfl⟩ := slotStep_eq_some moved
      obtain ⟨⟨_, phase⟩, advanced, same⟩ := Option.map_eq_some_iff.mp inner
      cases same
      exact .deletion index event deletion phase _ slot (deletionStep_effect advanced)

theorem execution_of_step {before after : State} {index : Nat} {inner : ExecutionEvent}
    (stepped : step before (.execution index inner) = some after) :
    ∃ execution next, before.executions[index]? = some execution ∧
      executionStep before.stores execution inner = some (after.stores, next) ∧
      after.executions = before.executions.set index next := by
  obtain ⟨⟨stores, slots⟩, moved, rfl⟩ := Option.map_eq_some_iff.mp stepped
  obtain ⟨execution, next, slot, advanced, rfl⟩ := slotStep_eq_some moved
  exact ⟨execution, next, slot, advanced, rfl⟩

/-- Where the executions after a step come from. -/
theorem executions_of_step {before after : State} {event : Event}
    (stepped : step before event = some after) :
    after.executions = before.executions ∨
      (∃ id, after.executions = before.executions ++ [.start id]) ∨
      ∃ index inner execution next, event = .execution index inner ∧
        before.executions[index]? = some execution ∧
        executionStep before.stores execution inner = some (after.stores, next) ∧
        after.executions = before.executions.set index next := by
  cases step_effect stepped with
  | startExecution task id row found named => exact .inr (.inl ⟨id, rfl⟩)
  | execution index inner _ _ _ _ _ =>
      obtain ⟨execution, next, slot, advanced, executions⟩ := execution_of_step stepped
      exact .inr (.inr ⟨index, inner, execution, next, rfl, slot, advanced, executions⟩)
  | advance | unborn | born | original | tasks | startCompletion | completion | startSweep | sweep |
    startDeletion | deletion => exact .inl rfl

end Benri.Service
