import Benri.Service.Claim
import Benri.Service.Outputs

namespace Benri.Service

open Benri.Data Benri.Domain Benri.Postgres Benri.Storage Benri.Transcoder Benri.Transition

/-! # Finished videos

`DeleteVideo` deletes whatever video its task names, so a finished video is safe
as long as no such task names it.  Three places insert the task from what they
read earlier, and none of them, nor the finalization, looks at the other.
-/

def isProcessed (stores : Stores) (id : VideoId) : Bool :=
  (stores.videos.find? id).any fun row => decide (row.status = .processed)

def isProcessing (stores : Stores) (id : VideoId) : Bool :=
  (stores.videos.find? id).any fun row => decide (row.status = .processing)

/-- Whether some `DeleteVideo` task names the video. -/
def isScheduled (stores : Stores) (id : VideoId) : Bool :=
  stores.tasks.rows.any fun task => deletesVideo task id

/-- A step that neither schedules the deletion of a finished video nor finishes
a video whose deletion is scheduled. -/
def careful (state : State) : Event → Bool
  | .completion index (.reject _ _) => (state.completions[index]?).all fun completion =>
      match completion.phase with
      | .reject video _ => !isProcessed state.stores video.id
      | _ => true
  | .sweep index (.schedule _ _) => (state.sweeps[index]?).all fun phase =>
      match phase with
      | .schedule stale failed =>
          (stale ++ failed).all fun video => !isProcessed state.stores video.id
      | _ => true
  | .execution index (.fail _ _) => (state.executions[index]?).all fun execution =>
      match execution.phase with
      | .fail video => !isProcessed state.stores video.id
      | _ => true
  | .execution index (.call _) => (state.executions[index]?).all fun execution =>
      match execution.phase with
      | .finalize video =>
          !(isProcessing state.stores video.id && isScheduled state.stores video.id)
      | _ => true
  | _ => true

def Careful (state : State) (event : Event) : Prop := careful state event = true

instance (state : State) (event : Event) : Decidable (Careful state event) :=
  inferInstanceAs (Decidable (_ = true))

theorem isProcessed_iff (stores : Stores) (id : VideoId) :
    isProcessed stores id = true ↔
      ∃ row, stores.videos.find? id = some row ∧ row.status = .processed := by
  simp [isProcessed, Option.any_eq_true]

theorem isProcessing_iff (stores : Stores) (id : VideoId) :
    isProcessing stores id = true ↔
      ∃ row, stores.videos.find? id = some row ∧ row.status = .processing := by
  simp [isProcessing, Option.any_eq_true]

/-! ## The tasks -/

theorem TasksAdded.scheduled {before after : Stores} {added : List Task}
    (change : TasksAdded before.tasks after.tasks added) (id : VideoId) :
    isScheduled after id =
      (isScheduled before id || added.any fun task => deletesVideo task id) := by
  obtain ⟨reschedule, keeps, rows⟩ := change
  have same : (fun task => deletesVideo task id) ∘ reschedule =
      fun task => deletesVideo task id := by
    funext row
    exact deletesVideo_metadata id _ _ (keeps row).1 (keeps row).2
  rw [isScheduled, isScheduled, rows, List.any_append, List.any_map, same]

theorem DeletesOnly.named {ids : List VideoId} {added : List Task}
    (deletes : DeletesOnly ids added) {id : VideoId}
    (names : (added.any fun task => deletesVideo task id) = true) : id ∈ ids := by
  obtain ⟨task, member, hit⟩ := List.any_eq_true.mp names
  obtain ⟨owner, inside, stores, seed, rfl⟩ := deletes task member
  rw [deletesVideo_delete] at hit
  exact of_decide_eq_true hit ▸ inside

/-- The steps that may schedule the deletion of a video. -/
inductive Schedules (before : State) (id : VideoId) : Event → Prop where
  | rejected (index : Nat) (fault : Fault) (seed : TaskSeed) (completion : Completion)
      (video : Video) (error : CompleteUploadError)
      (slot : before.completions[index]? = some completion)
      (phase : completion.phase = .reject video error) (named : video.id = id) :
      Schedules before id (.completion index (.reject fault seed))
  | failed (index : Nat) (fault : TxFault) (seed : TaskSeed) (execution : Execution)
      (video : Video) (slot : before.executions[index]? = some execution)
      (phase : execution.phase = .fail video) (named : video.id = id) :
      Schedules before id (.execution index (.fail fault seed))
  | swept (index : Nat) (fault : Fault) (seeds : List TaskSeed) (stale failed : List Video)
      (video : Video) (slot : before.sweeps[index]? = some (.schedule stale failed))
      (selected : video ∈ stale ++ failed) (named : video.id = id) :
      Schedules before id (.sweep index (.schedule fault seeds))

theorem Effect.scheduled_by {before after : State} {event : Event}
    (effect : Effect before event after) {id : VideoId}
    (scheduled : isScheduled after.stores id = true) :
    isScheduled before.stores id = true ∨ Schedules before id event := by
  cases effect with
  | tasks statement tasks added change system =>
      rw [TasksAdded.scheduled change, Bool.or_eq_true] at scheduled
      rcases scheduled with older | new
      · exact .inl older
      · obtain ⟨task, member, names⟩ := List.any_eq_true.mp new
        rw [system.deletes id task member] at names
        cases names
  | completion index event completion stores next slot effect =>
      cases effect with
      | quiet _ unfinished video => exact .inl scheduled
      | rejected video error tasks added phase change deletes =>
          rw [TasksAdded.scheduled change, Bool.or_eq_true] at scheduled
          rcases scheduled with older | new
          · exact .inl older
          · have named := List.mem_singleton.mp (deletes.named new)
            exact .inr (.rejected index _ _ completion video error slot phase named.symm)
      | uploaded video row seed tasks _ phase found pending change answered =>
          rw [TasksAdded.scheduled change] at scheduled
          exact .inl (by simpa using scheduled)
  | execution index event execution next stores slot effect =>
      cases effect with
      | failed video seed tasks result phase change =>
          rw [TasksAdded.scheduled change, Bool.or_eq_true] at scheduled
          rcases scheduled with older | new
          · exact .inl older
          · have named := (DeletesOnly.single video.id before.stores seed).named new
            exact .inr (.failed index _ seed execution video slot phase
              (List.mem_singleton.mp named).symm)
      | quiet | claimed | published | finalized | cleaned | uploaded => exact .inl scheduled
  | sweep index event phase next stores slot effect =>
      cases effect with
      | scheduled stale failed tasks added _ origin change deletes =>
          rw [TasksAdded.scheduled change, Bool.or_eq_true] at scheduled
          rcases scheduled with older | new
          · exact .inl older
          · obtain ⟨video, selected, named⟩ := List.mem_map.mp (deletes.named new)
            exact .inr (.swept index _ _ stale failed video (origin ▸ slot) selected named)
      | quiet | marked => exact .inl scheduled
  | deletion index event deletion next stores slot effect => cases effect <;> exact .inl scheduled
  | advance | unborn | born | original | startCompletion | startExecution | startSweep |
    startDeletion => exact .inl scheduled

/-- Where a deletion is scheduled, the video was not finished. -/
theorem Effect.scheduled {before after : State} {event : Event} (effect : Effect before event after)
    (permitted : Careful before event) {id : VideoId}
    (scheduled : isScheduled after.stores id = true) :
    isScheduled before.stores id = true ∨ isProcessed before.stores id = false := by
  rcases effect.scheduled_by scheduled with older | schedules
  · exact .inl older
  refine .inr ?_
  cases schedules with
  | rejected index fault seed completion video error slot phase named =>
      have safe : (!isProcessed before.stores video.id) = true := by
        simpa only [Careful, careful, slot, Option.all_some, phase] using permitted
      exact named ▸ by simpa using safe
  | failed index fault seed execution video slot phase named =>
      have safe : (!isProcessed before.stores video.id) = true := by
        simpa only [Careful, careful, slot, Option.all_some, phase] using permitted
      exact named ▸ by simpa using safe
  | swept index fault seeds stale failed video slot selected named =>
      have safe : ((stale ++ failed).all fun video =>
          !isProcessed before.stores video.id) = true := by
        simpa only [Careful, careful, slot, Option.all_some] using permitted
      exact named ▸ by simpa using List.all_eq_true.mp safe video selected

theorem Effect.tasksAdded {before after : State} {event : Event}
    (effect : Effect before event after) :
    ∃ added, TasksAdded before.stores.tasks after.stores.tasks added := by
  cases effect with
  | tasks statement tasks added change system => exact ⟨added, change⟩
  | completion index event completion stores next slot effect =>
      cases effect with
      | rejected video error tasks added phase change deletes => exact ⟨added, change⟩
      | uploaded video row seed tasks _ phase found pending change answered => exact ⟨_, change⟩
      | quiet => exact ⟨[], .same _⟩
  | execution index event execution next stores slot effect =>
      cases effect with
      | failed video seed tasks result phase change => exact ⟨_, change⟩
      | quiet | claimed | published | finalized | cleaned | uploaded => exact ⟨[], .same _⟩
  | sweep index event phase next stores slot effect =>
      cases effect with
      | scheduled stale failed tasks added _ origin change deletes => exact ⟨added, change⟩
      | quiet | marked => exact ⟨[], .same _⟩
  | deletion index event deletion next stores slot effect => cases effect <;> exact ⟨[], .same _⟩
  | advance | unborn | born | original | startCompletion | startExecution | startSweep |
    startDeletion => exact ⟨[], .same _⟩

/-- A task row is there for good. -/
theorem Effect.still_scheduled {before after : State} {event : Event}
    (effect : Effect before event after) {id : VideoId}
    (scheduled : isScheduled before.stores id = true) : isScheduled after.stores id = true := by
  obtain ⟨added, change⟩ := effect.tasksAdded
  rw [change.scheduled, scheduled, Bool.true_or]

/-- A deletion that is under way is scheduled. -/
theorem Effect.deletions_scheduled {before after : State} {event : Event}
    (effect : Effect before event after)
    (scheduled : ∀ deletion ∈ before.deletions, isScheduled before.stores deletion.id = true) :
    ∀ deletion ∈ after.deletions, isScheduled after.stores deletion.id = true := by
  have older : ∀ other ∈ before.deletions, isScheduled after.stores other.id = true :=
    fun other inside => effect.still_scheduled (scheduled other inside)
  cases effect with
  | startDeletion task id row found named =>
      refine forall_mem_snoc older ?_
      exact List.any_eq_true.mpr ⟨row, Table.mem_of_find? found, named⟩
  | deletion index event moving next stores slot effect =>
      exact forall_mem_set older (older moving (List.mem_of_getElem? slot))
  | advance | unborn | born | original | tasks | startCompletion | completion | startExecution |
    execution | startSweep | sweep => exact older

/-! ## The rows -/

variable {stores reached : Stores} {execution next : Execution}

/-- A step that writes no token finishes no video. -/
theorem RowsEffect.processed {before after : Stores} (effect : RowsEffect before after)
    (tokens : after.tokens = before.tokens) {id : VideoId}
    (processed : isProcessed after id = true) : isProcessed before id = true := by
  obtain ⟨row, found, status⟩ := (isProcessed_iff after id).mp processed
  refine (isProcessed_iff before id).mpr ?_
  cases effect.tokenless tokens found with
  | born pending =>
      rw [status] at pending
      cases pending
  | same there => exact ⟨row, there, status⟩
  | moved old there token unfinished => exact absurd status unfinished

/-- A video is finished by the handler that is about to finalize it. -/
theorem ExecutionEffect.processed {event : ExecutionEvent}
    (effect : ExecutionEffect stores execution event reached next) {id : VideoId}
    (processed : isProcessed reached id = true) :
    isProcessed stores id = true ∨ ∃ fault video, event = .call fault ∧
      execution.phase = .finalize video ∧ video.id = id ∧ isProcessing stores id = true ∧
      reached.tasks = stores.tasks := by
  have rows := effect.rows
  cases effect with
  | published shareToken _ videos publishing drawn there _ updated =>
      obtain ⟨row, found, status⟩ := (isProcessed_iff _ id).mp processed
      rw [find?_updateToken updated] at found
      obtain ⟨old, present, rfl⟩ := Option.map_eq_some_iff.mp found
      split at status
      · cases status
      · exact .inl ((isProcessed_iff _ id).mpr ⟨old, present, status⟩)
  | finalized shareToken video _ videos phase before drawn there _ updated answered =>
      obtain ⟨row, found, status⟩ := (isProcessed_iff _ id).mp processed
      rw [find?_updateToken updated] at found
      obtain ⟨old, present, rfl⟩ := Option.map_eq_some_iff.mp found
      split at status
      · rename_i mine
        exact .inr ⟨_, video, rfl, before, mine.1.symm,
          (isProcessing_iff _ id).mpr ⟨old, present, mine.2⟩, rfl⟩
      · exact .inl ((isProcessed_iff _ id).mpr ⟨old, present, status⟩)
  | quiet | claimed | cleaned | failed | uploaded => exact .inl (rows.processed rfl processed)

/-- Where a video is finished, its deletion was not scheduled. -/
theorem Effect.processed {before after : State} {event : Event} (effect : Effect before event after)
    (permitted : Careful before event) {id : VideoId}
    (processed : isProcessed after.stores id = true) :
    isProcessed before.stores id = true ∨
      isScheduled before.stores id = false ∧ after.stores.tasks = before.stores.tasks := by
  have rows := effect.rows
  cases effect with
  | execution index event execution next stores slot effect =>
      rcases effect.processed processed with
        older | ⟨fault, video, rfl, phase, rfl, processing, tasks⟩
      · exact .inl older
      · have safe : (!(isProcessing before.stores video.id &&
            isScheduled before.stores video.id)) = true := by
          simpa only [Careful, careful, slot, Option.all_some, phase] using permitted
        rw [processing] at safe
        exact .inr ⟨by simpa using safe, tasks⟩
  | completion index event completion stores next slot effect =>
      exact .inl (rows.processed (by cases effect <;> rfl) processed)
  | sweep index event phase next stores slot effect =>
      exact .inl (rows.processed (by cases effect <;> rfl) processed)
  | deletion index event deletion next stores slot effect =>
      exact .inl (rows.processed (by cases effect <;> rfl) processed)
  | advance | unborn | born | original | tasks | startCompletion | startExecution | startSweep |
    startDeletion => exact .inl (rows.processed rfl processed)

/-! ## The invariant -/

structure Retained (state : State) : Prop where
  deletions : ∀ deletion ∈ state.deletions, isScheduled state.stores deletion.id = true
  rows : ∀ id, isProcessed state.stores id = true → isScheduled state.stores id = false

theorem Retained.initial (now : Instant) : Retained (State.initial now) :=
  ⟨fun _ member => absurd member List.not_mem_nil, fun _ _ => rfl⟩

theorem Retained.step {before after : State} {event : Event} (retained : Retained before)
    (effect : Effect before event after) (permitted : Careful before event) : Retained after := by
  refine ⟨effect.deletions_scheduled retained.deletions, fun id processed => ?_⟩
  rcases effect.processed permitted processed with older | ⟨unscheduled, tasks⟩
  · have unscheduled := retained.rows id older
    refine Bool.eq_false_iff.mpr fun scheduled => ?_
    rcases effect.scheduled permitted scheduled with already | unfinished
    · rw [unscheduled] at already
      cases already
    · rw [older] at unfinished
      cases unfinished
  · rw [isScheduled, tasks]
    exact unscheduled

/-! ## A finished video stays -/

theorem find?_updateStatusIf_processed {videos : VideoTable} {id : VideoId} {row : Video}
    (found : videos.find? id = some row) (processed : row.status = .processed) (owner : VideoId)
    {expected newStatus : VideoStatus} (other : expected ≠ .processed) :
    (updateStatusIf videos owner expected newStatus).1.find? id = some row := by
  rw [find?_updateStatusIf, found, Option.map_some, if_neg]
  rintro ⟨_, status⟩
  exact other (status.symm.trans processed)

theorem find?_updateToken_processed {videos after : VideoTable} {id owner : VideoId} {row : Video}
    {shareToken : String} {status : VideoStatus} {touched : Bool}
    (updated : updateToken videos owner shareToken status = some (after, touched))
    (found : videos.find? id = some row) (processed : row.status = .processed) :
    after.find? id = some row := by
  rw [find?_updateToken updated, found, Option.map_some, if_neg]
  rintro ⟨_, processing⟩
  rw [processing] at processed
  cases processed

theorem find?_bulkMarkFailed_processed {videos : VideoTable} {id : VideoId} {row : Video}
    (found : videos.find? id = some row) (processed : row.status = .processed)
    (ids : List VideoId) :
    (bulkMarkFailed videos ids [.uploaded, .processing]).find? id = some row := by
  rw [find?_bulkMarkFailed, found, Option.map_some, if_neg]
  rintro ⟨_, stuck⟩
  simp [processed] at stuck

/-- A deletion that is under way is one of another video. -/
theorem Retained.deletion_ne {state : State} (retained : Retained state) {id : VideoId}
    (processed : isProcessed state.stores id = true) {deletion : Deletion}
    (member : deletion ∈ state.deletions) : deletion.id ≠ id := by
  rintro rfl
  have scheduled := retained.deletions deletion member
  rw [retained.rows deletion.id processed] at scheduled
  cases scheduled

theorem Effect.processed_kept {before after : State} {event : Event}
    (effect : Effect before event after) (served : Served before) {id : VideoId} {row : Video}
    (undeleted : ∀ deletion ∈ before.deletions, deletion.id ≠ id)
    (found : before.stores.videos.find? id = some row) (processed : row.status = .processed) :
    after.stores.videos.find? id = some row := by
  cases effect with
  | born new title format videos fresh inserted =>
      have known := served.outbox.issued id row found
      have other : new ≠ id := by
        rintro rfl
        exact fresh known
      exact (Table.find?_insert? inserted id).trans ((if_neg other).trans found)
  | completion index event completion stores next slot effect =>
      cases effect with
      | uploaded video _ seed tasks _ phase _ pending change answered =>
          exact find?_updateStatusIf_processed found processed _ (by decide)
      | quiet | rejected => exact found
  | execution index event execution next stores slot effect =>
      cases effect with
      | claimed video _ _ phase _ uploaded answered =>
          exact find?_updateStatusIf_processed found processed _ (by decide)
      | published shareToken _ videos publishing drawn _ _ updated =>
          exact find?_updateToken_processed updated found processed
      | finalized shareToken video _ videos phase before drawn _ _ updated answered =>
          exact find?_updateToken_processed updated found processed
      | failed video seed tasks result phase change =>
          exact find?_updateStatusIf_processed found processed _ (by decide)
      | quiet | cleaned | uploaded => exact found
  | sweep index event phase next stores slot effect =>
      cases effect with
      | marked stale failed _ origin => exact find?_bulkMarkFailed_processed found processed _
      | quiet | scheduled => exact found
  | deletion index event deletion next stores slot effect =>
      have member := List.mem_of_getElem? slot
      cases effect with
      | rowDeleted video _ phase answered =>
          have named := (served.snapshots.deletions deletion member video (by rw [phase]; rfl)).1
          have other := undeleted deletion member
          exact (find?_deleteVideo _ _ _).trans ((if_neg (named ▸ other)).trans found)
      | found | ended | prefixed | objectDeleted => exact found
  | advance | unborn | original | tasks | startCompletion | startExecution | startSweep |
    startDeletion => exact found

/-- No step of a deletion touches the original of another video. -/
theorem DeletionEffect.original_kept {deletion : Deletion} {event : DeletionEvent}
    {phase : DeletionPhase} (effect : DeletionEffect stores deletion event reached phase)
    (keyed : ∀ video, deletion.phase.video? = some video → Keyed deletion.id video)
    {id : VideoId} (other : deletion.id ≠ id) (format : VideoFormat) :
    reached.objects.find? (originalKey id format) =
      stores.objects.find? (originalKey id format) := by
  cases effect with
  | prefixed video kept _ before answered =>
      exact (find?_deletePrefix _ _ _ _).trans (if_neg fun covered => by
        rw [Video.storagePrefix, not_under_originalKey] at covered
        cases covered.1)
  | objectDeleted video _ before answered =>
      have key := (keyed video (by rw [before]; rfl)).2
      refine (find?_deleteObject _ _ _).trans (if_neg fun same => ?_)
      exact other (originalKey_video (key.symm.trans same))
  | found | ended | rowDeleted => rfl

/-- Once a video is finished, no step of `DeleteVideo` removes its row, its upload
or anything under its prefix, in every run that is careful. -/
theorem processed_retained {now : Instant} {seen state after : State} {id : VideoId} {row : Video}
    (reached : Reaches step Careful (State.initial now) seen)
    (found : seen.stores.videos.find? id = some row) (processed : row.status = .processed)
    (continued : Reaches step Careful seen state) {index : Nat} {event : DeletionEvent}
    (stepped : step state (.deletion index event) = some after) :
    after.stores.videos.find? id = some row ∧
    after.stores.objects.find? row.uploadKey = state.stores.objects.find? row.uploadKey ∧
    OutputSame id state.stores.objects after.stores.objects := by
  have start : Served seen ∧ Retained seen := by
    refine reached.preserves (fun state => Served state ∧ Retained state)
      ⟨.initial now, .initial now⟩ fun holds permitted stepped => ?_
    exact ⟨holds.1.step (step_effect stepped),
      holds.2.step (step_effect stepped) permitted⟩
  obtain ⟨⟨served, retained⟩, held⟩ : (Served state ∧ Retained state) ∧
      state.stores.videos.find? id = some row := by
    refine continued.preserves (fun state => (Served state ∧ Retained state) ∧
      state.stores.videos.find? id = some row) ⟨start, found⟩ fun holds permitted stepped => ?_
    have effect := step_effect stepped
    have finished := (isProcessed_iff _ id).mpr ⟨row, holds.2, processed⟩
    exact ⟨⟨holds.1.1.step effect, holds.1.2.step effect permitted⟩,
      effect.processed_kept holds.1.1 (fun _ => holds.1.2.deletion_ne finished) holds.2 processed⟩
  have finished : isProcessed state.stores id = true :=
    (isProcessed_iff _ id).mpr ⟨row, held, processed⟩
  have effect := step_effect stepped
  refine ⟨effect.processed_kept served (fun _ => retained.deletion_ne finished) held processed,
    ?_, ?_⟩
  · rw [(served.snapshots.rows id row held).2]
    cases effect with
    | deletion _ _ deletion next stores slot effect =>
        have member := List.mem_of_getElem? slot
        exact effect.original_kept (served.snapshots.deletions deletion member)
          (retained.deletion_ne finished member) row.format
  · cases effect.output served.snapshots id with
    | same same => exact same
    | deleted _ deletion video fault kept _ slot named phase objects =>
        exact absurd named (retained.deletion_ne finished (List.mem_of_getElem? slot))

/-- A video is processed while the upload of another one is turned down, and the
other is about to be deleted. -/
def keptVideo (id other : VideoId) (task otherTask : TaskId) : List Event :=
  processedVideo id task "token" ++
    [.initiate other "another title" .mkv true,
      .putOriginal other .mkv "video/x-matroska" (.bytes ⟨16, fun _ => 0⟩),
      .startCompletion other, .completion 1 (.call .none), .completion 1 (.call .none),
      .completion 1 (.call .none), .completion 1 (.reject .none ⟨otherTask, none⟩),
      .startDeletion otherTask other, .deletion 0 (.call .none)]

theorem processed_retained_keptVideo : ∃ state after row,
    Reaches step Careful (State.initial 0) state ∧
    step state (.deletion 0 (.deletePrefix .none [])) = some after ∧
    after.stores.videos.find? ⟨.ofNat 7⟩ = some row ∧ row.status = .processed := by
  have passed : ((run step Careful (State.initial 0)
      (keptVideo ⟨.ofNat 7⟩ ⟨.ofNat 9⟩ ⟨.ofNat 8⟩ ⟨.ofNat 10⟩)).map fun state =>
        isProcessed state.stores ⟨.ofNat 7⟩ &&
        (step state (.deletion 0 (.deletePrefix .none []))).isSome) = some true := by decide
  obtain ⟨state, reached, passed⟩ := reaches_of_check _ passed
  obtain ⟨processed, moves⟩ := Bool.and_eq_true_iff.mp passed
  obtain ⟨row, found, status⟩ := (isProcessed_iff _ _).mp processed
  obtain ⟨after, stepped⟩ := Option.isSome_iff_exists.mp moves
  refine ⟨state, after, row, reached, stepped, ?_, status⟩
  exact (processed_retained reached found status .refl stepped).1

/-! ## A finished video that goes -/

/-- The finalization takes effect, but its answer is lost. -/
def lostFinalization (id : VideoId) (task : TaskId) (shareToken : String) : List Event :=
  claimedVideo id task ++ startedTranscode shareToken ++ segmentTranscode ++
    [.execution 0 (.call (.error true "connection reset"))]

/-- The handler then has the video deleted. -/
def failedDeletion (id : VideoId) (task : TaskId) : List Event :=
  [.execution 0 (.fail .none ⟨task, none⟩), .startDeletion task id, .deletion 0 (.call .none),
    .deletion 0 (.deletePrefix .none []), .deletion 0 (.call .none)]

set_option maxRecDepth 2000 in
/-- A finished video with its master is there, the deletion takes both away. -/
theorem lostFinalization_destroys : ∃ seen state after,
    Reaches step Anything (State.initial 0) seen ∧
    isProcessed seen.stores ⟨.ofNat 7⟩ = true ∧
    (seen.stores.objects.find? (storagePrefix ⟨.ofNat 7⟩ ++ MASTER_FILENAME)).isSome = true ∧
    Reaches step Anything seen state ∧
    isProcessed state.stores ⟨.ofNat 7⟩ = true ∧
    step state (.deletion 0 (.call .none)) = some after ∧
    after.stores.videos.find? ⟨.ofNat 7⟩ = none ∧
    after.stores.objects.find? (storagePrefix ⟨.ofNat 7⟩ ++ MASTER_FILENAME) = none := by
  have passed : ((run step Anything (State.initial 0)
      (lostFinalization ⟨.ofNat 7⟩ ⟨.ofNat 8⟩ "token")).map fun seen =>
        isProcessed seen.stores ⟨.ofNat 7⟩ &&
        (seen.stores.objects.find? (storagePrefix ⟨.ofNat 7⟩ ++ MASTER_FILENAME)).isSome &&
        (run step Anything seen (failedDeletion ⟨.ofNat 7⟩ ⟨.ofNat 9⟩)).any fun state =>
          isProcessed state.stores ⟨.ofNat 7⟩ &&
          (step state (.deletion 0 (.call .none))).any fun after =>
            (after.stores.videos.find? ⟨.ofNat 7⟩).isNone &&
            (after.stores.objects.find? (storagePrefix ⟨.ofNat 7⟩ ++ MASTER_FILENAME)).isNone) =
      some true := by decide
  obtain ⟨seen, reached, passed⟩ := reaches_of_check _ passed
  obtain ⟨finished, later⟩ := Bool.and_eq_true_iff.mp passed
  obtain ⟨processed, master⟩ := Bool.and_eq_true_iff.mp finished
  obtain ⟨state, ran, passed⟩ := (Option.any_eq_true _ _).mp later
  obtain ⟨still, passed⟩ := Bool.and_eq_true_iff.mp passed
  obtain ⟨after, stepped, gone⟩ := (Option.any_eq_true _ _).mp passed
  obtain ⟨row, output⟩ := Bool.and_eq_true_iff.mp gone
  exact ⟨seen, state, after, reached, processed, master, reaches_of_run _ ran, still, stepped,
    Option.isNone_iff_eq_none.mp row, Option.isNone_iff_eq_none.mp output⟩

end Benri.Service
