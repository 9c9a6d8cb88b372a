import Benri.Service.Effect

namespace Benri.Service

open Benri.Data Benri.Domain Benri.Postgres Benri.Storage Benri.Transition

/-! # The rows of one video

Which new task rows name a video, and what the statements leave of a video's
row.
-/

theorem metadataNames_video (id wanted : VideoId) :
    metadataNames (.object [("video_id", .string id.uuid.text)]) wanted = decide (id = wanted) := by
  have texts : id.uuid.text = wanted.uuid.text ↔ id = wanted := by
    refine ⟨fun same => ?_, fun same => by rw [same]⟩
    cases id
    cases wanted
    exact congrArg VideoId.mk (Uuid.text_injective same)
  simp [metadataNames, texts]

@[simp] theorem processesVideo_process (stores : Stores) (id wanted : VideoId) (seed : TaskSeed) :
    processesVideo (pendingTask stores (ProcessVideoTaskMetadata.mk id) seed) wanted =
      decide (id = wanted) := by
  simp only [processesVideo, pendingTask, buildPendingTask, TaskMetadata.metadataTypeName,
    TaskMetadata.toValue, metadataNames_video, decide_true, Bool.true_and]

@[simp] theorem processesVideo_delete (stores : Stores) (id wanted : VideoId) (seed : TaskSeed) :
    processesVideo (pendingTask stores (DeleteVideoTaskMetadata.mk id) seed) wanted = false := by
  have other : DeleteVideoTaskMetadata.METADATA_TYPE ≠ ProcessVideoTaskMetadata.METADATA_TYPE := by
    decide
  simp [processesVideo, pendingTask, buildPendingTask, TaskMetadata.metadataTypeName, other]

@[simp] theorem deletesVideo_process (stores : Stores) (id wanted : VideoId) (seed : TaskSeed) :
    deletesVideo (pendingTask stores (ProcessVideoTaskMetadata.mk id) seed) wanted = false := by
  have other : ProcessVideoTaskMetadata.METADATA_TYPE ≠ DeleteVideoTaskMetadata.METADATA_TYPE := by
    decide
  simp [deletesVideo, pendingTask, buildPendingTask, TaskMetadata.metadataTypeName, other]

@[simp] theorem deletesVideo_delete (stores : Stores) (id wanted : VideoId) (seed : TaskSeed) :
    deletesVideo (pendingTask stores (DeleteVideoTaskMetadata.mk id) seed) wanted =
      decide (id = wanted) := by
  simp only [deletesVideo, pendingTask, buildPendingTask, TaskMetadata.metadataTypeName,
    TaskMetadata.toValue, metadataNames_video, decide_true, Bool.true_and]

theorem SystemOnly.processes {added : List Task} (system : SystemOnly added) (id : VideoId) :
    ∀ task ∈ added, processesVideo task id = false := by
  intro task member
  have other : CleanupStaleVideosTaskMetadata.METADATA_TYPE ≠
      ProcessVideoTaskMetadata.METADATA_TYPE := by decide
  simp [processesVideo, system task member, other]

theorem SystemOnly.deletes {added : List Task} (system : SystemOnly added) (id : VideoId) :
    ∀ task ∈ added, deletesVideo task id = false := by
  intro task member
  have other : CleanupStaleVideosTaskMetadata.METADATA_TYPE ≠
      DeleteVideoTaskMetadata.METADATA_TYPE := by decide
  simp [deletesVideo, system task member, other]

theorem DeletesOnly.processes {ids : List VideoId} {added : List Task}
    (deletes : DeletesOnly ids added) (id : VideoId) :
    ∀ task ∈ added, processesVideo task id = false := by
  intro task member
  obtain ⟨wanted, _, stores, seed, rfl⟩ := deletes task member
  exact processesVideo_delete stores wanted id seed

/-- How many rows a property of the metadata counts. -/
theorem TasksAdded.countP {before after : TaskTable} {added : List Task} {property : Task → Bool}
    (change : TasksAdded before after added)
    (metadata : ∀ left right : Task, left.metadataType = right.metadataType →
      left.metadata = right.metadata → property left = property right) :
    after.rows.countP property = before.rows.countP property + added.countP property := by
  obtain ⟨reschedule, keeps, rows⟩ := change
  have same : property ∘ reschedule = property := by
    funext row
    exact metadata _ _ (keeps row).1 (keeps row).2
  rw [rows, List.countP_append, List.countP_map, same]

theorem processesVideo_metadata (id : VideoId) (left right : Task)
    (type : left.metadataType = right.metadataType) (metadata : left.metadata = right.metadata) :
    processesVideo left id = processesVideo right id := by
  rw [processesVideo, processesVideo, type, metadata]

theorem deletesVideo_metadata (id : VideoId) (left right : Task)
    (type : left.metadataType = right.metadataType) (metadata : left.metadata = right.metadata) :
    deletesVideo left id = deletesVideo right id := by
  rw [deletesVideo, deletesVideo, type, metadata]

/-! ## Video rows -/

/-- Every row comes from a row of before, related to it. -/
def RowsFrom (related : Video → Video → Prop) (before after : VideoTable) : Prop :=
  ∀ id row, after.find? id = some row → ∃ old, before.find? id = some old ∧ related old row

theorem RowsFrom.of_map {related : Video → Video → Prop} {before after : VideoTable}
    {change : VideoId → Video → Video}
    (found : ∀ id, after.find? id = (before.find? id).map (change id))
    (relates : ∀ id row, before.find? id = some row → related row (change id row)) :
    RowsFrom related before after := by
  intro id row member
  rw [found] at member
  obtain ⟨old, there, rfl⟩ := Option.map_eq_some_iff.mp member
  exact ⟨old, there, relates id old there⟩

theorem RowsFrom.same {related : Video → Video → Prop} (reflexive : ∀ row, related row row)
    (videos : VideoTable) : RowsFrom related videos videos :=
  fun _ row found => ⟨row, found, reflexive row⟩

theorem RowsFrom.delete {related : Video → Video → Prop} (reflexive : ∀ row, related row row)
    (videos : VideoTable) (id : VideoId) : RowsFrom related videos (deleteVideo videos id) := by
  intro wanted row found
  rw [find?_deleteVideo] at found
  split at found
  · contradiction
  · exact ⟨row, found, reflexive row⟩

/-- What a row goes through once its upload is complete, in a step that writes
the tokens `written`. -/
inductive Proceeds (written : List (VideoId × String)) : Video → Video → Prop where
  | same (row : Video) : Proceeds written row row
  | claimed (row : Video) (uploaded : row.status = .uploaded) :
      Proceeds written row { row with status := .processing }
  | failed (row : Video) (stuck : row.status = .uploaded ∨ row.status = .processing) :
      Proceeds written row { row with status := .failed }
  | token (row : Video) (shareToken : String) (status : VideoStatus)
      (processing : row.status = .processing)
      (settled : status = .processing ∨ status = .processed)
      (recorded : (row.id, shareToken) ∈ written) :
      Proceeds written row (withToken shareToken status row)

variable {written : List (VideoId × String)}

theorem proceeds_updateStatusIf (written : List (VideoId × String)) (videos : VideoTable)
    (id : VideoId) {expected newStatus : VideoStatus}
    (move : expected = .uploaded ∧ newStatus = .processing ∨
      expected = .processing ∧ newStatus = .failed) :
    RowsFrom (Proceeds written) videos (updateStatusIf videos id expected newStatus).1 := by
  refine .of_map (find?_updateStatusIf videos id expected newStatus) fun wanted row _ => ?_
  split
  · rename_i touched
    rcases move with ⟨rfl, rfl⟩ | ⟨rfl, rfl⟩
    · exact .claimed row touched.2
    · exact .failed row (.inr touched.2)
  · exact .same row

theorem proceeds_updateToken {videos after : VideoTable} {id : VideoId} {shareToken : String}
    {status : VideoStatus} {touched : Bool} (settled : status = .processing ∨ status = .processed)
    (updated : updateToken videos id shareToken status = some (after, touched)) :
    RowsFrom (Proceeds [(id, shareToken)]) videos after := by
  refine .of_map (find?_updateToken updated) fun wanted row found => ?_
  split
  · rename_i reached
    refine .token row shareToken status reached.2 settled ?_
    rw [show row.id = id from (Table.key_of_find? found).trans reached.1]
    exact List.mem_singleton_self _
  · exact .same row

theorem proceeds_bulkMarkFailed (written : List (VideoId × String)) (videos : VideoTable)
    (ids : List VideoId) :
    RowsFrom (Proceeds written) videos (bulkMarkFailed videos ids [.uploaded, .processing]) := by
  refine .of_map (find?_bulkMarkFailed videos ids _) fun wanted row _ => ?_
  split
  · rename_i stuck
    exact .failed row (by simpa using stuck.2)
  · exact .same row

/-- Nothing goes back to `PENDING_UPLOAD`, and nothing leaves it this way. -/
theorem Proceeds.pending {old row : Video} (proceeds : Proceeds written old row) :
    row.status = .pendingUpload ↔ old.status = .pendingUpload := by
  cases proceeds with
  | same => rfl
  | claimed uploaded => simp [uploaded]
  | failed stuck => rcases stuck with status | status <;> simp [status]
  | token shareToken status processing settled recorded =>
      rcases settled with rfl | rfl <;> simp [withToken, processing]

/-- How many `ProcessVideo` tasks a video has, whatever their status. -/
def processRows (stores : Stores) (id : VideoId) : Nat :=
  stores.tasks.rows.countP fun task => processesVideo task id

theorem TasksAdded.processRows {before after : Stores} {added : List Task}
    (change : TasksAdded before.tasks after.tasks added) (id : VideoId) :
    Service.processRows after id = Service.processRows before id +
      added.countP fun task => processesVideo task id :=
  change.countP (processesVideo_metadata id)

theorem TasksAdded.processRows_other {before after : Stores} {added : List Task}
    (change : TasksAdded before.tasks after.tasks added)
    (other : ∀ id, ∀ task ∈ added, processesVideo task id = false) (id : VideoId) :
    Service.processRows after id = Service.processRows before id := by
  rw [change.processRows, List.countP_eq_zero.mpr fun task member => ?_, Nat.add_zero]
  rw [other id task member]
  exact Bool.false_ne_true

/-- What a step does to the video rows, the ids given out, the tokens written,
and the number of `ProcessVideo` tasks. -/
inductive RowsEffect (before after : Stores) : Prop where
  | proceeds (written : List (VideoId × String))
      (rows : RowsFrom (Proceeds written) before.videos after.videos)
      (issued : before.issued ⊆ after.issued) (tokens : after.tokens = before.tokens ++ written)
      (tasks : ∀ id, processRows after id = processRows before id)
  | born (id : VideoId) (title : String) (format : VideoFormat) (fresh : id ∉ before.issued)
      (rows : ∀ wanted, after.videos.find? wanted =
        if id = wanted then some (newVideo before id title format)
        else before.videos.find? wanted)
      (issued : after.issued = before.issued ++ [id]) (tokens : after.tokens = before.tokens)
      (tasks : ∀ wanted, processRows after wanted = processRows before wanted)
  | uploaded (id : VideoId) (row : Video) (found : before.videos.find? id = some row)
      (pending : row.status = .pendingUpload)
      (rows : after.videos = (updateStatusIf before.videos id .pendingUpload .uploaded).1)
      (issued : after.issued = before.issued) (tokens : after.tokens = before.tokens)
      (tasks : ∀ wanted, processRows after wanted =
        processRows before wanted + if id = wanted then 1 else 0)

/-- A step that brings no row, and takes none out of `PENDING_UPLOAD`. -/
inductive RowsProceed (before after : Stores) : Prop where
  | intro (written : List (VideoId × String))
      (rows : RowsFrom (Proceeds written) before.videos after.videos)
      (issued : before.issued ⊆ after.issued) (tokens : after.tokens = before.tokens ++ written)
      (tasks : ∀ id, processRows after id = processRows before id)

theorem RowsProceed.effect {before after : Stores} (proceed : RowsProceed before after) :
    RowsEffect before after := by
  obtain ⟨written, rows, issued, tokens, tasks⟩ := proceed
  exact .proceeds written rows issued tokens tasks

/-- A step that leaves the video rows alone. -/
theorem RowsProceed.quiet {before after : Stores} (videos : after.videos = before.videos)
    (issued : before.issued ⊆ after.issued) (tokens : after.tokens = before.tokens)
    (tasks : ∀ id, Service.processRows after id = Service.processRows before id) :
    RowsProceed before after :=
  .intro [] (videos ▸ .same Proceeds.same _) issued (by rw [tokens, List.append_nil]) tasks

/-- A step that moves statuses and writes no token. -/
theorem RowsProceed.moved {before after : Stores}
    (rows : RowsFrom (Proceeds []) before.videos after.videos)
    (issued : after.issued = before.issued)
    (tokens : after.tokens = before.tokens)
    (tasks : ∀ id, Service.processRows after id = Service.processRows before id) :
    RowsProceed before after :=
  .intro [] rows (by rw [issued]; exact List.Subset.refl _)
    (by rw [tokens, List.append_nil]) tasks

theorem RowsEffect.quiet {before after : Stores} (videos : after.videos = before.videos)
    (issued : before.issued ⊆ after.issued) (tokens : after.tokens = before.tokens)
    (tasks : ∀ id, Service.processRows after id = Service.processRows before id) :
    RowsEffect before after :=
  (RowsProceed.quiet videos issued tokens tasks).effect

variable {before after : State} {event : Event}

theorem ExecutionEffect.proceed {stores reached : Stores} {event : ExecutionEvent}
    {execution next : Execution}
    (effect : ExecutionEffect stores execution event reached next) : RowsProceed stores reached := by
  cases effect with
  | quiet _ advance => exact .quiet rfl (List.Subset.refl _) rfl fun _ => rfl
  | claimed video row _ phase found uploaded answered =>
      exact .moved (proceeds_updateStatusIf _ _ _ (.inl ⟨rfl, rfl⟩)) rfl rfl fun _ => rfl
  | published shareToken row videos publishing drawn found processing updated =>
      exact .intro _ (proceeds_updateToken (.inl rfl) updated) (List.Subset.refl _) rfl
        fun _ => rfl
  | finalized shareToken video row videos next phase drawn found processing updated answered =>
      exact .intro _ (proceeds_updateToken (.inr rfl) updated) (List.Subset.refl _) rfl
        fun _ => rfl
  | cleaned video result phase => exact .quiet rfl (List.Subset.refl _) rfl fun _ => rfl
  | failed video seed tasks result phase change =>
      refine .moved (proceeds_updateStatusIf _ _ _ (.inr ⟨rfl, rfl⟩)) rfl rfl ?_
      exact TasksAdded.processRows_other change (DeletesOnly.single video.id stores seed).processes
  | uploaded upload after objects event before stepped =>
      exact .quiet rfl (List.Subset.refl _) rfl fun _ => rfl

theorem ExecutionEffect.rows {stores reached : Stores} {event : ExecutionEvent}
    {execution next : Execution}
    (effect : ExecutionEffect stores execution event reached next) : RowsEffect stores reached :=
  effect.proceed.effect

theorem CompletionEffect.rows {stores reached : Stores} {event : CompletionEvent}
    {completion : Completion} {next : CompletionPhase}
    (effect : CompletionEffect stores completion event reached next) :
    RowsEffect stores reached := by
  cases effect with
  | quiet _ unfinished video => exact .quiet rfl (List.Subset.refl _) rfl fun _ => rfl
  | rejected video error tasks added phase change deletes =>
      exact .quiet rfl (List.Subset.refl _) rfl
        (TasksAdded.processRows_other change deletes.processes)
  | uploaded video row seed tasks _ phase found pending change answered =>
      refine .uploaded video.id row found pending rfl rfl rfl fun wanted => ?_
      rw [TasksAdded.processRows change]
      by_cases same : video.id = wanted <;> simp [same]

theorem SweepEffect.proceed {stores reached : Stores} {event : SweepEvent}
    {phase next : SweepPhase} (effect : SweepEffect stores phase event reached next) :
    RowsProceed stores reached := by
  cases effect with
  | quiet _ => exact .quiet rfl (List.Subset.refl _) rfl fun _ => rfl
  | marked stale failed _ origin =>
      exact .moved (proceeds_bulkMarkFailed _ _ _) rfl rfl fun _ => rfl
  | scheduled stale failed tasks added _ origin change deletes =>
      exact .quiet rfl (List.Subset.refl _) rfl
        (TasksAdded.processRows_other change deletes.processes)

theorem DeletionEffect.proceed {stores reached : Stores} {event : DeletionEvent}
    {deletion : Deletion} {next : DeletionPhase}
    (effect : DeletionEffect stores deletion event reached next) : RowsProceed stores reached := by
  cases effect with
  | found video phase found => exact .quiet rfl (List.Subset.refl _) rfl fun _ => rfl
  | ended _ video => exact .quiet rfl (List.Subset.refl _) rfl fun _ => rfl
  | prefixed video kept _ phase answered => exact .quiet rfl (List.Subset.refl _) rfl fun _ => rfl
  | objectDeleted video _ phase answered => exact .quiet rfl (List.Subset.refl _) rfl fun _ => rfl
  | rowDeleted video _ phase answered =>
      exact .moved (.delete Proceeds.same _ _) rfl rfl fun _ => rfl

theorem Effect.rows (effect : Effect before event after) :
    RowsEffect before.stores after.stores := by
  cases effect with
  | advance now later => exact .quiet rfl (List.Subset.refl _) rfl fun _ => rfl
  | unborn id title format fresh => exact .quiet rfl (List.subset_append_left _ _) rfl fun _ => rfl
  | born id title format videos fresh inserted =>
      exact .born id title format fresh (Table.find?_insert? inserted) rfl rfl fun _ => rfl
  | original id format contentType body => exact .quiet rfl (List.Subset.refl _) rfl fun _ => rfl
  | tasks statement tasks added change system =>
      exact .quiet rfl (List.Subset.refl _) rfl
        (TasksAdded.processRows_other change system.processes)
  | startCompletion id => exact .quiet rfl (List.Subset.refl _) rfl fun _ => rfl
  | completion index event completion stores next slot effect => exact effect.rows
  | startExecution task id row found named => exact .quiet rfl (List.Subset.refl _) rfl fun _ => rfl
  | execution index event execution next stores slot effect => exact effect.rows
  | startSweep => exact .quiet rfl (List.Subset.refl _) rfl fun _ => rfl
  | sweep index event phase next stores slot effect => exact effect.proceed.effect
  | startDeletion task id row found named => exact .quiet rfl (List.Subset.refl _) rfl fun _ => rfl
  | deletion index event deletion next stores slot effect => exact effect.proceed.effect

/-- Where a row comes from: it is a new one, or a statement has brought an old one on. -/
inductive Descends (before after : Stores) (id : VideoId) (row : Video) : Prop where
  | born (title : String) (format : VideoFormat) (fresh : id ∉ before.issued)
      (same : row = newVideo before id title format)
  | proceeds (old : Video) (written : List (VideoId × String))
      (there : before.videos.find? id = some old)
      (tokens : after.tokens = before.tokens ++ written) (proceeds : Proceeds written old row)
  | uploaded (old : Video) (there : before.videos.find? id = some old)
      (pending : old.status = .pendingUpload) (same : row = { old with status := .uploaded })

theorem RowsEffect.descends {before after : Stores} (effect : RowsEffect before after)
    {id : VideoId} {row : Video} (found : after.videos.find? id = some row) :
    Descends before after id row := by
  have kept : after.tokens = before.tokens → after.tokens = before.tokens ++ [] := by
    rw [List.append_nil]
    exact fun same => same
  cases effect with
  | proceeds written rows issued tokens tasks =>
      obtain ⟨old, there, proceeds⟩ := rows id row found
      exact .proceeds old written there tokens proceeds
  | born new title format fresh rows issued tokens tasks =>
      rw [rows] at found
      split at found
      · rename_i same
        cases found
        exact .born title format (same ▸ fresh) (same ▸ rfl)
      · exact .proceeds row [] found (kept tokens) (.same row)
  | uploaded moved waiting present pending rows issued tokens tasks =>
      rw [rows, find?_updateStatusIf] at found
      obtain ⟨old, there, rfl⟩ := Option.map_eq_some_iff.mp found
      split
      · rename_i touched
        exact .uploaded old there touched.2 rfl
      · exact .proceeds old [] there (kept tokens) (.same old)

/-- Where a row comes from in a step that writes no token. -/
inductive Tokenless (videos : VideoTable) (id : VideoId) (row : Video) : Prop where
  | born (pending : row.status = .pendingUpload) (token : row.shareToken = none)
  | same (there : videos.find? id = some row)
  | moved (old : Video) (there : videos.find? id = some old)
      (token : old.shareToken = row.shareToken) (unfinished : row.status ≠ .processed)
      (claimed : row.status = .processing → old.status = .uploaded)

theorem RowsEffect.tokenless {before after : Stores} (effect : RowsEffect before after)
    (tokens : after.tokens = before.tokens) {id : VideoId} {row : Video}
    (found : after.videos.find? id = some row) : Tokenless before.videos id row := by
  cases effect.descends found with
  | born title format fresh same =>
      subst same
      exact .born rfl rfl
  | proceeds old written there added proceeds =>
      have nothing : written = [] := List.append_right_eq_self.mp (added.symm.trans tokens)
      cases proceeds with
      | same => exact .same there
      | claimed uploaded => exact .moved old there rfl (fun same => by cases same) fun _ => uploaded
      | failed stuck =>
          exact .moved old there rfl (fun same => by cases same) fun same => by cases same
      | token shareToken status busy either recorded =>
          rw [nothing] at recorded
          exact absurd recorded List.not_mem_nil
  | uploaded old there pending same =>
      subst same
      exact .moved old there rfl (fun same => by cases same) fun same => by cases same

end Benri.Service
