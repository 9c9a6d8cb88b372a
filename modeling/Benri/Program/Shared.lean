import Benri.Program.System
import Benri.Service.Effect

namespace Benri.Program

open Benri.Data Benri.Domain Benri.Postgres Benri.Service Benri.Transition
open Benri.Worker (Cluster ClusterEvent Decoders RegisteredMetadata Serde clusterStep)

/-! # What the parts share

The use cases schedule tasks and leave the clock alone; the workers let time pass and
write to the scheduling columns.  So a row asks for the same work as long as it is there.
-/

/-! ## What a row asks for -/

def orderingKey : RegisteredMetadata → Option String
  | .processVideo metadata => TaskMetadata.orderingKey metadata
  | .deleteVideo metadata => TaskMetadata.orderingKey metadata
  | .cleanupStaleVideos metadata => TaskMetadata.orderingKey metadata

/-- A row that was written for the metadata. -/
structure Asks (task : Task) (metadata : RegisteredMetadata) : Prop where
  type : task.metadataType = metadata.metadataTypeName
  value : task.metadata = metadata.toValue
  key : task.orderingKey = orderingKey metadata

/-- Every row asks for something that a handler does. -/
def Legible (tasks : TaskTable) : Prop := ∀ task ∈ tasks.rows, ∃ metadata, Asks task metadata

/-- The ids of videos are read as they are written. -/
def ReadsIds (serde : Serde) : Prop := ∀ uuid : Uuid, serde.parseUuid uuid.text = .ok uuid

theorem Asks.route {serde : Serde} {task : Task} {metadata : RegisteredMetadata}
    (asks : Asks task metadata) (reads : ReadsIds serde) :
    Worker.route serde.decoders task = .ok metadata :=
  Serde.route_written (fun id _ => reads id.uuid) asks.type asks.value

/-- Rescheduling rows leaves what they ask for. -/
theorem Legible.map {tasks after : TaskTable} {reschedule : Task → Task} (legible : Legible tasks)
    (rows : after.rows = tasks.rows.map reschedule)
    (same : ∀ row, (reschedule row).metadataType = row.metadataType ∧
      (reschedule row).metadata = row.metadata ∧
      (reschedule row).orderingKey = row.orderingKey) : Legible after := by
  intro task member
  rw [rows] at member
  obtain ⟨row, inside, rfl⟩ := List.mem_map.mp member
  obtain ⟨metadata, asks⟩ := legible row inside
  obtain ⟨type, value, key⟩ := same row
  exact ⟨metadata, type.trans asks.type, value.trans asks.value, key.trans asks.key⟩

theorem Legible.create {tasks after : TaskTable} {task : Task} (legible : Legible tasks)
    (inserted : tasks.insert? task = some after) (asked : ∃ metadata, Asks task metadata) :
    Legible after := by
  intro row member
  rw [(Table.insert?_eq_some inserted).2, List.mem_append, List.mem_singleton] at member
  rcases member with member | rfl
  · exact legible row member
  · exact asked

/-! ## What the use cases write to the workers' stores -/

/-- A task that a use case schedules. -/
inductive VideoTask : Task → Prop where
  | process (stores : Stores) (id : VideoId) (seed : TaskSeed) :
      VideoTask (pendingTask stores (ProcessVideoTaskMetadata.mk id) seed)
  | delete (stores : Stores) (id : VideoId) (seed : TaskSeed) :
      VideoTask (pendingTask stores (DeleteVideoTaskMetadata.mk id) seed)

theorem VideoTask.asks {task : Task} (video : VideoTask task) : ∃ metadata, Asks task metadata := by
  cases video with
  | process stores id seed => exact ⟨.processVideo ⟨id⟩, rfl, rfl, rfl⟩
  | delete stores id seed => exact ⟨.deleteVideo ⟨id⟩, rfl, rfl, rfl⟩

theorem VideoTask.isNew {task : Task} (video : VideoTask task) : task.isNew = true := by
  cases video <;> rfl

theorem VideoTask.foreign {task : Task} (video : VideoTask task) :
    Worker.foreign (.create task) = true := by
  cases video <;> rfl

/-- A use case leaves the clock as it is, and of the tasks it only schedules new ones. -/
structure Schedules (before after : Stores) : Prop where
  now : after.now = before.now
  tasks : ∃ added, before.tasks.insertAll? added = some after.tasks ∧
    ∀ task ∈ added, VideoTask task

theorem Schedules.same {before after : Stores} (now : after.now = before.now)
    (tasks : after.tasks = before.tasks) : Schedules before after :=
  ⟨now, [], by rw [tasks]; rfl, by simp⟩

theorem Schedules.one {before after : Stores} {task : Task} (now : after.now = before.now)
    (inserted : before.tasks.insert? task = some after.tasks) (video : VideoTask task) :
    Schedules before after := by
  refine ⟨now, [task], ?_, by simpa using video⟩
  rw [Table.insertAll?, inserted]
  rfl

section UseCases

variable {stores reached : Stores} {before after : Service.State}

theorem schedules_of_completion {completion : Completion} {event : CompletionEvent}
    {next : CompletionPhase}
    (stepped : completionStep stores completion event = some (reached, next)) :
    Schedules stores reached := by
  obtain ⟨id, phase⟩ := completion
  cases completionStep_turn stepped with
  | rejected video error seed tasks inserted =>
      rcases inserted with rfl | inserted
      · exact .same rfl rfl
      · exact .one rfl inserted (.delete _ _ _)
  | transitioned video row seed tasks next found pending inserted answered =>
      exact .one rfl inserted (.process _ _ _)
  | loaded | measured | oversized | signed | unsigned | gaveUp | cut => exact .same rfl rfl

theorem schedules_of_failure (fault : TxFault) (id : VideoId) (seed : TaskSeed) :
    Schedules stores (failAndScheduleDelete stores fault id seed) := by
  unfold failAndScheduleDelete
  cases ran : runTransaction stores fault (failClosure fault id seed) with
  | mk reached answered =>
      rcases runTransaction_result ran with ⟨answer, closed, _⟩ | ⟨rfl, _⟩
      · obtain ⟨tasks, inserted, rfl⟩ := failClosure_result closed
        exact .one rfl inserted (.delete _ _ _)
      · exact .same rfl rfl

theorem schedules_of_execution {execution next : Execution} {event : ExecutionEvent}
    (stepped : executionStep stores execution event = some (reached, next)) :
    Schedules stores reached := by
  by_cases failing : ∃ fault seed, event = .fail fault seed
  · obtain ⟨fault, seed, rfl⟩ := failing
    cases executionStep_turn stepped with
    | failed video phase => exact schedules_of_failure fault _ seed
  · cases executionStep_effect stepped with
    | failed => exact absurd ⟨_, _, rfl⟩ failing
    | quiet | claimed | published | finalized | cleaned | uploaded => exact .same rfl rfl

theorem schedules_of_sweep {phase next : SweepPhase} {event : SweepEvent}
    (stepped : sweepStep stores phase event = some (reached, next)) : Schedules stores reached := by
  cases sweepStep_turn stepped with
  | scheduled stale failed seeds tasks next enough inserted =>
      refine ⟨rfl, _, inserted, fun task member => ?_⟩
      obtain ⟨id, _, stores, seed, rfl⟩ :=
        DeletesOnly.build stores (stale ++ failed) seeds task member
      exact .delete stores id seed
  | foundStale | foundFailed | foundNoneStuck | gaveUp | cut | marked => exact .same rfl rfl

theorem schedules_of_deletion {deletion : Deletion} {event : DeletionEvent} {next : DeletionPhase}
    (stepped : deletionStep stores deletion event = some (reached, next)) :
    Schedules stores reached := by
  cases deletionStep_effect stepped <;> exact .same rfl rfl

/-- A step of the service that is not one of the workers'. -/
def useCase : Service.Event → Bool
  | .advance _ | .tasks _ => false
  | _ => true

theorem schedules_of_step {event : Service.Event} (used : useCase event = true)
    (stepped : Service.step before event = some after) :
    Schedules before.stores after.stores := by
  cases event with
  | advance | tasks => cases used
  | initiate | putOriginal | startCompletion | startSweep | startExecution | startDeletion =>
      cases Service.step_effect stepped <;> exact .same rfl rfl
  | completion index event =>
      obtain ⟨⟨stores, slots⟩, moved, rfl⟩ := Option.map_eq_some_iff.mp stepped
      obtain ⟨completion, next, slot, inner, rfl⟩ := slotStep_eq_some moved
      obtain ⟨⟨_, phase⟩, advanced, same⟩ := Option.map_eq_some_iff.mp inner
      cases same
      exact schedules_of_completion advanced
  | execution index event =>
      obtain ⟨execution, next, _, advanced, _⟩ := execution_of_step stepped
      exact schedules_of_execution advanced
  | sweep index event =>
      obtain ⟨⟨stores, slots⟩, moved, rfl⟩ := Option.map_eq_some_iff.mp stepped
      obtain ⟨phase, next, slot, advanced, rfl⟩ := slotStep_eq_some moved
      exact schedules_of_sweep advanced
  | deletion index event =>
      obtain ⟨⟨stores, slots⟩, moved, rfl⟩ := Option.map_eq_some_iff.mp stepped
      obtain ⟨deletion, next, slot, inner, rfl⟩ := slotStep_eq_some moved
      obtain ⟨⟨_, phase⟩, advanced, same⟩ := Option.map_eq_some_iff.mp inner
      cases same
      exact schedules_of_deletion advanced

end UseCases

/-! ## What the workers write to the use cases' stores -/

/-- The workers let time pass, or write to the tasks with a statement of theirs. -/
inductive WorkersWrite (before : Stores) : Stores → Prop where
  | idle : WorkersWrite before before
  | advance (now : Instant) (later : before.now ≤ now) : WorkersWrite before { before with now }
  | statement (statement : TaskStatement) (after : Stores)
      (written : taskStatement before statement = some after) : WorkersWrite before after

/-- Stores as the workers leave them. -/
def shared (stores : Stores) (workers : Worker.State) : Stores :=
  { stores with tasks := workers.tasks, now := workers.now }

section Workers

variable {decoders : Decoders} {before after : Cluster} {stores : Stores}

theorem write_of_worker {before after : Worker.State} {event : Worker.Event}
    (same : shared stores before = stores) (stepped : Worker.step decoders before event = some after)
    (uncreated : ∀ task, event ≠ .create task) : WorkersWrite stores (shared stores after) := by
  have idle : after.tasks = before.tasks → after.now = before.now →
      WorkersWrite stores (shared stores after) := by
    intro tasks now
    rw [shared, tasks, now, ← shared, same]
    exact .idle
  have written : ∀ statement : TaskStatement,
      taskStatement (shared stores before) statement = some (shared stores after) →
      WorkersWrite stores (shared stores after) := by
    intro statement ran
    rw [same] at ran
    exact .statement statement _ ran
  cases Worker.step_effect stepped with
  | advance now later =>
      rw [← same]
      exact .advance now later
  | create task => exact absurd rfl (uncreated task)
  | poll index fault phase next reached slot effect =>
      cases effect with
      | marked token now ids => exact written (.markInProgress ids now) rfl
      | markFailed token now ids tasks perhaps =>
          rcases perhaps with rfl | rfl
          · exact idle rfl rfl
          · exact written (.markInProgress ids now) rfl
      | acquired | denied | clock | nothing | found | published | released => exact idle rfl rfl
  | written index fault id outcome tasks slot perhaps =>
      rcases perhaps with rfl | rfl
      · exact idle rfl rfl
      · exact written (.batchUpdate [outcome.update]) rfl
  | resetStale => exact written .resetStale rfl
  | startPoll | crashPoll | popped | popFailed | dispatched | skipped | handled | crashRun
    | wipeQueue => exact idle rfl rfl

/-- A check creates its task or leaves the workers as they were. -/
theorem checkCreate_workers (cluster : Cluster) (fault : Fault) (token : Redis.LockToken)
    (id : TaskId) (traceId : Option String) :
    (Worker.checkCreate cluster fault token id traceId).1.workers = cluster.workers ∨
      ∃ tasks, cluster.workers.tasks.insert? (buildPendingTask CleanupStaleVideosTaskMetadata.mk none
          id traceId cluster.workers.now) = some tasks ∧
        (Worker.checkCreate cluster fault token id traceId).1.workers =
          { cluster.workers with tasks } := by
  unfold Worker.checkCreate
  cases inserted : cluster.workers.tasks.insert? (buildPendingTask
      CleanupStaleVideosTaskMetadata.mk none id traceId cluster.workers.now) with
  | none => exact .inl rfl
  | some tasks =>
      cases fault with
      | none => exact .inr ⟨tasks, rfl, rfl⟩
      | error applied message =>
          cases applied with
          | true => exact .inr ⟨tasks, rfl, rfl⟩
          | false => exact .inl rfl

/-- The other calls of a check leave the workers as they were. -/
theorem checkStep_workers {cluster reached : Cluster} {fault : Fault}
    {phase next : Worker.CheckPhase}
    (stepped : Worker.checkStep cluster fault phase = some (reached, next)) :
    reached.workers = cluster.workers := by
  cases phase with
  | acquire =>
      have effect : Worker.CheckEffect cluster .acquire reached next := by
        have effect := Worker.checkAcquire_effect cluster fault
        rwa [Option.some.inj stepped] at effect
      cases effect with
      | acquired | denied => rfl
      | failed token error origin => rfl
  | countActive token => cases stepped; rfl
  | release token result =>
      have kept : (Worker.checkRelease cluster fault token result).1.workers = cluster.workers :=
        attempt_kept (fun reached : Cluster => reached.workers = cluster.workers) rfl rfl
      rwa [Option.some.inj stepped] at kept
  | create | finished | denied | crashed => cases stepped

theorem write_of_cluster {event : ClusterEvent} (same : shared stores before.workers = stores)
    (stepped : clusterStep decoders before event = some after)
    (uncreated : ∀ task, event ≠ .worker (.create task)) :
    WorkersWrite stores (shared stores after.workers) := by
  have kept : after.workers = before.workers →
      WorkersWrite stores (shared stores after.workers) := by
    intro workers
    rw [workers, same]
    exact .idle
  cases event with
  | worker event =>
      cases Worker.clusterStep_effect stepped with
      | worker _ workers others moved =>
          exact write_of_worker same moved fun task created => uncreated task (by rw [created])
      | check _ _ _ _ _ own => exact absurd rfl (own event)
  | create index fault id traceId =>
      simp only [clusterStep] at stepped
      split at stepped
      · rename_i token slot
        cases stepped
        rcases checkCreate_workers before fault token id traceId with
          workers | ⟨tasks, inserted, workers⟩
        · exact kept workers
        · have table : before.workers.tasks = stores.tasks := congrArg Stores.tasks same
          have now : before.workers.now = stores.now := congrArg Stores.now same
          refine .statement (.createSystemTask ⟨id, traceId⟩) _ ?_
          rw [table, now] at inserted
          simp only [taskStatement, pendingTask, inserted, Option.map_some]
          simp only [Cluster.setCheck, workers, shared, now]
      · contradiction
  | startCheck => cases stepped; exact kept rfl
  | crashCheck => cases stepped; exact kept rfl
  | check index fault =>
      obtain ⟨phase, slot, mapped⟩ := Option.bind_eq_some_iff.mp stepped
      obtain ⟨⟨reached, next⟩, moved, rfl⟩ := Option.map_eq_some_iff.mp mapped
      have workers := checkStep_workers moved
      exact kept workers

end Workers

/-! ## Rows stay legible -/

theorem Legible.schedules {stores reached : Stores} (legible : Legible stores.tasks)
    (schedules : Schedules stores reached) : Legible reached.tasks := by
  obtain ⟨added, inserted, video⟩ := schedules.tasks
  intro row member
  rw [Table.insertAll?_rows inserted, List.mem_append] at member
  rcases member with member | member
  · exact legible row member
  · exact (video row member).asks

theorem Legible.statement {stores reached : Stores} {statement : TaskStatement}
    (legible : Legible stores.tasks) (written : taskStatement stores statement = some reached) :
    Legible reached.tasks := by
  cases statement with
  | markInProgress ids startedAt =>
      cases written
      exact legible.map rfl fun row => by dsimp only; split <;> exact ⟨rfl, rfl, rfl⟩
  | batchUpdate updates =>
      cases written
      exact legible.map rfl fun row => by
        dsimp only
        split <;> (try split) <;> exact ⟨rfl, rfl, rfl⟩
  | resetStale =>
      cases written
      exact legible.map rfl fun row => by dsimp only; split <;> exact ⟨rfl, rfl, rfl⟩
  | createSystemTask seed =>
      obtain ⟨tasks, inserted, rfl⟩ := Option.map_eq_some_iff.mp written
      exact legible.create inserted ⟨.cleanupStaleVideos .mk, rfl, rfl, rfl⟩

theorem Legible.write {stores reached : Stores} (legible : Legible stores.tasks)
    (write : WorkersWrite stores reached) : Legible reached.tasks := by
  cases write with
  | idle => exact legible
  | advance now later => exact legible
  | statement statement after written => exact legible.statement written

end Benri.Program
