import Benri.Program.Shared
import Benri.Service.Acceptance
import Benri.Worker.SoleSweep

namespace Benri.Program

open Benri.Data Benri.Domain Benri.Postgres Benri.Service Benri.Transition
open Benri.Worker (Cluster ClusterEvent Decoders RegisteredMetadata Serde clusterStep)

/-! # The parts of the whole program

A run of the whole program is, for the workers, a run of the cluster in which tasks are
created, and for the use cases a run of the service in which the statements of the workers
come at any time.
-/

/-! ## What a step can be -/

inductive Effect (decoders : Decoders) (before : State) : Event → State → Prop where
  | worked (event : ClusterEvent) (cluster : Cluster) (free : unattended event = true)
      (moved : clusterStep decoders before.cluster event = some cluster) :
      Effect decoders before (.cluster event) (before.withCluster cluster)
  | used (event : Service.Event) (service : Service.State) (mine : own event = true)
      (moved : Service.step before.service (before.inScope event) = some service) :
      Effect decoders before (.service event) (before.withService service)
  | requested (id : VideoId) (headers : Api.HeaderMap) (fresh : Uuid) (service : Service.State)
      (moved : Service.step before.service (.startCompletion id) = some service) :
      Effect decoders before (.request id headers fresh) { before.withService service with
        requests := before.requests ++ [Api.resolveTraceId headers fresh] }
  | fetched (run : Nat) (fault : Fault) (cluster : Cluster)
      (moved : clusterStep decoders before.cluster (.worker (.fetch run fault)) = some cluster) :
      Effect decoders before (.fetch run fault) ((before.withCluster cluster).launched run)
  | finished (run : Nat) (call : Call) (result : TaskResult) (cluster : Cluster)
      (called : before.callOf run = some call)
      (answered : handlerResult before.service call.component = some result)
      (moved : clusterStep decoders before.cluster (.worker (.finish run result)) = some cluster) :
      Effect decoders before (.finish run) (before.withCluster cluster)
  | dropped (event : Event) (inner : Worker.Event) (run : Nat) (exits : Bool) (cluster : Cluster)
      (ending : event = .timeout run ∧ inner = .timeout run ∨
        event = .crash run exits ∧ inner = .crashRun run)
      (moved : clusterStep decoders before.cluster (.worker inner) = some cluster) :
      Effect decoders before event ((before.withCluster cluster).dropped run exits)

variable {decoders : Decoders} {serde : Serde} {before after : State} {event : Event}
  {permitted : Cluster → ClusterEvent → Prop}

theorem step_effect (stepped : step decoders before event = some after) :
    Effect decoders before event after := by
  cases event with
  | cluster event =>
      simp only [step] at stepped
      split at stepped
      · obtain ⟨cluster, moved, rfl⟩ := Option.map_eq_some_iff.mp stepped
        exact .worked event cluster ‹_› moved
      · contradiction
  | service event =>
      simp only [step] at stepped
      split at stepped
      · obtain ⟨service, moved, rfl⟩ := Option.map_eq_some_iff.mp stepped
        exact .used event service ‹_› moved
      · contradiction
  | request id headers fresh =>
      rw [step] at stepped
      obtain ⟨service, moved, rfl⟩ := Option.map_eq_some_iff.mp stepped
      exact .requested id headers fresh service moved
  | fetch run fault =>
      obtain ⟨cluster, moved, rfl⟩ := Option.map_eq_some_iff.mp stepped
      exact .fetched run fault cluster moved
  | finish run =>
      obtain ⟨call, called, bound⟩ := Option.bind_eq_some_iff.mp stepped
      obtain ⟨result, answered, mapped⟩ := Option.bind_eq_some_iff.mp bound
      obtain ⟨cluster, moved, rfl⟩ := Option.map_eq_some_iff.mp mapped
      exact .finished run call result cluster called answered moved
  | timeout run =>
      obtain ⟨cluster, moved, rfl⟩ := Option.map_eq_some_iff.mp stepped
      exact .dropped _ _ run false cluster (.inl ⟨rfl, rfl⟩) moved
  | crash run exits =>
      obtain ⟨cluster, moved, rfl⟩ := Option.map_eq_some_iff.mp stepped
      exact .dropped _ _ run exits cluster (.inr ⟨rfl, rfl⟩) moved

/-- The step that the workers take, if they take one. -/
def performed (state : State) : Event → Option ClusterEvent
  | .cluster event => some event
  | .service _ | .request _ _ _ => none
  | .fetch run fault => some (.worker (.fetch run fault))
  | .finish run =>
      (state.callOf run).bind fun call =>
        (handlerResult state.service call.component).map fun result => .worker (.finish run result)
  | .timeout run => some (.worker (.timeout run))
  | .crash run _ => some (.worker (.crashRun run))

/-! ## The workers -/

def withTasks (cluster : Cluster) (tasks : TaskTable) : Cluster :=
  { cluster with workers := { cluster.workers with tasks } }

/-- Scheduled tasks are tasks that the workers come by. -/
theorem creates_reach {cluster : Cluster} {added : List Task} {table tasks : TaskTable}
    (inserted : table.insertAll? added = some tasks) (video : ∀ task ∈ added, VideoTask task)
    (creates : ∀ tasks task, permitted (withTasks cluster tasks) (.worker (.create task))) :
    Reaches (clusterStep decoders) permitted (withTasks cluster table)
      (withTasks cluster tasks) := by
  induction added generalizing table with
  | nil =>
      cases inserted
      exact .refl
  | cons task rest ih =>
      obtain ⟨next, first, others⟩ := Option.bind_eq_some_iff.mp inserted
      have isVideo := video task List.mem_cons_self
      have created : clusterStep decoders (withTasks cluster table) (.worker (.create task)) =
          some (withTasks cluster next) := by
        simp only [clusterStep, isVideo.foreign, if_true, Worker.step, isVideo.isNew, withTasks,
          first, Option.map_some]
      exact (Reaches.single _ (creates table task) created).trans
        (ih others fun other member => video other (List.mem_cons_of_mem _ member))

theorem schedules_leads {service : Service.State}
    (schedules : Schedules before.service.stores service.stores)
    (creates : ∀ tasks task, permitted (withTasks before.cluster tasks) (.worker (.create task))) :
    Reaches (clusterStep decoders) permitted before.cluster
      (before.withService service).cluster := by
  obtain ⟨added, inserted, video⟩ := schedules.tasks
  rw [← before.tasks] at inserted
  have reached : Reaches (clusterStep decoders) permitted
      (withTasks before.cluster before.cluster.workers.tasks)
      (withTasks before.cluster service.stores.tasks) := creates_reach inserted video creates
  have now : service.stores.now = before.cluster.workers.now := by rw [schedules.now, before.now]
  simpa only [State.withService, withTasks, now] using reached

theorem withService_cluster {state : State} {service : Service.State}
    (same : service.stores = state.service.stores) :
    (state.withService service).cluster = state.cluster := by
  simp only [State.withService, same, ← state.tasks, ← state.now]

/-! ## The service -/

theorem write_leads {service : Service.State} {stores : Stores}
    (write : WorkersWrite service.stores stores) :
    Reaches Service.step Anything service (service.withStores stores) := by
  cases write with
  | idle => exact .refl
  | advance now later =>
      refine .single (.advance now) trivial ?_
      simp only [Service.step, later, if_true]
  | statement statement after written =>
      refine .single (.tasks statement) trivial ?_
      simp only [Service.step, written, Option.map_some]

theorem write_of_step {cluster : Cluster} {event : ClusterEvent}
    (stepped : clusterStep decoders before.cluster event = some cluster)
    (uncreated : ∀ task, event ≠ .worker (.create task)) :
    WorkersWrite before.service.stores (before.withCluster cluster).service.stores := by
  have same : shared before.service.stores before.cluster.workers = before.service.stores := by
    rw [shared, before.tasks, before.now]
  exact write_of_cluster same stepped uncreated

theorem unattended_creates {event : ClusterEvent} (free : unattended event = true) (task : Task) :
    event ≠ .worker (.create task) := by
  rintro rfl
  cases free

theorem own_useCase {state : State} {event : Service.Event} (mine : own event = true) :
    useCase (state.inScope event) = true := by
  cases event <;> first | rfl | cases mine

/-! ## Handlers -/

section Handlers

variable {run : Nat} {fault : Fault} {id : TaskId} {task : Task} {metadata : RegisteredMetadata}
  {since : Instant}

/-- What a fetch that starts a handler has found. -/
theorem fetched {before after : Cluster}
    (stepped : clusterStep decoders before (.worker (.fetch run fault)) = some after)
    (slot : after.workers.runs[run]? = some ⟨id, .handling task metadata since⟩) :
    before.workers.runs[run]? = some ⟨id, .fetch⟩ ∧ before.workers.tasks.find? id = some task ∧
      Worker.route decoders task = .ok metadata ∧ after.workers.tasks = before.workers.tasks := by
  cases Worker.clusterStep_effect stepped with
  | check _ _ _ _ _ own => exact absurd rfl (own _)
  | worker _ workers others moved =>
      cases Worker.step_effect moved with
      | dispatched _ _ owner row phase here found running routed =>
          have bound := (List.getElem?_eq_some_iff.mp here).1
          simp only [Worker.State.setRun, List.getElem?_set_self bound, Option.some.injEq,
            Worker.Run.mk.injEq] at slot
          obtain ⟨rfl, phase⟩ := slot
          cases decoded : Worker.route decoders row with
          | error error =>
              rw [decoded] at routed
              cases routed.symm.trans phase
          | ok asked =>
              rw [decoded] at routed
              cases routed.symm.trans phase
              exact ⟨here, found, decoded, rfl⟩
      | skipped _ _ owner here =>
          have bound := (List.getElem?_eq_some_iff.mp here).1
          simp [Worker.State.setRun, List.getElem?_set_self bound] at slot
      | handled _ _ _ _ _ _ _ _ ending => rcases ending with ending | ending <;> cases ending

theorem fetched_asks {cluster : Cluster} (reads : ReadsIds serde)
    (legible : Legible before.cluster.workers.tasks)
    (stepped : clusterStep serde.decoders before.cluster (.worker (.fetch run fault)) =
      some cluster)
    (slot : cluster.workers.runs[run]? = some ⟨id, .handling task metadata since⟩) :
    cluster.workers.tasks.find? id = some task ∧ Asks task metadata := by
  obtain ⟨_, found, routed, tasks⟩ := fetched stepped slot
  obtain ⟨asked, asks⟩ := legible task (Table.mem_of_find? found)
  rw [asks.route reads] at routed
  cases routed
  rw [tasks]
  exact ⟨found, asks⟩

/-- A handler that starts for a row is one that the service starts for it. -/
theorem launch_step {service : Service.State}
    (found : service.stores.tasks.find? id = some task) (asks : Asks task metadata) :
    ∃ event, Service.step service event = some (launch service metadata).1 := by
  cases metadata with
  | processVideo metadata =>
      refine ⟨.startExecution id metadata.videoId, ?_⟩
      have named : processesVideo task metadata.videoId = true := by
        rw [processesVideo, asks.type, asks.value]
        simp [RegisteredMetadata.metadataTypeName, RegisteredMetadata.toValue,
          TaskMetadata.metadataTypeName, TaskMetadata.toValue, metadataNames_video]
      simp only [Service.step, found, Option.any_some, named, if_true, launch]
  | deleteVideo metadata =>
      refine ⟨.startDeletion id metadata.videoId, ?_⟩
      have named : deletesVideo task metadata.videoId = true := by
        rw [deletesVideo, asks.type, asks.value]
        simp [RegisteredMetadata.metadataTypeName, RegisteredMetadata.toValue,
          TaskMetadata.metadataTypeName, TaskMetadata.toValue, metadataNames_video]
      simp only [Service.step, found, Option.any_some, named, if_true, launch]
  | cleanupStaleVideos metadata => exact ⟨.startSweep, rfl⟩

theorem launched_cluster (state : State) (run : Nat) :
    (state.launched run).cluster = state.cluster := by
  unfold State.launched
  split
  · rename_i metadata since slot
    refine withService_cluster ?_
    cases metadata <;> rfl
  · rfl

theorem launched_leads (state : State)
    (asked : ∀ id task metadata since, state.cluster.workers.runs[run]? =
        some ⟨id, .handling task metadata since⟩ →
      state.cluster.workers.tasks.find? id = some task ∧ Asks task metadata) :
    Reaches Service.step Anything state.service (state.launched run).service := by
  unfold State.launched
  split
  · rename_i id task metadata since slot
    obtain ⟨found, asks⟩ := asked id task metadata since slot
    rw [state.tasks] at found
    obtain ⟨event, stepped⟩ := launch_step found asks
    exact .single event trivial stepped
  · exact .refl

/-- A handler that is dropped leaves the stores alone. -/
theorem drop_stores (service : Service.State) (component : Component) (exits : Bool) :
    (dropHandler service component exits).stores = service.stores := by
  cases component with
  | execution index =>
      simp only [dropHandler]
      cases stepped : Service.step service (.execution index (if exits then .kill else .cut)) with
      | none => rfl
      | some next =>
          obtain ⟨execution, phase, slot, advanced, _⟩ := execution_of_step stepped
          generalize same : next.stores = reached at advanced
          cases exits <;> cases executionStep_turn advanced <;> exact same
  | deletion index =>
      simp only [dropHandler]
      cases stepped : Service.step service (.deletion index .cut) with
      | none => rfl
      | some next =>
          obtain ⟨⟨stores, slots⟩, moved, rfl⟩ := Option.map_eq_some_iff.mp stepped
          obtain ⟨⟨id, phase⟩, following, slot, inner, rfl⟩ := slotStep_eq_some moved
          obtain ⟨⟨_, next⟩, advanced, same⟩ := Option.map_eq_some_iff.mp inner
          cases same
          cases deletionStep_turn advanced <;> rfl
  | sweep index =>
      simp only [dropHandler]
      cases stepped : Service.step service (.sweep index .cut) with
      | none => rfl
      | some next =>
          obtain ⟨⟨stores, slots⟩, moved, rfl⟩ := Option.map_eq_some_iff.mp stepped
          obtain ⟨phase, following, slot, advanced, rfl⟩ := slotStep_eq_some moved
          cases sweepStep_turn advanced <;> rfl

/-- A handler that is dropped takes one step of its own, or has none left. -/
theorem drop_leads (service : Service.State) (component : Component) (exits : Bool) :
    Reaches Service.step Anything service (dropHandler service component exits) := by
  have taken : ∀ event, Reaches Service.step Anything service
      ((Service.step service event).getD service) := by
    intro event
    cases stepped : Service.step service event with
    | none => exact .refl
    | some next => exact .single event trivial stepped
  cases component <;> exact taken _

theorem dropped_cluster (state : State) (run : Nat) (exits : Bool) :
    (state.dropped run exits).cluster = state.cluster := by
  unfold State.dropped
  split
  · exact withService_cluster (drop_stores _ _ _)
  · rfl

theorem dropped_leads (state : State) (run : Nat) (exits : Bool) :
    Reaches Service.step Anything state.service (state.dropped run exits).service := by
  unfold State.dropped
  split
  · exact drop_leads _ _ _
  · exact .refl

end Handlers

/-! ## Runs of the program -/

/-- One step of the program is, to the workers, theirs or the creation of tasks, and to the
service its own or a statement of the workers. -/
theorem step_leads (reads : ReadsIds serde) (legible : Legible before.cluster.workers.tasks)
    (performs : ∀ inner, performed before event = some inner → permitted before.cluster inner)
    (creates : ∀ tasks task, permitted (withTasks before.cluster tasks) (.worker (.create task)))
    (stepped : step serde.decoders before event = some after) :
    Reaches (clusterStep serde.decoders) permitted before.cluster after.cluster ∧
      Reaches Service.step Anything before.service after.service := by
  cases step_effect stepped with
  | worked event cluster free moved =>
      have written := write_of_step moved (unattended_creates free)
      exact ⟨.single event (performs event rfl) moved, write_leads written⟩
  | used event service mine moved =>
      have schedules := schedules_of_step (own_useCase mine) moved
      exact ⟨schedules_leads schedules creates, .single _ trivial moved⟩
  | requested id headers fresh service moved =>
      have schedules := schedules_of_step rfl moved
      exact ⟨schedules_leads schedules creates, .single _ trivial moved⟩
  | fetched run fault cluster moved =>
      have written := write_of_step moved (fun task same => by cases same)
      have launched := launched_leads (before.withCluster cluster)
        fun id task metadata since slot => fetched_asks reads legible moved slot
      rw [launched_cluster]
      exact ⟨.single _ (performs _ rfl) moved, (write_leads written).trans launched⟩
  | finished run call result cluster called answered moved =>
      have written := write_of_step moved (fun task same => by cases same)
      have performed : performed before (.finish run) = some (.worker (.finish run result)) := by
        simp only [performed, called, answered, Option.bind_some, Option.map_some]
      exact ⟨.single _ (performs _ performed) moved, write_leads written⟩
  | dropped _ inner run exits cluster ending moved =>
      have written := write_of_step moved (fun task same => by
        rcases ending with ⟨_, rfl⟩ | ⟨_, rfl⟩ <;> cases same)
      have performed : performed before event = some (.worker inner) := by
        rcases ending with ⟨rfl, rfl⟩ | ⟨rfl, rfl⟩ <;> rfl
      have dropped := dropped_leads (before.withCluster cluster) run exits
      rw [dropped_cluster]
      exact ⟨.single _ (performs _ performed) moved, (write_leads written).trans dropped⟩

theorem Legible.step (legible : Legible before.cluster.workers.tasks)
    (effect : Effect decoders before event after) :
    Legible after.cluster.workers.tasks := by
  have written : ∀ {cluster : Cluster} {event : ClusterEvent},
      clusterStep decoders before.cluster event = some cluster →
      (∀ task, event ≠ .worker (.create task)) → Legible cluster.workers.tasks := by
    intro cluster event moved uncreated
    rw [before.tasks] at legible
    exact legible.write (write_of_step moved uncreated)
  have scheduled : ∀ {service : Service.State}, Schedules before.service.stores service.stores →
      Legible service.stores.tasks := by
    intro service schedules
    rw [before.tasks] at legible
    exact legible.schedules schedules
  cases effect with
  | worked event cluster free moved => exact written moved (unattended_creates free)
  | used event service mine moved => exact scheduled (schedules_of_step (own_useCase mine) moved)
  | requested id headers fresh service moved => exact scheduled (schedules_of_step rfl moved)
  | fetched run fault cluster moved =>
      rw [launched_cluster]
      exact written moved fun task same => by cases same
  | finished run call result cluster called answered moved =>
      exact written moved fun task same => by cases same
  | dropped _ inner run exits cluster ending moved =>
      rw [dropped_cluster]
      exact written moved fun task same => by
        rcases ending with ⟨_, rfl⟩ | ⟨_, rfl⟩ <;> cases same

theorem legible_of_reaches {allowed : State → Event → Prop} {now : Instant} {state : State}
    (reached : Reaches (step decoders) allowed (State.initial now) state) :
    Legible state.cluster.workers.tasks :=
  reached.preserves (fun state => Legible state.cluster.workers.tasks)
    (fun _ member => absurd member List.not_mem_nil)
    fun legible _ stepped => legible.step (step_effect stepped)

/-- What the workers permit themselves, the whole program permits them. -/
theorem cluster_of_reaches {allowed : State → Event → Prop} {now : Instant} {state : State}
    (reads : ReadsIds serde)
    (performs : ∀ state event inner, allowed state event → performed state event = some inner →
      permitted state.cluster inner)
    (creates : ∀ cluster task, permitted cluster (.worker (.create task)))
    (reached : Reaches (step serde.decoders) allowed (State.initial now) state) :
    Reaches (clusterStep serde.decoders) permitted (Cluster.initial now) state.cluster := by
  induction reached with
  | refl => exact .refl
  | tail path permits stepped ih =>
      have legible := legible_of_reaches path
      exact ih.trans (step_leads reads legible (fun inner => performs _ _ inner permits)
        (fun _ task => creates _ task) stepped).1

/-- The whole program is the workers and the service at once: a run of it is a run of the
cluster and a run of the service, over one table of tasks and one clock. -/
theorem program_refines {allowed : State → Event → Prop} {now : Instant} {state : State}
    (reads : ReadsIds serde)
    (reached : Reaches (step serde.decoders) allowed (State.initial now) state) :
    Reaches (clusterStep serde.decoders) Anything (Cluster.initial now) state.cluster ∧
      Reaches Service.step Anything (Service.State.initial now) state.service ∧
      state.cluster.workers.tasks = state.service.stores.tasks ∧
      state.cluster.workers.now = state.service.stores.now := by
  have service : Reaches Service.step Anything (Service.State.initial now) state.service := by
    induction reached with
    | refl => exact .refl
    | tail path permits stepped ih =>
        have led : Reaches (clusterStep serde.decoders) Anything _ _ ∧ _ :=
          step_leads reads (legible_of_reaches path) (fun _ _ => trivial) (fun _ _ => trivial)
            stepped
        exact ih.trans led.2
  exact ⟨cluster_of_reaches reads (fun _ _ _ _ _ => trivial) (fun _ _ => trivial) reached,
    service, state.tasks, state.now⟩

/-! ## Work for three handlers -/

/-- Libraries that read the ids as they are written. -/
def standardSerde : Serde where
  fromStr _ := .error "expected value at line 1 column 1"
  parseUuid text :=
    match Uuid.parseStr text with
    | some uuid => .ok uuid
    | none => .error "invalid character"
  mismatch name _ := "invalid type, expected struct " ++ name

theorem standardSerde_reads : ReadsIds standardSerde := by
  intro uuid
  simp [standardSerde, Uuid.parseStr_text]

def pollCycle (index : Nat) : List Event :=
  (.worker .startPoll :: List.replicate 6 (.worker (.poll index .none))).map .cluster

/-- A request finds a content that is not a video, and schedules the deletion. -/
def rejectedRequest (id : VideoId) (index : Nat) (task : TaskId) : List Event :=
  .request id [] (.ofNat 5) :: [.call .none, .call .none, .call .none,
    .reject .none ⟨task, none⟩].map fun event => .service (.completion index event)

/-- A video is rejected twice, and its first deletion goes down with its worker. -/
def deletedTwice (id : VideoId) (first second : TaskId) : List Event :=
  [.service (.initiate id "a title" .mkv true),
    .service (.putOriginal id .mkv "video/x-matroska" blankBody)] ++
    rejectedRequest id 0 first ++ rejectedRequest id 1 second ++ pollCycle 0 ++
    [.cluster (.worker (.pop .none)), .fetch 0 .none, .service (.deletion 0 (.call .none)),
      .crash 0 true, .cluster (.worker (.advance 3600001)), .cluster (.worker .resetStale)] ++
    pollCycle 1 ++ [.cluster (.worker (.pop .none)), .fetch 1 .none]

/-- Another video is uploaded, and a sweep becomes due. -/
def otherWork (id : VideoId) (task sweep : TaskId) : List Event :=
  [.service (.initiate id "another title" .mkv true),
    .service (.putOriginal id .mkv "video/x-matroska" matroska), .request id [] (.ofNat 6)] ++
    [.call .none, .call .none, .call .none, .transition .none ⟨task, none⟩].map
      (fun event => .service (.completion 2 event)) ++
    (.startCheck :: Worker.coldCheck 0 sweep).map .cluster ++ pollCycle 2 ++
    [.cluster (.worker (.pop .none)), .cluster (.worker (.pop .none)), .fetch 2 .none,
      .fetch 3 .none]

def threeHandlers : List Event :=
  deletedTwice ⟨.ofNat 7⟩ ⟨.ofNat 8⟩ ⟨.ofNat 9⟩ ++
    otherWork ⟨.ofNat 17⟩ ⟨.ofNat 18⟩ ⟨.ofNat 19⟩

theorem program_refines_threeHandlers : ∃ state,
    Reaches (step standardSerde.decoders) Anything (State.initial 0) state ∧
      state.calls.map Call.component = [.deletion 0, .deletion 1, .execution 0, .sweep 0] ∧
      Reaches (clusterStep standardSerde.decoders) Anything (Cluster.initial 0) state.cluster ∧
      Reaches Service.step Anything (Service.State.initial 0) state.service := by
  have passed : ((run (step standardSerde.decoders) Anything (State.initial 0)
      threeHandlers).map fun state => decide (state.calls.map Call.component =
        [.deletion 0, .deletion 1, .execution 0, .sweep 0])) = some true := by decide +kernel
  obtain ⟨state, reached, checked⟩ := reaches_of_check _ passed
  obtain ⟨cluster, service, _⟩ := program_refines standardSerde_reads reached
  exact ⟨state, reached, of_decide_eq_true checked, cluster, service⟩

end Benri.Program
