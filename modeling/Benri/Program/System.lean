import Benri.Api.Middleware
import Benri.Program.Handlers
import Benri.Service.System
import Benri.Worker.Dispatch
import Benri.Worker.SystemChecker

namespace Benri.Program

open Benri.Api Benri.Data Benri.Domain Benri.Postgres Benri.Service Benri.Transition
open Benri.Worker (Cluster ClusterEvent Decoders RegisteredMetadata clusterStep)

/-! # The whole program

The workers and the use cases work on one database.  A run that the workers dispatch
starts the handler of its task, and gives the answer of its use case back as the result;
when its time is up the handler is dropped, and when its process goes down the handler
goes down with it.  A task that is scheduled takes over the trace id of the request, or
of the task, on whose behalf it is.
-/

/-- What a handler runs, by its place among the service's components. -/
inductive Component where
  | execution (index : Nat)
  | deletion (index : Nat)
  | sweep (index : Nat)
deriving DecidableEq, Repr

/-- The handler of one run, in the scope of its task's trace id. -/
structure Call where
  run : Nat
  component : Component
  traceId : Option String
deriving DecidableEq, Repr

/-- Workers and use cases see one table of tasks, and one clock. -/
structure State where
  cluster : Cluster
  service : Service.State
  /-- The trace id of each request to complete an upload. -/
  requests : List String
  calls : List Call
  tasks : cluster.workers.tasks = service.stores.tasks
  now : cluster.workers.now = service.stores.now

def State.initial (now : Instant) : State where
  cluster := .initial now
  service := .initial now
  requests := []
  calls := []
  tasks := rfl
  now := rfl

inductive Event where
  | cluster (event : ClusterEvent)
  | service (event : Service.Event)
  | request (id : VideoId) (headers : HeaderMap) (fresh : Uuid)
  | fetch (run : Nat) (fault : Fault)
  | finish (run : Nat)
  | timeout (run : Nat)
  | crash (run : Nat) (exits : Bool)

/-! ## One database -/

/-- The use cases see what the workers have written. -/
def State.withCluster (state : State) (cluster : Cluster) : State where
  cluster := cluster
  service := state.service.withStores { state.service.stores with
    tasks := cluster.workers.tasks, now := cluster.workers.now }
  requests := state.requests
  calls := state.calls
  tasks := rfl
  now := rfl

/-- The workers see what the use cases have written. -/
def State.withService (state : State) (service : Service.State) : State where
  cluster := { state.cluster with workers := { state.cluster.workers with
    tasks := service.stores.tasks, now := service.stores.now } }
  service := service
  requests := state.requests
  calls := state.calls
  tasks := rfl
  now := rfl

/-! ## Who takes which step -/

/-- Steps of the workers that no handler takes part in.  The checkers run outside of any
scope of a trace id. -/
def unattended : ClusterEvent → Bool
  | .worker (.create _) | .worker (.fetch _ _) | .worker (.finish _ _) | .worker (.timeout _)
  | .worker (.crashRun _) => false
  | .create _ _ _ traceId => traceId.isNone
  | _ => true

/-- Steps that uploaders, requests and handlers take by themselves. -/
def own : Service.Event → Bool
  | .initiate _ _ _ _ | .putOriginal _ _ _ _ | .completion _ _ => true
  | .execution _ .cut | .execution _ .kill | .deletion _ .cut | .sweep _ .cut => false
  | .execution _ _ | .deletion _ _ | .sweep _ _ => true
  | .advance _ | .tasks _ | .startCompletion _ | .startExecution _ _ | .startSweep
  | .startDeletion _ _ => false

/-! ## The scope of a trace id -/

def executionInScope (traceId : Option String) : ExecutionEvent → ExecutionEvent
  | .fail fault seed => .fail fault { seed with traceId }
  | event => event

def sweepInScope (traceId : Option String) : SweepEvent → SweepEvent
  | .schedule fault seeds => .schedule fault (seeds.map fun seed => { seed with traceId })
  | event => event

/-- `current_trace_id` in a handler. -/
def State.ambient (state : State) (component : Component) : Option String :=
  (state.calls.find? fun call => decide (call.component = component)).bind Call.traceId

def State.inScope (state : State) : Service.Event → Service.Event
  | .completion index event => .completion index (withTraceId state.requests[index]? event)
  | .execution index event =>
      .execution index (executionInScope (state.ambient (.execution index)) event)
  | .sweep index event => .sweep index (sweepInScope (state.ambient (.sweep index)) event)
  | event => event

/-! ## Handlers -/

/-- A handler starts its use case. -/
def launch (service : Service.State) : RegisteredMetadata → Service.State × Component
  | .processVideo metadata =>
      ({ service with executions := service.executions ++ [.start metadata.videoId] },
        .execution service.executions.length)
  | .deleteVideo metadata =>
      ({ service with deletions := service.deletions ++ [⟨metadata.videoId, .findById⟩] },
        .deletion service.deletions.length)
  | .cleanupStaleVideos _ =>
      ({ service with
          sweeps := service.sweeps ++ [.findStale (service.stores.now - STALE_VIDEO_AGE)] },
        .sweep service.sweeps.length)

/-- What a handler answers once its use case has. -/
def handlerResult (service : Service.State) : Component → Option TaskResult
  | .execution index =>
      service.executions[index]?.bind fun execution =>
        match execution.phase with
        | .returned result => some (processVideoHandle result)
        | _ => none
  | .deletion index =>
      service.deletions[index]?.bind fun deletion =>
        match deletion.phase with
        | .returned result => some (deleteVideoHandle result)
        | _ => none
  | .sweep index =>
      service.sweeps[index]?.bind fun phase =>
        match phase with
        | .returned result => some (cleanupStaleHandle result)
        | _ => none

/-- A handler's future is dropped; with its process, what it has spawned is gone too. -/
def dropHandler (service : Service.State) (component : Component) (exits : Bool) :
    Service.State :=
  match component with
  | .execution index =>
      (Service.step service (.execution index (if exits then .kill else .cut))).getD service
  | .deletion index => (Service.step service (.deletion index .cut)).getD service
  | .sweep index => (Service.step service (.sweep index .cut)).getD service

def State.callOf (state : State) (run : Nat) : Option Call :=
  state.calls.find? fun call => decide (call.run = run)

/-- A run whose task was fetched and routed has its handler started. -/
def State.launched (state : State) (run : Nat) : State :=
  match state.cluster.workers.runs[run]? with
  | some ⟨_, .handling task metadata _⟩ =>
      let answer := launch state.service metadata
      { state.withService answer.1 with calls := state.calls ++ [⟨run, answer.2, task.traceId⟩] }
  | _ => state

def State.dropped (state : State) (run : Nat) (exits : Bool) : State :=
  match state.callOf run with
  | some call => state.withService (dropHandler state.service call.component exits)
  | none => state

section Step

variable (decoders : Decoders)

def step (state : State) : Event → Option State
  | .cluster event =>
      if unattended event then (clusterStep decoders state.cluster event).map state.withCluster
      else none
  | .service event =>
      if own event then (Service.step state.service (state.inScope event)).map state.withService
      else none
  | .request id headers fresh =>
      (Service.step state.service (.startCompletion id)).map fun service =>
        { state.withService service with
          requests := state.requests ++ [resolveTraceId headers fresh] }
  | .fetch run fault =>
      (clusterStep decoders state.cluster (.worker (.fetch run fault))).map fun cluster =>
        (state.withCluster cluster).launched run
  | .finish run =>
      (state.callOf run).bind fun call =>
        (handlerResult state.service call.component).bind fun result =>
          (clusterStep decoders state.cluster (.worker (.finish run result))).map state.withCluster
  | .timeout run =>
      (clusterStep decoders state.cluster (.worker (.timeout run))).map fun cluster =>
        (state.withCluster cluster).dropped run false
  | .crash run exits =>
      (clusterStep decoders state.cluster (.worker (.crashRun run))).map fun cluster =>
        (state.withCluster cluster).dropped run exits

end Step

end Benri.Program
