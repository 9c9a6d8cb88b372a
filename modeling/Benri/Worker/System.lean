import Benri.Data.Slots
import Benri.Postgres.TaskRepository
import Benri.Redis.DistributedLock
import Benri.Transition.Run
import Benri.Worker.Handlers

namespace Benri.Worker

open Benri.Data Benri.Domain Benri.Postgres Benri.Redis Benri.Transition

/-! # Any number of workers

The state couples what lives in PostgreSQL (the task rows), in Redis (the queue
and the poller lock) and in the memory of the workers (poll cycles and consumer
runs under way).  Every remote call is a step of its own; a call under a fault
reports an error and may or may not have taken effect.

The clock is unrestricted here.  What a theorem assumes about time (that leases do
not expire while held, that a handler does not outlive its timeout) restricts
the runs it speaks about, not this step function.
-/

def BATCH_SIZE : Nat := 100
def LOCK_TTL_SECS : Nat := 30

def queueError (message : String) : String := "queue error: " ++ message

/-- A poll cycle by the call it makes next. -/
inductive PollPhase where
  | acquire
  | acquired (token : LockToken)
  | findPending (token : LockToken) (now : Instant)
  | markInProgress (token : LockToken) (now : Instant) (ids : List TaskId)
  | publish (token : LockToken) (ids : List TaskId)
  | release (token : LockToken) (result : Except String Unit)
  | finished (result : Except String Unit)
  | crashed

/-- `process_one` by what it does next. -/
inductive RunPhase where
  | fetch
  | handling (task : Task) (metadata : RegisteredMetadata) (since : Instant)
  | write (outcome : TaskRunOutcome)
  | finished
  | crashed

structure Run where
  taskId : TaskId
  phase : RunPhase

structure State where
  now : Instant
  tasks : TaskTable
  /-- In pop order: `LPUSH` adds at one end what `RPOP` takes from the other. -/
  queue : List TaskId
  lock : Option Lease
  /-- How many lock tokens have been drawn. -/
  issued : Nat
  polls : List PollPhase
  runs : List Run

def State.initial (now : Instant) : State where
  now := now
  tasks := .empty
  queue := []
  lock := none
  issued := 0
  polls := []
  runs := []

inductive Event where
  | advance (now : Instant)
  | create (task : Task)
  | startPoll
  | poll (index : Nat) (fault : Fault)
  | crashPoll (index : Nat)
  | pop (fault : Fault)
  | fetch (index : Nat) (fault : Fault)
  | finish (index : Nat) (result : TaskResult)
  | timeout (index : Nat)
  | write (index : Nat) (fault : Fault)
  | crashRun (index : Nat)
  | resetStale
  | wipeQueue

/-! ## `OutboxPoller::poll_once` -/

/-- `acquire`: every attempt draws a fresh token. -/
def acquireStep (state : State) (fault : Fault) : State × PollPhase :=
  let token : LockToken := ⟨state.issued⟩
  let drawn := { state with issued := state.issued + 1 }
  let answer := Redis.acquire state.lock token LOCK_TTL_SECS state.now
  match attempt fault lockError drawn { drawn with lock := answer.1 } answer.2 with
  | (reached, .ok (some token)) => (reached, .acquired token)
  | (reached, .ok none) => (reached, .finished (.ok ()))
  | (reached, .error error) => (reached, .finished (.error error))

def findPendingStep (state : State) (fault : Fault) (token : LockToken) (now : Instant) :
    PollPhase :=
  match (attempt fault databaseError state state (findPending state.tasks BATCH_SIZE now)).2 with
  | .ok [] => .release token (.ok ())
  | .ok pending => .markInProgress token now (pending.map Task.id)
  | .error error => .release token (.error error)

def markInProgressStep (state : State) (fault : Fault) (token : LockToken) (now : Instant)
    (ids : List TaskId) : State × PollPhase :=
  match attempt fault databaseError state
    { state with tasks := markInProgress state.tasks ids now } () with
  | (reached, .ok ()) => (reached, .publish token ids)
  | (reached, .error error) => (reached, .release token (.error error))

def publishStep (state : State) (fault : Fault) (token : LockToken) (ids : List TaskId) :
    State × PollPhase :=
  match attempt fault queueError state { state with queue := state.queue ++ ids } () with
  | (reached, .ok ()) => (reached, .release token (.ok ()))
  | (reached, .error error) => (reached, .release token (.error error))

/-- The result of the release is dropped. -/
def releaseStep (state : State) (fault : Fault) (token : LockToken)
    (result : Except String Unit) : State × PollPhase :=
  ((attempt fault lockError state
    { state with lock := Redis.release state.lock token state.now } ()).1, .finished result)

def pollStep (state : State) (fault : Fault) : PollPhase → Option (State × PollPhase)
  | .acquire => some (acquireStep state fault)
  | .acquired token => some (state, .findPending token state.now)
  | .findPending token now => some (state, findPendingStep state fault token now)
  | .markInProgress token now ids => some (markInProgressStep state fault token now ids)
  | .publish token ids => some (publishStep state fault token ids)
  | .release token result => some (releaseStep state fault token result)
  | .finished _ | .crashed => none

/-! ## `TaskConsumerLoop` -/

/-- `pop`, and the spawn of `process_one` for the id it returned. -/
def popStep (state : State) (fault : Fault) : Option State :=
  match state.queue with
  | [] => none
  | id :: rest =>
      match attempt fault queueError state { state with queue := rest } id with
      | (reached, .ok id) => some { reached with runs := reached.runs ++ [⟨id, .fetch⟩] }
      | (reached, .error _) => some reached

/-- `fetch_in_progress_task`, and the dispatch up to where the handler starts. -/
def fetchStep (decoders : Decoders) (state : State) (fault : Fault) (id : TaskId) : RunPhase :=
  match (attempt fault databaseError state state (state.tasks.find? id)).2 with
  | .ok (some task) =>
      if task.status = .inProgress then
        match route decoders task with
        | .ok metadata => .handling task metadata state.now
        | .error error => .write (deadLetterOutcome task error state.now)
      else .finished
  | .ok none | .error _ => .finished

/-- A failed write is logged; stale recovery is left to reset the row. -/
def writeStep (state : State) (fault : Fault) (outcome : TaskRunOutcome) : State :=
  (attempt fault databaseError state
    { state with tasks := batchUpdate state.tasks [outcome.update] } ()).1

def State.setPoll (state : State) (index : Nat) (phase : PollPhase) : State :=
  { state with polls := state.polls.set index phase }

def State.setRun (state : State) (index : Nat) (run : Run) : State :=
  { state with runs := state.runs.set index run }

/-! ## The whole system -/

section Step

variable (decoders : Decoders)

def pollEvent (state : State) (index : Nat) (fault : Fault) : Option State :=
  state.polls[index]?.bind fun phase =>
    (pollStep state fault phase).map fun (reached, next) => reached.setPoll index next

def runEvent (state : State) (index : Nat) (next : Run → Option (State × RunPhase)) :
    Option State :=
  state.runs[index]?.bind fun run =>
    (next run).map fun (reached, phase) => reached.setRun index ⟨run.taskId, phase⟩

def fetchRun (state : State) (fault : Fault) (run : Run) : Option (State × RunPhase) :=
  match run.phase with
  | .fetch => some (state, fetchStep decoders state fault run.taskId)
  | _ => none

def finishRun (state : State) (result : TaskResult) (run : Run) : Option (State × RunPhase) :=
  match run.phase with
  | .handling task metadata _ =>
      some (state, .write (metadata.computeUpdate task result state.now))
  | _ => none

def deadline (metadata : RegisteredMetadata) (since : Instant) : Instant :=
  since + metadata.processingTimeout.asMillis

def timeoutRun (state : State) (run : Run) : Option (State × RunPhase) :=
  match run.phase with
  | .handling task metadata since =>
      if deadline metadata since ≤ state.now then
        some (state, .write (metadata.computeUpdate task (timeoutResult metadata) state.now))
      else none
  | _ => none

def writeRun (state : State) (fault : Fault) (run : Run) : Option (State × RunPhase) :=
  match run.phase with
  | .write outcome => some (writeStep state fault outcome, .finished)
  | _ => none

def step (state : State) : Event → Option State
  | .advance now => if state.now ≤ now then some { state with now } else none
  | .create task =>
      if task.isNew then (state.tasks.insert? task).map fun tasks => { state with tasks }
      else none
  | .startPoll => some { state with polls := state.polls ++ [.acquire] }
  | .poll index fault => pollEvent state index fault
  | .crashPoll index => some (state.setPoll index .crashed)
  | .pop fault => popStep state fault
  | .fetch index fault => runEvent state index (fetchRun decoders state fault)
  | .finish index result => runEvent state index (finishRun state result)
  | .timeout index => runEvent state index (timeoutRun state)
  | .write index fault => runEvent state index (writeRun state fault)
  | .crashRun index => runEvent state index fun _ => some (state, .crashed)
  | .resetStale => some { state with tasks := resetStale state.tasks state.now }
  | .wipeQueue => some { state with queue := [] }

end Step

end Benri.Worker
