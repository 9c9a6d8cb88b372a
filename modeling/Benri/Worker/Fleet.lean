import Benri.Transition.Loop
import Benri.Worker.SystemChecker

namespace Benri.Worker

open Benri.Data Benri.Domain Benri.Postgres Benri.Redis Benri.Transition

/-! # Worker processes

`main` starts four loops: the consumer, and the pollers of the outbox, of stale tasks
and of the system tasks.  Here every poll cycle, check, recovery and run of a task
belongs to the loop that started it, and a process goes down by a signal, by a second
one, or by a crash.
-/

def POLL_INTERVAL : Int := 5 * 1000
def RECOVERY_INTERVAL : Int := 60 * 1000
def CHECK_INTERVAL : Int := 300 * 1000
def EMPTY_POLL_DELAY : Int := 1000
def POP_ERROR_DELAY : Int := 5 * 1000

/-! ## `StaleRecovery::recover_once` -/

def StaleRecovery.LOCK_TTL_SECS : Nat := 30

/-- `recover_once` by the call it makes next. -/
inductive RecoverPhase where
  | acquire
  | resetStale (token : LockToken)
  | release (token : LockToken) (result : Except String Unit)
  | finished (result : Except String Unit)
  | crashed

/-- What all processes work on: the stores, and the cycles and runs under way. -/
structure Shared where
  cluster : Cluster
  /-- What the key of the recoveries stores. -/
  recoveryLock : Option Lease
  recoveryIssued : Nat
  recoveries : List RecoverPhase

def Shared.initial (now : Instant) : Shared where
  cluster := .initial now
  recoveryLock := none
  recoveryIssued := 0
  recoveries := []

def Shared.now (shared : Shared) : Instant := shared.cluster.workers.now

def Shared.withWorkers (shared : Shared) (workers : State) : Shared :=
  { shared with cluster := { shared.cluster with workers } }

def recoverAcquire (shared : Shared) (fault : Fault) : Shared × RecoverPhase :=
  let token : LockToken := ⟨shared.recoveryIssued⟩
  let drawn := { shared with recoveryIssued := shared.recoveryIssued + 1 }
  let answer := Redis.acquire shared.recoveryLock token StaleRecovery.LOCK_TTL_SECS shared.now
  match attempt fault lockError drawn { drawn with recoveryLock := answer.1 } answer.2 with
  | (reached, .ok (some token)) => (reached, .resetStale token)
  | (reached, .ok none) => (reached, .finished (.ok ()))
  | (reached, .error error) => (reached, .finished (.error error))

def recoverReset (shared : Shared) (fault : Fault) (token : LockToken) : Shared × RecoverPhase :=
  let workers := shared.cluster.workers
  match attempt fault databaseError shared
    (shared.withWorkers { workers with tasks := resetStale workers.tasks workers.now }) () with
  | (reached, .ok ()) => (reached, .release token (.ok ()))
  | (reached, .error error) => (reached, .release token (.error error))

/-- The result of the release is dropped. -/
def recoverRelease (shared : Shared) (fault : Fault) (token : LockToken)
    (result : Except String Unit) : Shared × RecoverPhase :=
  ((attempt fault lockError shared { shared with
    recoveryLock := Redis.release shared.recoveryLock token shared.now } ()).1, .finished result)

def recoverStep (shared : Shared) (fault : Fault) : RecoverPhase → Option (Shared × RecoverPhase)
  | .acquire => some (recoverAcquire shared fault)
  | .resetStale token => some (recoverReset shared fault token)
  | .release token result => some (recoverRelease shared fault token result)
  | .finished _ | .crashed => none

def Shared.setRecovery (shared : Shared) (index : Nat) (phase : RecoverPhase) : Shared :=
  { shared with recoveries := shared.recoveries.set index phase }

/-! ## What goes on without a loop's doing -/

inductive SharedEvent where
  | cluster (event : ClusterEvent)
  | recover (index : Nat) (fault : Fault)
  | crashRecovery (index : Nat)

/-- Ids are popped, and cycles started, by the loops only; tasks are reset by recoveries. -/
def unprompted : ClusterEvent → Bool
  | .worker (.pop _) | .worker .startPoll | .worker .resetStale | .startCheck => false
  | _ => true

def sharedStep (decoders : Decoders) (shared : Shared) : SharedEvent → Option Shared
  | .cluster event =>
      if unprompted event then
        (clusterStep decoders shared.cluster event).map fun cluster => { shared with cluster }
      else none
  | .recover index fault =>
      shared.recoveries[index]?.bind fun phase =>
        (recoverStep shared fault phase).map fun answer => answer.1.setRecovery index answer.2
  | .crashRecovery index => some (shared.setRecovery index .crashed)

/-! ## The three periodic loops -/

def PollPhase.status : PollPhase → CycleStatus
  | .finished _ => .done
  | .crashed => .panicked
  | .acquire | .acquired _ | .findPending _ _ | .markInProgress _ _ _ | .publish _ _
  | .release _ _ => .running

def CheckPhase.status : CheckPhase → CycleStatus
  | .finished _ | .denied _ => .done
  | .crashed => .panicked
  | .acquire | .countActive _ | .create _ | .release _ _ => .running

def RecoverPhase.status : RecoverPhase → CycleStatus
  | .finished _ => .done
  | .crashed => .panicked
  | .acquire | .resetStale _ | .release _ _ => .running

/-- `OutboxPoller::run`. -/
def outboxPolls : Cycles Shared where
  interval := POLL_INTERVAL
  status shared cycle := shared.cluster.workers.polls[cycle]?.map PollPhase.status
  start shared :=
    let workers := shared.cluster.workers
    (workers.polls.length, shared.withWorkers { workers with polls := workers.polls ++ [.acquire] })

/-- `StaleRecovery::run`. -/
def staleRecoveries : Cycles Shared where
  interval := RECOVERY_INTERVAL
  status shared cycle := shared.recoveries[cycle]?.map RecoverPhase.status
  start shared :=
    (shared.recoveries.length, { shared with recoveries := shared.recoveries ++ [.acquire] })

/-- `SystemTaskChecker::run`. -/
def systemChecks : Cycles Shared where
  interval := CHECK_INTERVAL
  status shared cycle := shared.cluster.checks[cycle]?.map CheckPhase.status
  start shared :=
    (shared.cluster.checks.length,
      { shared with
        cluster := { shared.cluster with checks := shared.cluster.checks ++ [.acquire] } })

/-! ## `TaskConsumerLoop::run` -/

/-- An entry of the `JoinSet`: the run of a task, and whether its future is over and has
given the permit back. -/
structure Spawned where
  run : Nat
  done : Bool
deriving DecidableEq, Repr

inductive ConsumerPhase where
  | checking
  | acquiring
  | popping
  | sleeping (due : Instant)
  | reaping
  | draining
  | returned
deriving DecidableEq, Repr

structure TaskConsumerLoop where
  phase : ConsumerPhase
  /-- What the semaphore has left. -/
  permits : Nat
  inFlight : List Spawned
deriving DecidableEq, Repr

inductive ConsumerEvent where
  | check
  | acquire
  /-- The first branch of a `select!`; a pop it cancels may have taken effect. -/
  | interrupt (applied : Bool)
  | pop (fault : Fault)
  | wake
  | reap
  /-- The future of an entry ends. -/
  | release (place : Nat)
  | joinNext (place : Nat)
  | drained

def Run.live (run : Run) : Bool :=
  match run.phase with
  | .fetch | .handling _ _ _ | .write _ => true
  | .finished | .crashed => false

/-- `self.consumer.pop()`. -/
def consumerPop (state : State) (fault : Fault) : State × Except String (Option TaskId) :=
  attempt fault queueError state { state with queue := state.queue.tail } state.queue.head?

def popped (state : State) (consumer : TaskConsumerLoop) (fault : Fault) :
    State × TaskConsumerLoop :=
  let returned := { consumer with permits := consumer.permits + 1 }
  match consumerPop state fault with
  | (reached, .ok (some id)) =>
      ({ reached with runs := reached.runs ++ [⟨id, .fetch⟩] },
        { consumer with
          phase := .reaping, inFlight := consumer.inFlight ++ [⟨reached.runs.length, false⟩] })
  | (reached, .ok none) =>
      (reached, { returned with phase := .sleeping (state.now + EMPTY_POLL_DELAY) })
  | (reached, .error _) =>
      (reached, { returned with phase := .sleeping (state.now + POP_ERROR_DELAY) })

def consumerStep (shutdown : Bool) (state : State) (consumer : TaskConsumerLoop) :
    ConsumerEvent → Option (State × TaskConsumerLoop)
  | .check =>
      if consumer.phase = .checking then
        some (state, { consumer with phase := if shutdown then .draining else .acquiring })
      else none
  | .acquire =>
      if consumer.phase = .acquiring ∧ 0 < consumer.permits then
        some (state, { consumer with phase := .popping, permits := consumer.permits - 1 })
      else none
  | .interrupt applied =>
      if shutdown = false then none
      else match consumer.phase with
        | .acquiring => some (state, { consumer with phase := .checking })
        | .popping =>
            some ({ state with queue := if applied then state.queue.tail else state.queue },
              { consumer with phase := .checking, permits := consumer.permits + 1 })
        | _ => none
  | .pop fault => if consumer.phase = .popping then some (popped state consumer fault) else none
  | .wake =>
      match consumer.phase with
      | .sleeping due =>
          if due ≤ state.now then some (state, { consumer with phase := .reaping }) else none
      | _ => none
  | .reap =>
      if consumer.phase = .reaping then
        some (state, { consumer with
          phase := .checking, inFlight := consumer.inFlight.filter fun entry => !entry.done })
      else none
  | .release place =>
      match consumer.inFlight[place]? with
      | some ⟨run, false⟩ =>
          if state.runs[run]?.any fun run => !run.live then
            some (state, { consumer with
              permits := consumer.permits + 1
              inFlight := consumer.inFlight.set place ⟨run, true⟩ })
          else none
      | _ => none
  | .joinNext place =>
      match consumer.phase, consumer.inFlight[place]? with
      | .draining, some ⟨_, true⟩ =>
          some (state, { consumer with inFlight := consumer.inFlight.eraseIdx place })
      | _, _ => none
  | .drained =>
      if consumer.phase = .draining ∧ consumer.inFlight = [] then
        some (state, { consumer with phase := .returned })
      else none

/-! ## `main` -/

inductive ProcessStatus where
  | up
  | exited
  | killed
deriving DecidableEq, Repr

structure Process where
  status : ProcessStatus
  /-- The value of the `watch` channel. -/
  shutdown : Bool
  workerConcurrency : Nat
  consumer : TaskConsumerLoop
  poller : LoopPhase
  recovery : LoopPhase
  checker : LoopPhase
deriving DecidableEq

/-- The setting is raised to one. -/
def Process.start (workerConcurrency : Nat) : Process where
  status := .up
  shutdown := false
  workerConcurrency := max workerConcurrency 1
  consumer := { phase := .checking, permits := max workerConcurrency 1, inFlight := [] }
  poller := .checking
  recovery := .checking
  checker := .checking

inductive ProcessEvent where
  | consumer (event : ConsumerEvent)
  | poller (event : LoopEvent)
  | recovery (event : LoopEvent)
  | checker (event : LoopEvent)
  | signal
  | exit
  | kill

/-- A run that dies with its process. -/
def State.crashRun (state : State) (index : Nat) : State :=
  match state.runs[index]? with
  | some run => if run.live then state.setRun index ⟨run.taskId, .crashed⟩ else state
  | none => state

def Shared.crashRuns (shared : Shared) (runs : List Nat) : Shared :=
  shared.withWorkers (runs.foldl State.crashRun shared.cluster.workers)

def Shared.crashPoll (shared : Shared) : LoopPhase → Shared
  | .cycling cycle =>
      if outboxPolls.status shared cycle = some .running then
        shared.withWorkers (shared.cluster.workers.setPoll cycle .crashed)
      else shared
  | _ => shared

def Shared.crashCheck (shared : Shared) : LoopPhase → Shared
  | .cycling cycle =>
      if systemChecks.status shared cycle = some .running then
        { shared with cluster := shared.cluster.setCheck cycle .crashed }
      else shared
  | _ => shared

def Shared.crashRecovery (shared : Shared) : LoopPhase → Shared
  | .cycling cycle =>
      if staleRecoveries.status shared cycle = some .running then shared.setRecovery cycle .crashed
      else shared
  | _ => shared

/-- What is left when a process is gone: nothing it was doing goes on. -/
def Shared.crash (shared : Shared) (process : Process) : Shared :=
  (((shared.crashRuns (process.consumer.inFlight.map Spawned.run)).crashPoll
    process.poller).crashRecovery process.recovery).crashCheck process.checker

def Process.kill (shared : Shared) (process : Process) : Shared × Process :=
  (shared.crash process, { process with status := .killed })

/-- The second signal forces the exit; `join!` waits for all four loops. -/
def processStep (shared : Shared) (process : Process) : ProcessEvent → Option (Shared × Process)
  | .consumer event =>
      (consumerStep process.shutdown shared.cluster.workers process.consumer event).map
        fun answer => (shared.withWorkers answer.1, { process with consumer := answer.2 })
  | .poller event =>
      (loopStep outboxPolls process.shutdown shared.now shared process.poller event).map
        fun answer => (answer.1, { process with poller := answer.2 })
  | .recovery event =>
      (loopStep staleRecoveries process.shutdown shared.now shared process.recovery event).map
        fun answer => (answer.1, { process with recovery := answer.2 })
  | .checker event =>
      (loopStep systemChecks process.shutdown shared.now shared process.checker event).map
        fun answer => (answer.1, { process with checker := answer.2 })
  | .signal =>
      some (if process.shutdown then process.kill shared
        else (shared, { process with shutdown := true }))
  | .exit =>
      if process.shutdown ∧ process.consumer.phase = .returned ∧ process.poller.ended ∧
          process.recovery.ended ∧ process.checker.ended then
        some (shared, { process with status := .exited })
      else none
  | .kill => some (process.kill shared)

/-! ## Any number of processes -/

structure Fleet where
  shared : Shared
  processes : List Process

def Fleet.initial (now : Instant) : Fleet where
  shared := .initial now
  processes := []

inductive FleetEvent where
  | shared (event : SharedEvent)
  | start (workerConcurrency : Nat)
  | process (index : Nat) (event : ProcessEvent)

def fleetStep (decoders : Decoders) (fleet : Fleet) : FleetEvent → Option Fleet
  | .shared event =>
      (sharedStep decoders fleet.shared event).map fun shared => { fleet with shared }
  | .start workerConcurrency =>
      some { fleet with processes := fleet.processes ++ [.start workerConcurrency] }
  | .process index event =>
      fleet.processes[index]?.bind fun process =>
        if process.status = .up then
          (processStep fleet.shared process event).map fun answer =>
            ⟨answer.1, fleet.processes.set index answer.2⟩
        else none

end Benri.Worker
