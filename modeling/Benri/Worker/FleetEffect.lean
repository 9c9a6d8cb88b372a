import Benri.Worker.Effect
import Benri.Worker.Fleet

namespace Benri.Worker

open Benri.Data Benri.Domain Benri.Postgres Benri.Redis Benri.Transition

/-! # What a step of the fleet can do

One relation for each kind of step, with the guards it went through and without the
call results that lead to it.  And what the processes do to the stores is what the
cluster of pollers, checks and runs can do without them.
-/

variable {decoders : Decoders} {state reached : State} {shared after : Shared}
  {consumer next : TaskConsumerLoop} {process later : Process} {fleet : Fleet}

/-! ## What a step of the consumer loop can be -/

inductive ConsumerEffect (shutdown : Bool) (state : State) (consumer : TaskConsumerLoop) :
    State → TaskConsumerLoop → Prop where
  | checked (head : consumer.phase = .checking) :
      ConsumerEffect shutdown state consumer state
        { consumer with phase := if shutdown then .draining else .acquiring }
  | acquired (ready : consumer.phase = .acquiring) (left : 0 < consumer.permits) :
      ConsumerEffect shutdown state consumer state
        { consumer with phase := .popping, permits := consumer.permits - 1 }
  | interrupted (raised : shutdown = true) (ready : consumer.phase = .acquiring) :
      ConsumerEffect shutdown state consumer state { consumer with phase := .checking }
  | cancelled (raised : shutdown = true) (ready : consumer.phase = .popping)
      (queue : List TaskId) (perhaps : Perhaps state.queue state.queue.tail queue) :
      ConsumerEffect shutdown state consumer { state with queue }
        { consumer with phase := .checking, permits := consumer.permits + 1 }
  | spawned (ready : consumer.phase = .popping) (id : TaskId) (rest : List TaskId)
      (head : state.queue = id :: rest) :
      ConsumerEffect shutdown state consumer
        { state with queue := rest, runs := state.runs ++ [⟨id, .fetch⟩] }
        { consumer with
          phase := .reaping, inFlight := consumer.inFlight ++ [⟨state.runs.length, false⟩] }
  | unserved (ready : consumer.phase = .popping) (due : Instant) (queue : List TaskId)
      (perhaps : Perhaps state.queue state.queue.tail queue) :
      ConsumerEffect shutdown state consumer { state with queue }
        { consumer with phase := .sleeping due, permits := consumer.permits + 1 }
  | woke (due : Instant) (asleep : consumer.phase = .sleeping due) :
      ConsumerEffect shutdown state consumer state { consumer with phase := .reaping }
  | reaped (ready : consumer.phase = .reaping) :
      ConsumerEffect shutdown state consumer state { consumer with
        phase := .checking, inFlight := consumer.inFlight.filter fun entry => !entry.done }
  | released (place index : Nat) (run : Run)
      (entry : consumer.inFlight[place]? = some ⟨index, false⟩)
      (slot : state.runs[index]? = some run) (ended : run.live = false) :
      ConsumerEffect shutdown state consumer state { consumer with
        permits := consumer.permits + 1, inFlight := consumer.inFlight.set place ⟨index, true⟩ }
  | joined (place index : Nat) (ready : consumer.phase = .draining)
      (entry : consumer.inFlight[place]? = some ⟨index, true⟩) :
      ConsumerEffect shutdown state consumer state
        { consumer with inFlight := consumer.inFlight.eraseIdx place }
  | drained (ready : consumer.phase = .draining) (empty : consumer.inFlight = []) :
      ConsumerEffect shutdown state consumer state { consumer with phase := .returned }

theorem popped_effect {shutdown : Bool} (fault : Fault) (ready : consumer.phase = .popping) :
    ConsumerEffect shutdown state consumer (popped state consumer fault).1
      (popped state consumer fault).2 := by
  unfold popped consumerPop
  cases fault with
  | none =>
      simp only [attempt_none]
      cases queue : state.queue with
      | nil =>
          exact .unserved ready (state.now + EMPTY_POLL_DELAY) [] (.inl queue.symm)
      | cons id rest => exact .spawned ready id rest queue
  | error applied message =>
      cases applied with
      | false => exact .unserved ready (state.now + POP_ERROR_DELAY) state.queue (.inl rfl)
      | true => exact .unserved ready (state.now + POP_ERROR_DELAY) state.queue.tail (.inr rfl)

theorem consumerStep_effect {shutdown : Bool} {event : ConsumerEvent}
    (stepped : consumerStep shutdown state consumer event = some (reached, next)) :
    ConsumerEffect shutdown state consumer reached next := by
  cases event with
  | check =>
      simp only [consumerStep] at stepped
      split at stepped
      · cases stepped; exact .checked ‹_›
      · contradiction
  | acquire =>
      simp only [consumerStep] at stepped
      split at stepped
      · rename_i ready
        cases stepped; exact .acquired ready.1 ready.2
      · contradiction
  | interrupt applied =>
      simp only [consumerStep] at stepped
      split at stepped
      · contradiction
      · rename_i raised
        rw [Bool.not_eq_false] at raised
        split at stepped
        · cases stepped; exact .interrupted raised ‹_›
        · cases stepped
          refine .cancelled raised ‹_› _ ?_
          cases applied
          · exact .inl rfl
          · exact .inr rfl
        · contradiction
  | pop fault =>
      simp only [consumerStep] at stepped
      split at stepped
      · rename_i ready
        have effect : ConsumerEffect shutdown state consumer _ _ := popped_effect fault ready
        rwa [Option.some.inj stepped] at effect
      · contradiction
  | wake =>
      simp only [consumerStep] at stepped
      split at stepped
      · rename_i due asleep
        split at stepped
        · cases stepped; exact .woke due asleep
        · contradiction
      · contradiction
  | reap =>
      simp only [consumerStep] at stepped
      split at stepped
      · cases stepped; exact .reaped ‹_›
      · contradiction
  | release place =>
      simp only [consumerStep] at stepped
      split at stepped
      · rename_i index entry
        split at stepped
        · rename_i past
          obtain ⟨run, slot, ended⟩ := (Option.any_eq_true _ _).mp past
          cases stepped
          exact .released place index run entry slot (by simpa using ended)
        · contradiction
      · contradiction
  | joinNext place =>
      simp only [consumerStep] at stepped
      split at stepped
      · rename_i index ready entry
        cases stepped; exact .joined place index ready entry
      · contradiction
  | drained =>
      simp only [consumerStep] at stepped
      split at stepped
      · rename_i ready
        cases stepped; exact .drained ready.1 ready.2
      · contradiction

/-! ## What a step of a recovery can be -/

inductive RecoverEffect (shared : Shared) : RecoverPhase → Shared → RecoverPhase → Prop where
  | acquired (lock : Option Lease) :
      RecoverEffect shared .acquire
        { shared with recoveryIssued := shared.recoveryIssued + 1, recoveryLock := lock }
        (.resetStale ⟨shared.recoveryIssued⟩)
  | denied (lock : Option Lease) (result : Except String Unit) :
      RecoverEffect shared .acquire
        { shared with recoveryIssued := shared.recoveryIssued + 1, recoveryLock := lock }
        (.finished result)
  | failed (token : LockToken) (result : Except String Unit) :
      RecoverEffect shared (.resetStale token) shared (.release token result)
  | reset (token : LockToken) (result : Except String Unit) :
      RecoverEffect shared (.resetStale token)
        (shared.withWorkers { shared.cluster.workers with
          tasks := resetStale shared.cluster.workers.tasks shared.cluster.workers.now })
        (.release token result)
  | released (token : LockToken) (lock : Option Lease) (result : Except String Unit) :
      RecoverEffect shared (.release token result) { shared with recoveryLock := lock }
        (.finished result)

theorem recoverAcquire_effect (shared : Shared) (fault : Fault) :
    RecoverEffect shared .acquire (recoverAcquire shared fault).1
      (recoverAcquire shared fault).2 := by
  unfold recoverAcquire
  cases fault with
  | none =>
      simp only [attempt_none]
      cases held : holder shared.recoveryLock shared.now <;> simp only [Redis.acquire, held]
      · exact .acquired _
      · exact .denied _ _
  | error applied message => cases applied <;> exact .denied _ _

theorem recoverReset_effect (shared : Shared) (fault : Fault) (token : LockToken) :
    RecoverEffect shared (.resetStale token) (recoverReset shared fault token).1
      (recoverReset shared fault token).2 := by
  unfold recoverReset
  cases fault with
  | none => exact .reset token _
  | error applied message =>
      cases applied
      · exact .failed token _
      · exact .reset token _

theorem recoverRelease_effect (shared : Shared) (fault : Fault) (token : LockToken)
    (result : Except String Unit) :
    RecoverEffect shared (.release token result) (recoverRelease shared fault token result).1
      (recoverRelease shared fault token result).2 := by
  unfold recoverRelease
  cases fault with
  | none => exact .released token _ result
  | error applied message => cases applied <;> exact .released token _ result

theorem recoverStep_effect {fault : Fault} {phase following : RecoverPhase}
    (stepped : recoverStep shared fault phase = some (after, following)) :
    RecoverEffect shared phase after following := by
  cases phase with
  | acquire =>
      have effect := recoverAcquire_effect shared fault
      rwa [Option.some.inj stepped] at effect
  | resetStale token =>
      have effect := recoverReset_effect shared fault token
      rwa [Option.some.inj stepped] at effect
  | release token result =>
      have effect := recoverRelease_effect shared fault token result
      rwa [Option.some.inj stepped] at effect
  | finished result => cases stepped
  | crashed => cases stepped

/-- What is shared changes by an event of the cluster, or by one of a recovery. -/
inductive SharedEffect (decoders : Decoders) (shared : Shared) : SharedEvent → Shared → Prop where
  | cluster (event : ClusterEvent) (cluster : Cluster) (unasked : unprompted event = true)
      (effect : ClusterEffect decoders shared.cluster event cluster)
      (stepped : clusterStep decoders shared.cluster event = some cluster) :
      SharedEffect decoders shared (.cluster event) { shared with cluster }
  | recover (index : Nat) (fault : Fault) (phase following : RecoverPhase) (reached : Shared)
      (slot : shared.recoveries[index]? = some phase)
      (effect : RecoverEffect shared phase reached following) :
      SharedEffect decoders shared (.recover index fault) (reached.setRecovery index following)
  | crashRecovery (index : Nat) :
      SharedEffect decoders shared (.crashRecovery index) (shared.setRecovery index .crashed)

theorem sharedStep_effect {event : SharedEvent}
    (stepped : sharedStep decoders shared event = some after) :
    SharedEffect decoders shared event after := by
  cases event with
  | cluster event =>
      simp only [sharedStep] at stepped
      split at stepped
      · obtain ⟨cluster, moved, rfl⟩ := Option.map_eq_some_iff.mp stepped
        exact .cluster event cluster ‹_› (clusterStep_effect moved) moved
      · contradiction
  | recover index fault =>
      obtain ⟨phase, slot, mapped⟩ := Option.bind_eq_some_iff.mp stepped
      obtain ⟨⟨reached, following⟩, moved, rfl⟩ := Option.map_eq_some_iff.mp mapped
      exact .recover index fault phase following reached slot (recoverStep_effect moved)
  | crashRecovery index => cases stepped; exact .crashRecovery index

/-! ## What a step of a process can be -/

inductive ProcessEffect (shared : Shared) (process : Process) : Shared → Process → Prop where
  | consumer (reached : State) (next : TaskConsumerLoop)
      (effect : ConsumerEffect process.shutdown shared.cluster.workers process.consumer reached
        next) :
      ProcessEffect shared process (shared.withWorkers reached) { process with consumer := next }
  | poller (after : Shared) (next : LoopPhase)
      (effect : LoopEffect outboxPolls process.shutdown shared process.poller after next) :
      ProcessEffect shared process after { process with poller := next }
  | recovery (after : Shared) (next : LoopPhase)
      (effect : LoopEffect staleRecoveries process.shutdown shared process.recovery after next) :
      ProcessEffect shared process after { process with recovery := next }
  | checker (after : Shared) (next : LoopPhase)
      (effect : LoopEffect systemChecks process.shutdown shared process.checker after next) :
      ProcessEffect shared process after { process with checker := next }
  | signalled (lowered : process.shutdown = false) :
      ProcessEffect shared process shared { process with shutdown := true }
  | exited (raised : process.shutdown = true) (consumer : process.consumer.phase = .returned)
      (poller : process.poller.ended = true) (recovery : process.recovery.ended = true)
      (checker : process.checker.ended = true) :
      ProcessEffect shared process shared { process with status := .exited }
  | killed :
      ProcessEffect shared process (shared.crash process) { process with status := .killed }

theorem processStep_effect {event : ProcessEvent}
    (stepped : processStep shared process event = some (after, later)) :
    ProcessEffect shared process after later := by
  cases event with
  | consumer event =>
      obtain ⟨⟨reached, next⟩, moved, same⟩ := Option.map_eq_some_iff.mp stepped
      cases same
      exact .consumer reached next (consumerStep_effect moved)
  | poller event =>
      obtain ⟨⟨reached, next⟩, moved, same⟩ := Option.map_eq_some_iff.mp stepped
      cases same
      exact .poller reached next (loopStep_effect moved)
  | recovery event =>
      obtain ⟨⟨reached, next⟩, moved, same⟩ := Option.map_eq_some_iff.mp stepped
      cases same
      exact .recovery reached next (loopStep_effect moved)
  | checker event =>
      obtain ⟨⟨reached, next⟩, moved, same⟩ := Option.map_eq_some_iff.mp stepped
      cases same
      exact .checker reached next (loopStep_effect moved)
  | signal =>
      simp only [processStep] at stepped
      split at stepped
      · cases stepped; exact .killed
      · cases stepped; exact .signalled (Bool.eq_false_iff.mpr ‹_›)
  | exit =>
      simp only [processStep] at stepped
      split at stepped
      · rename_i done
        obtain ⟨raised, consumer, poller, recovery, checker⟩ := done
        cases stepped
        exact .exited raised consumer poller recovery checker
      · contradiction
  | kill => cases stepped; exact .killed

/-- A step of the fleet is one of what is shared, of nobody's, or of a process that is up. -/
inductive FleetEffect (decoders : Decoders) (fleet : Fleet) : FleetEvent → Fleet → Prop where
  | shared (event : SharedEvent) (shared : Shared)
      (stepped : sharedStep decoders fleet.shared event = some shared) :
      FleetEffect decoders fleet (.shared event) { fleet with shared }
  | start (workerConcurrency : Nat) :
      FleetEffect decoders fleet (.start workerConcurrency)
        { fleet with processes := fleet.processes ++ [.start workerConcurrency] }
  | process (index : Nat) (event : ProcessEvent) (process later : Process) (after : Shared)
      (slot : fleet.processes[index]? = some process) (up : process.status = .up)
      (stepped : processStep fleet.shared process event = some (after, later)) :
      FleetEffect decoders fleet (.process index event)
        ⟨after, fleet.processes.set index later⟩

theorem fleetStep_effect {event : FleetEvent} {finish : Fleet}
    (stepped : fleetStep decoders fleet event = some finish) :
    FleetEffect decoders fleet event finish := by
  cases event with
  | shared event =>
      obtain ⟨shared, moved, rfl⟩ := Option.map_eq_some_iff.mp stepped
      exact .shared event shared moved
  | start workerConcurrency => cases stepped; exact .start workerConcurrency
  | process index event =>
      obtain ⟨process, slot, moved⟩ := Option.bind_eq_some_iff.mp stepped
      split at moved
      · rename_i up
        obtain ⟨⟨after, later⟩, changed, rfl⟩ := Option.map_eq_some_iff.mp moved
        exact .process index event process later after slot up changed
      · contradiction

/-! ## The processes refine the cluster -/

/-- Some steps of the pollers, checks and runs lead from one cluster to the other. -/
abbrev Leads (decoders : Decoders) (before after : Cluster) : Prop :=
  Reaches (clusterStep decoders) Anything before after

variable {cluster : Cluster}

theorem leads_worker (event : Event) (others : foreign event = true)
    (stepped : step decoders cluster.workers event = some state) :
    Leads decoders cluster { cluster with workers := state } := by
  refine .single (.worker event) trivial ?_
  simp only [clusterStep, others, if_true, stepped, Option.map_some]

/-- A pop that brings nothing is one that fails. -/
theorem leads_perhaps {queue : List TaskId}
    (perhaps : Perhaps cluster.workers.queue cluster.workers.queue.tail queue) :
    Leads decoders cluster { cluster with workers := { cluster.workers with queue } } := by
  rcases perhaps with rfl | rfl
  · exact .refl
  · cases front : cluster.workers.queue with
    | nil =>
        rw [List.tail_nil, ← front]
        exact .refl
    | cons id rest =>
        refine leads_worker (.pop (.error true "")) rfl ?_
        simp only [step, popStep, front, attempt, if_true, List.tail_cons]

theorem ConsumerEffect.leads {shutdown : Bool}
    (effect : ConsumerEffect shutdown cluster.workers consumer reached next) :
    Leads decoders cluster { cluster with workers := reached } := by
  cases effect with
  | cancelled raised ready queue perhaps => exact leads_perhaps perhaps
  | unserved ready due queue perhaps => exact leads_perhaps perhaps
  | spawned ready id rest head =>
      refine leads_worker (.pop .none) rfl ?_
      simp only [step, popStep, head, attempt_none]
  | _ => exact .refl

theorem RecoverEffect.leads {phase following : RecoverPhase}
    (effect : RecoverEffect shared phase after following) :
    Leads decoders shared.cluster after.cluster := by
  cases effect with
  | reset token result => exact leads_worker .resetStale rfl rfl
  | _ => exact .refl

theorem SharedEffect.leads {event : SharedEvent}
    (effect : SharedEffect decoders shared event after) :
    Leads decoders shared.cluster after.cluster := by
  cases effect with
  | cluster event cluster unasked effect stepped => exact .single event trivial stepped
  | recover index fault phase following reached slot effect => exact effect.leads
  | crashRecovery index => exact .refl

theorem crashRun_leads (index : Nat) :
    Leads decoders cluster { cluster with workers := cluster.workers.crashRun index } := by
  unfold State.crashRun
  cases slot : cluster.workers.runs[index]? with
  | none => exact .refl
  | some run =>
      dsimp only
      split
      · refine leads_worker (.crashRun index) rfl ?_
        simp only [step, runEvent, slot, Option.bind_some, Option.map_some]
      · exact .refl

theorem crashAll_leads (runs : List Nat) (cluster : Cluster) :
    Leads decoders cluster { cluster with workers := runs.foldl State.crashRun cluster.workers } := by
  induction runs generalizing cluster with
  | nil => exact .refl
  | cons index rest ih =>
      exact (crashRun_leads index).trans
        (ih { cluster with workers := cluster.workers.crashRun index })

/-- What dies with a process dies by crashes of its runs, its poll and its check. -/
theorem Shared.crash_leads (shared : Shared) (process : Process) :
    Leads decoders shared.cluster (shared.crash process).cluster := by
  have runs : Leads decoders shared.cluster
      (shared.crashRuns (process.consumer.inFlight.map Spawned.run)).cluster :=
    crashAll_leads _ shared.cluster
  have poll : ∀ shared : Shared,
      Leads decoders shared.cluster (shared.crashPoll process.poller).cluster := by
    intro shared
    unfold Shared.crashPoll
    split
    · split
      · exact leads_worker (.crashPoll _) rfl rfl
      · exact .refl
    · exact .refl
  have recovery : ∀ shared : Shared,
      Leads decoders shared.cluster (shared.crashRecovery process.recovery).cluster := by
    intro shared
    unfold Shared.crashRecovery
    split
    · split <;> exact .refl
    · exact .refl
  have check : ∀ shared : Shared,
      Leads decoders shared.cluster (shared.crashCheck process.checker).cluster := by
    intro shared
    unfold Shared.crashCheck
    split
    · split
      · exact .single (.crashCheck _) trivial rfl
      · exact .refl
    · exact .refl
  exact ((runs.trans (poll _)).trans (recovery _)).trans (check _)

theorem loopEffect_leads {cycles : Cycles Shared} {flag : Bool} {phase following : LoopPhase}
    (effect : LoopEffect cycles flag shared phase after following)
    (starts : Leads decoders shared.cluster (cycles.start shared).2.cluster) :
    Leads decoders shared.cluster after.cluster := by
  cases effect with
  | started lowered => exact starts
  | _ => exact .refl

theorem ProcessEffect.leads (effect : ProcessEffect shared process after later) :
    Leads decoders shared.cluster after.cluster := by
  cases effect with
  | consumer reached next effect => exact effect.leads
  | poller after next effect =>
      exact loopEffect_leads effect (leads_worker .startPoll rfl rfl)
  | recovery after next effect => exact loopEffect_leads effect .refl
  | checker after next effect => exact loopEffect_leads effect (.single .startCheck trivial rfl)
  | signalled lowered => exact .refl
  | exited raised consumer poller recovery checker => exact .refl
  | killed => exact shared.crash_leads process

/-- Whatever any number of processes do, and however they go down, the cluster they leave is
one that the pollers, checks, runs and recoveries of the cluster lead to by themselves: what
holds of every state of the cluster holds under the processes. -/
theorem fleet_refines {allowed : Fleet → FleetEvent → Prop} {start finish : Fleet}
    (reached : Reaches (fleetStep decoders) allowed start finish) :
    Reaches (clusterStep decoders) Anything start.shared.cluster finish.shared.cluster := by
  refine reached.preserves (fun fleet => Leads decoders start.shared.cluster fleet.shared.cluster)
    .refl fun led _ moved => led.trans ?_
  cases fleetStep_effect moved with
  | shared event shared stepped => exact (sharedStep_effect stepped).leads
  | start workerConcurrency => exact .refl
  | process index event process later after slot up stepped =>
      exact (processStep_effect stepped).leads

/-! ## A task without a handler, for runs on fixed events -/

def plainTask : Task where
  id := ⟨.ofNat 7⟩
  metadataType := ""
  metadata := .null
  status := .pending
  orderingKey := none
  traceId := none
  attemptCount := 0
  nextRunAt := 0
  error := none
  startedAt := none
  completedAt := none
  createdAt := 0
  updatedAt := 0

def decodesNothing : Decoders :=
  ⟨fun _ => .error "", fun _ => .error "", fun _ => .error ""⟩

/-- A process is killed in the middle of a poll: to the cluster, the poll crashes. -/
theorem fleet_refines_killed : ∃ fleet,
    Reaches (fleetStep decodesNothing) Anything (Fleet.initial 0) fleet ∧
      fleet.shared.cluster.workers.polls.map PollPhase.status = [.panicked] ∧
      Reaches (clusterStep decodesNothing) Anything (Cluster.initial 0) fleet.shared.cluster := by
  have passed : ((run (fleetStep decodesNothing) Anything (Fleet.initial 0)
      [.start 1, .process 0 (.poller .check), .shared (.cluster (.worker (.poll 0 .none))),
        .process 0 .kill]).map fun fleet =>
          decide (fleet.shared.cluster.workers.polls.map PollPhase.status = [.panicked])) =
            some true := by rfl
  obtain ⟨fleet, ran, checked⟩ := reaches_of_check _ passed
  exact ⟨fleet, ran, of_decide_eq_true checked, fleet_refines ran⟩

end Benri.Worker
