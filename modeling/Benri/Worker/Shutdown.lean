import Benri.Transition.History
import Benri.Worker.Attended

namespace Benri.Worker

open Benri.Data Benri.Domain Benri.Postgres Benri.Redis Benri.Transition

/-! # Going down

A process that is told to stop takes boundedly many more steps, and waits only for the
runs and cycles it has under way.  What it had started is over when it exits; only a
process that is killed leaves runs behind that did not finish.
-/

variable {decoders : Decoders} {state reached : State} {shared after : Shared}
  {consumer next : TaskConsumerLoop} {process later : Process} {fleet start finish : Fleet}
  {allowed : Fleet → FleetEvent → Prop} {now : Instant} {index : Nat}

/-! ## How many steps are left -/

def Spawned.weight (entry : Spawned) : Nat := if entry.done then 1 else 2

/-- A run that a last pop may start counts among the steps before it. -/
def ConsumerPhase.weight : ConsumerPhase → Nat
  | .acquiring => 8
  | .popping => 7
  | .sleeping _ => 4
  | .reaping => 3
  | .checking => 2
  | .draining => 1
  | .returned => 0

def TaskConsumerLoop.weight (consumer : TaskConsumerLoop) : Nat :=
  consumer.phase.weight + (consumer.inFlight.map Spawned.weight).sum

def Process.weight (process : Process) : Nat :=
  process.consumer.weight + process.poller.weight + process.recovery.weight +
    process.checker.weight + if process.status = .up then 1 else 0

theorem weight_reaped (entries : List Spawned) :
    ((entries.filter fun entry => !entry.done).map Spawned.weight).sum ≤
      (entries.map Spawned.weight).sum := by
  induction entries with
  | nil => exact le_rfl
  | cons entry rest ih =>
      cases past : entry.done with
      | true =>
          rw [List.filter_cons_of_neg (by simp [past]), List.map_cons, List.sum_cons]
          omega
      | false =>
          rw [List.filter_cons_of_pos (by simp [past])]
          simp only [List.map_cons, List.sum_cons]
          omega

theorem weight_entry {place : Nat} {entry : Spawned}
    (found : consumer.inFlight[place]? = some entry) :
    (consumer.inFlight.map Spawned.weight).sum =
      entry.weight + ((consumer.inFlight.eraseIdx place).map Spawned.weight).sum := by
  obtain ⟨bound, rfl⟩ := List.getElem?_eq_some_iff.mp found
  have perm := (List.getElem_cons_eraseIdx_perm bound).symm.map Spawned.weight
  rw [perm.sum_nat, List.map_cons, List.sum_cons]

theorem weight_set {place : Nat} {entry : Spawned} (new : Spawned)
    (found : consumer.inFlight[place]? = some entry) :
    ((consumer.inFlight.set place new).map Spawned.weight).sum =
      new.weight + ((consumer.inFlight.eraseIdx place).map Spawned.weight).sum := by
  obtain ⟨bound, _⟩ := List.getElem?_eq_some_iff.mp found
  have perm := (List.set_perm_cons_eraseIdx bound new).map Spawned.weight
  rw [perm.sum_nat, List.map_cons, List.sum_cons]

/-- Once the loop is told to stop, every step brings its end closer. -/
theorem ConsumerEffect.lighter (effect : ConsumerEffect true state consumer reached next) :
    next.weight < consumer.weight := by
  unfold TaskConsumerLoop.weight
  cases effect with
  | checked head => simp [head, ConsumerPhase.weight]
  | acquired ready left => simp [ready, ConsumerPhase.weight]
  | interrupted raised ready => simp [ready, ConsumerPhase.weight]
  | cancelled raised ready queue perhaps => simp [ready, ConsumerPhase.weight]
  | spawned ready id rest head =>
      simp only [ready, ConsumerPhase.weight, List.map_append, List.sum_append, List.map_singleton,
        List.sum_singleton, Spawned.weight, Bool.false_eq_true, if_false]
      omega
  | unserved ready due queue perhaps => simp [ready, ConsumerPhase.weight]
  | woke due asleep => simp [asleep, ConsumerPhase.weight]
  | reaped ready =>
      have fewer := weight_reaped consumer.inFlight
      simp only [ready, ConsumerPhase.weight]
      omega
  | released place index run entry slot ended =>
      rw [weight_entry entry, weight_set _ entry]
      simp [Spawned.weight]
  | joined place index ready entry =>
      rw [weight_entry entry]
      simp [Spawned.weight]
  | drained ready empty => simp [ready, ConsumerPhase.weight]

theorem ProcessEffect.lighter (effect : ProcessEffect shared process after later)
    (up : process.status = .up) (told : process.shutdown = true) :
    later.weight < process.weight ∧ later.shutdown = true := by
  unfold Process.weight
  cases effect with
  | consumer reached next effect =>
      rw [told] at effect
      have lighter := effect.lighter
      exact ⟨by simp only; omega, told⟩
  | poller after next effect =>
      rw [told] at effect
      have lighter := effect.stopping.2
      exact ⟨by simp only; omega, told⟩
  | recovery after next effect =>
      rw [told] at effect
      have lighter := effect.stopping.2
      exact ⟨by simp only; omega, told⟩
  | checker after next effect =>
      rw [told] at effect
      have lighter := effect.stopping.2
      exact ⟨by simp only; omega, told⟩
  | signalled lowered =>
      rw [told] at lowered
      cases lowered
  | exited raised consumer poller recovery checker => exact ⟨by simp [up], told⟩
  | killed => exact ⟨by simp [up], told⟩

/-- The steps that one process has taken. -/
def countSteps (index : Nat) (_ : Fleet) (event : FleetEvent) (count : Nat) : Nat :=
  match event with
  | .process other _ => if other = index then count + 1 else count
  | .shared _ | .start _ => count

theorem shutdown_bounded {count : Nat} (slot : start.processes[index]? = some process)
    (told : process.shutdown = true)
    (recalls : Recalls (fleetStep decoders) allowed (countSteps index) (start, 0) finish count) :
    ∃ later, finish.processes[index]? = some later ∧ later.shutdown = true ∧
      count + later.weight ≤ process.weight := by
  refine recalls.preserves (fun fleet count => ∃ later, fleet.processes[index]? = some later ∧
    later.shutdown = true ∧ count + later.weight ≤ process.weight)
    ⟨process, slot, told, by omega⟩ ?_
  rintro before finish event count ⟨later, there, still, left⟩ _ stepped
  cases fleetStep_effect stepped with
  | shared event shared moved => exact ⟨later, there, still, left⟩
  | start workerConcurrency =>
      refine ⟨later, ?_, still, left⟩
      rw [List.getElem?_append_left (List.getElem?_eq_some_iff.mp there).1]
      exact there
  | process other event moving moved shared found up changed =>
      by_cases same : other = index
      · subst same
        obtain rfl := Option.some.inj (found.symm.trans there)
        obtain ⟨bound, _⟩ := List.getElem?_eq_some_iff.mp found
        obtain ⟨lighter, told⟩ := (processStep_effect changed).lighter up still
        refine ⟨moved, by simp [bound], told, ?_⟩
        simp only [countSteps, if_true]
        omega
      · refine ⟨later, ?_, still, ?_⟩
        · rw [List.getElem?_set_ne same]
          exact there
        · simpa only [countSteps, if_neg same] using left

theorem Spawned.weight_le (entry : Spawned) : entry.weight ≤ 2 := by
  unfold Spawned.weight
  split <;> omega

theorem weight_inFlight (entries : List Spawned) :
    (entries.map Spawned.weight).sum ≤ 2 * entries.length := by
  induction entries with
  | nil => exact le_rfl
  | cons entry rest ih =>
      have own := entry.weight_le
      simp only [List.map_cons, List.sum_cons, List.length_cons]
      omega

theorem loopWeight_le (phase : LoopPhase) : phase.weight ≤ 3 := by
  cases phase <;> simp [LoopPhase.weight]

theorem Process.weight_le (process : Process) :
    process.weight ≤ 18 + 2 * process.consumer.inFlight.length := by
  have entries := weight_inFlight process.consumer.inFlight
  have poller := loopWeight_le process.poller
  have recovery := loopWeight_le process.recovery
  have checker := loopWeight_le process.checker
  have phase : process.consumer.phase.weight ≤ 8 := by
    cases process.consumer.phase <;> simp [ConsumerPhase.weight]
  unfold Process.weight TaskConsumerLoop.weight
  split <;> omega

/-! ## What a process that is told to stop waits for -/

/-- Why no step of a process is due: a pause that it does not cut short, a run that goes
on, or a cycle that does. -/
inductive Waits (shared : Shared) (process : Process) : Prop where
  | pause (due : Instant) (asleep : process.consumer.phase = .sleeping due)
      (early : shared.now < due)
  | run (index : Nat) (run : Run) (mine : index ∈ process.consumer.working)
      (slot : shared.cluster.workers.runs[index]? = some run) (live : run.live = true)
  | poll (cycle : Nat) (current : process.poller = .cycling cycle)
      (running : shared.polls[cycle]? = some .running)
  | recovery (cycle : Nat) (current : process.recovery = .cycling cycle)
      (running : shared.recovering[cycle]? = some .running)
  | check (cycle : Nat) (current : process.checker = .cycling cycle)
      (running : shared.checks[cycle]? = some .running)

/-- The steps that a process takes by itself. -/
def ProcessEvent.own : ProcessEvent → Bool
  | .signal | .kill => false
  | .consumer _ | .poller _ | .recovery _ | .checker _ | .exit => true

/-- The consumer has returned, has a step to take, pauses, or waits for a run. -/
theorem consumer_progress (bounded : ∀ entry ∈ consumer.inFlight, entry.run < state.runs.length) :
    consumer.phase = .returned ∨
      (∃ event after, consumerStep true state consumer event = some after) ∨
      (∃ due, consumer.phase = .sleeping due ∧ state.now < due) ∨
      ∃ index run, index ∈ consumer.working ∧ state.runs[index]? = some run ∧ run.live = true := by
  have ready : ∀ event, (consumerStep true state consumer event).isSome →
      ∃ event after, consumerStep true state consumer event = some after := fun event some =>
    ⟨event, Option.isSome_iff_exists.mp some⟩
  cases phase : consumer.phase with
  | checking => exact .inr (.inl (ready .check (by simp [consumerStep, phase])))
  | acquiring => exact .inr (.inl (ready (.interrupt false) (by simp [consumerStep, phase])))
  | popping => exact .inr (.inl (ready (.interrupt false) (by simp [consumerStep, phase])))
  | sleeping due =>
      by_cases late : due ≤ state.now
      · exact .inr (.inl (ready .wake (by simp [consumerStep, phase, late])))
      · exact .inr (.inr (.inl ⟨due, rfl, not_le.mp late⟩))
  | reaping => exact .inr (.inl (ready .reap (by simp [consumerStep, phase])))
  | draining =>
      cases entries : consumer.inFlight with
      | nil => exact .inr (.inl (ready .drained (by simp [consumerStep, phase, entries])))
      | cons entry rest =>
          have first : consumer.inFlight[0]? = some entry := by rw [entries]; rfl
          obtain ⟨index, past⟩ := entry
          cases past with
          | true =>
              exact .inr (.inl (ready (.joinNext 0) (by simp [consumerStep, phase, first])))
          | false =>
              have member := List.mem_of_getElem? first
              have inside : index < state.runs.length := bounded _ member
              have slot := List.getElem?_eq_getElem inside
              cases live : state.runs[index].live with
              | true =>
                  exact .inr (.inr (.inr ⟨index, _, mem_working.mpr ⟨_, member, rfl, rfl⟩, slot,
                    live⟩))
              | false =>
                  refine .inr (.inl (ready (.release 0) ?_))
                  simp [consumerStep, first, slot, live]
  | returned => exact .inl rfl

/-- One of the three loops in the same way. -/
theorem loop_progress {cycles : Cycles Shared} {phase : LoopPhase} {of : Shared → List CycleStatus}
    (status : ∀ cycle, cycles.status shared cycle = (of shared)[cycle]?)
    (known : ∀ cycle, phase = .cycling cycle → cycle < (of shared).length) :
    phase.ended = true ∨
      (∃ cycle, phase = .cycling cycle ∧ (of shared)[cycle]? = some .running) ∨
      ∃ event after, loopStep cycles true shared.now shared phase event = some after := by
  have progress := loopStep_progress cycles shared.now shared phase fun cycle current => by
    rw [status, List.getElem?_eq_getElem (known cycle current)]
    exact nofun
  simpa only [status] using progress

theorem process_progress (owned : Owned fleet) (attended : Attended fleet.shared fleet.processes)
    (member : process ∈ fleet.processes) (told : process.shutdown = true) :
    (∃ event after, event.own = true ∧ processStep fleet.shared process event = some after) ∨
      Waits fleet.shared process := by
  rcases consumer_progress (owned.bounded process member) with
    returned | ⟨event, after, stepped⟩ | ⟨due, asleep, early⟩ | ⟨index, run, mine, slot, live⟩
  case inr.inl =>
    exact .inl ⟨.consumer event, _, rfl, by rw [processStep, told, stepped]; rfl⟩
  case inr.inr.inl => exact .inr (.pause due asleep early)
  case inr.inr.inr => exact .inr (.run index run mine slot live)
  rcases loop_progress (outboxPolls_status fleet.shared) (attended.polls.known process member) with
    poller | ⟨cycle, current, running⟩ | ⟨event, after, stepped⟩
  case inr.inl => exact .inr (.poll cycle current running)
  case inr.inr => exact .inl ⟨.poller event, _, rfl, by rw [processStep, told, stepped]; rfl⟩
  rcases loop_progress (staleRecoveries_status fleet.shared)
    (attended.recovering.known process member) with
    recovery | ⟨cycle, current, running⟩ | ⟨event, after, stepped⟩
  case inr.inl => exact .inr (.recovery cycle current running)
  case inr.inr => exact .inl ⟨.recovery event, _, rfl, by rw [processStep, told, stepped]; rfl⟩
  rcases loop_progress (systemChecks_status fleet.shared) (attended.checks.known process member) with
    checker | ⟨cycle, current, running⟩ | ⟨event, after, stepped⟩
  case inr.inl => exact .inr (.check cycle current running)
  case inr.inr => exact .inl ⟨.checker event, _, rfl, by rw [processStep, told, stepped]; rfl⟩
  exact .inl ⟨.exit, _, rfl, if_pos ⟨told, returned, poller, recovery, checker⟩⟩

/-- A process that is told to stop takes boundedly many more steps, whatever the others and
the stores do meanwhile, and until it is down it has a step of its own to take, or waits for
a run or a cycle it has under way, or for the end of a pause of its consumer. -/
theorem shutdown_drains {count : Nat}
    (began : Reaches (fleetStep decoders) allowed (.initial now) start)
    (slot : start.processes[index]? = some process) (told : process.shutdown = true)
    (recalls : Recalls (fleetStep decoders) allowed (countSteps index) (start, 0) finish count) :
    count ≤ 18 + 2 * process.consumer.inFlight.length ∧
      ∃ later, finish.processes[index]? = some later ∧ (later.status = .up →
        (∃ event after, event.own = true ∧
          fleetStep decoders finish (.process index event) = some after) ∨
        Waits finish.shared later) := by
  obtain ⟨later, there, still, left⟩ := shutdown_bounded slot told recalls
  have bound := process.weight_le
  refine ⟨by omega, later, there, fun up => ?_⟩
  have reached := began.trans recalls.forget
  have member := List.mem_of_getElem? there
  rcases process_progress (owned_of_reaches reached) (attended_of_reaches reached) member still with
    ⟨event, after, own, stepped⟩ | waits
  · refine .inl ⟨event, ⟨after.1, finish.processes.set index after.2⟩, own, ?_⟩
    rw [fleetStep, there, Option.bind_some, if_pos up, stepped]
    rfl
  · exact .inr waits

/-- A process in the middle of a poll is told to stop, and waits for the poll. -/
theorem shutdown_drains_polling : ∃ start finish process later,
    Reaches (fleetStep decodesNothing) Anything (Fleet.initial 0) start ∧
      Recalls (fleetStep decodesNothing) Anything (countSteps 0) (start, 0) finish 4 ∧
      start.processes[0]? = some process ∧ 4 ≤ 18 + 2 * process.consumer.inFlight.length ∧
      finish.processes[0]? = some later ∧ (later.status = .up →
        (∃ event after, event.own = true ∧
          fleetStep decodesNothing finish (.process 0 event) = some after) ∨
        Waits finish.shared later) := by
  have passed : ((run (fleetStep decodesNothing) Anything (Fleet.initial 0)
      [.start 1, .process 0 (.poller .check), .process 0 .signal]).bind fun start =>
        (run (recalling (fleetStep decodesNothing) (countSteps 0)) (permitting Anything) (start, 0)
          [.process 0 (.consumer .check), .process 0 (.consumer .drained),
            .process 0 (.recovery .check), .process 0 (.checker .check)]).map fun world =>
              decide (start.processes[0]?.any Process.shutdown ∧ world.2 = 4)) =
                some true := by rfl
  obtain ⟨start, first, rest⟩ := Option.bind_eq_some_iff.mp passed
  obtain ⟨⟨finish, count⟩, recalls, checked⟩ := reaches_of_check _ rest
  obtain ⟨raised, counted⟩ := of_decide_eq_true checked
  obtain ⟨process, slot, told⟩ := (Option.any_eq_true _ _).mp raised
  obtain rfl : count = 4 := counted
  have began := reaches_of_run _ first
  obtain ⟨bound, later, there, waits⟩ := shutdown_drains began slot told recalls
  exact ⟨start, finish, process, later, began, recalls, slot, bound, there, waits⟩

end Benri.Worker
