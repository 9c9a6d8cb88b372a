import Benri.Worker.Permits

namespace Benri.Worker

open Benri.Data Benri.Domain Benri.Postgres Benri.Redis Benri.Transition

/-! # No cycle without its loop

A poll, a check or a recovery that is under way is the current cycle of the loop that
started it, in a process that is up.  So when the last process is gone, by whatever way,
nothing is under way.
-/

variable {decoders : Decoders} {state reached : State} {shared after : Shared}
  {process later : Process} {fleet : Fleet}

/-! ## Cycles that go on -/

/-- No cycle is added or lost, and none that was over goes on. -/
structure Fades (before after : List CycleStatus) : Prop where
  length : after.length = before.length
  running : ∀ cycle : Nat, after[cycle]? = some CycleStatus.running →
    before[cycle]? = some .running

theorem Fades.of_eq {before after : List CycleStatus} (same : after = before) :
    Fades before after := by
  subst same
  exact ⟨rfl, fun _ running => running⟩

theorem Fades.trans {before middle after : List CycleStatus} (first : Fades before middle)
    (second : Fades middle after) : Fades before after :=
  ⟨second.length.trans first.length, fun cycle running =>
    first.running cycle (second.running cycle running)⟩

theorem Fades.set {Phase : Type} {status : Phase → CycleStatus} {phases : List Phase}
    {index : Nat} {phase : Phase} (kept : status phase = .running →
      (phases.map status)[index]? = some .running) :
    Fades (phases.map status) ((phases.set index phase).map status) := by
  refine ⟨by simp, fun cycle running => ?_⟩
  rw [List.map_set] at running
  rcases getElem?_set_cases running with ⟨rfl, same⟩ | ⟨_, before⟩
  · exact kept same.symm
  · exact before

/-! ## The cycles of the three kinds -/

def Shared.polls (shared : Shared) : List CycleStatus :=
  shared.cluster.workers.polls.map PollPhase.status

def Shared.checks (shared : Shared) : List CycleStatus :=
  shared.cluster.checks.map CheckPhase.status

def Shared.recovering (shared : Shared) : List CycleStatus :=
  shared.recoveries.map RecoverPhase.status

/-- The cycles of all three kinds fade. -/
structure Quiet (before after : Shared) : Prop where
  polls : Fades before.polls after.polls
  checks : Fades before.checks after.checks
  recovering : Fades before.recovering after.recovering

theorem Quiet.refl (shared : Shared) : Quiet shared shared :=
  ⟨.of_eq rfl, .of_eq rfl, .of_eq rfl⟩

theorem Quiet.trans {middle : Shared} (first : Quiet shared middle) (second : Quiet middle after) :
    Quiet shared after :=
  ⟨first.polls.trans second.polls, first.checks.trans second.checks,
    first.recovering.trans second.recovering⟩

/-- A step of the workers that starts no poll. -/
theorem Effect.polls_fade {event : Event} (effect : Effect decoders state event reached)
    (other : event ≠ .startPoll) :
    Fades (state.polls.map PollPhase.status) (reached.polls.map PollPhase.status) := by
  cases effect with
  | startPoll => exact absurd rfl other
  | poll index fault phase next reached slot effect =>
      have under : phase.status = .running := by cases effect <;> rfl
      have same : reached.polls = state.polls := by cases effect <;> rfl
      simp only [State.setPoll, same]
      exact .set fun _ => by rw [List.getElem?_map, slot, Option.map_some, under]
  | crashPoll index => exact .set (by simp [PollPhase.status])
  | _ => exact .of_eq rfl

theorem ClusterEffect.polls_fade {before after : Cluster} {event : ClusterEvent}
    (effect : ClusterEffect decoders before event after) (other : event ≠ .worker .startPoll) :
    Fades (before.workers.polls.map PollPhase.status)
      (after.workers.polls.map PollPhase.status) := by
  cases effect with
  | worker event workers others stepped =>
      exact (step_effect stepped).polls_fade fun same => other (same ▸ rfl)
  | check event index phase next reached own slot effect => cases effect <;> exact .of_eq rfl
  | startCheck | crashCheck index => exact .of_eq rfl

theorem ClusterEffect.checks_fade {before after : Cluster} {event : ClusterEvent}
    (effect : ClusterEffect decoders before event after) (other : event ≠ .startCheck) :
    Fades (before.checks.map CheckPhase.status) (after.checks.map CheckPhase.status) := by
  cases effect with
  | startCheck => exact absurd rfl other
  | worker event workers others stepped => exact .of_eq rfl
  | check event index phase next reached own slot effect =>
      have under : phase.status = .running := by
        cases effect with
        | failed phase token error origin => rcases origin with rfl | rfl <;> rfl
        | _ => rfl
      have same : reached.checks = before.checks := by cases effect <;> rfl
      simp only [Cluster.setCheck, same]
      exact .set fun _ => by rw [List.getElem?_map, slot, Option.map_some, under]
  | crashCheck index => exact .set nofun

theorem SharedEffect.quiet {event : SharedEvent}
    (effect : SharedEffect decoders shared event after) : Quiet shared after := by
  cases effect with
  | cluster event cluster unasked effect stepped =>
      refine ⟨effect.polls_fade ?_, effect.checks_fade ?_, .of_eq rfl⟩
      · rintro rfl
        cases unasked
      · rintro rfl
        cases unasked
  | recover index fault phase following reached slot effect =>
      have under : phase.status = .running := by cases effect <;> rfl
      have same : reached.polls = shared.polls ∧ reached.checks = shared.checks ∧
          reached.recoveries = shared.recoveries := by cases effect <;> exact ⟨rfl, rfl, rfl⟩
      refine ⟨.of_eq same.1, .of_eq same.2.1, ?_⟩
      simp only [Shared.recovering, Shared.setRecovery, same.2.2]
      exact .set fun _ => by rw [List.getElem?_map, slot, Option.map_some, under]
  | crashRecovery index => exact ⟨.of_eq rfl, .of_eq rfl, .set nofun⟩

/-! ## One kind of cycles, and its loops -/

/-- Each running cycle is the current one of a process that is up. -/
structure Attends (statuses : List CycleStatus) (loop : Process → LoopPhase)
    (processes : List Process) : Prop where
  attended : ∀ cycle : Nat, statuses[cycle]? = some CycleStatus.running →
    ∃ process ∈ processes, process.status = .up ∧ loop process = .cycling cycle
  known : ∀ process ∈ processes, ∀ cycle, loop process = .cycling cycle → cycle < statuses.length

variable {statuses others : List CycleStatus} {loop : Process → LoopPhase}
  {processes : List Process} {index : Nat}

theorem Attends.fade (attends : Attends statuses loop processes) (fades : Fades statuses others) :
    Attends others loop processes :=
  ⟨fun cycle running => attends.attended cycle (fades.running cycle running),
    fun process member cycle current =>
      (attends.known process member cycle current).trans_eq fades.length.symm⟩

/-- A process changes, and keeps to the cycle it has under way. -/
theorem Attends.move (attends : Attends statuses loop processes)
    (slot : processes[index]? = some process)
    (kept : ∀ cycle, loop process = .cycling cycle → statuses[cycle]? = some .running →
      later.status = .up ∧ loop later = .cycling cycle)
    (known : ∀ cycle, loop later = .cycling cycle → cycle < statuses.length) :
    Attends statuses loop (processes.set index later) := by
  refine ⟨fun cycle running => ?_, forall_mem_set attends.known known⟩
  obtain ⟨owner, member, up, current⟩ := attends.attended cycle running
  obtain ⟨place, there⟩ := List.mem_iff_getElem?.mp member
  by_cases same : place = index
  · subst same
    obtain rfl := Option.some.inj (there.symm.trans slot)
    obtain ⟨bound, _⟩ := List.getElem?_eq_some_iff.mp slot
    exact ⟨later, List.mem_set bound later, kept cycle current running⟩
  · refine ⟨owner, List.mem_iff_getElem?.mpr ⟨place, ?_⟩, up, current⟩
    rw [List.getElem?_set_ne (Ne.symm same)]
    exact there

/-- A process changes, but not in this loop. -/
theorem Attends.beside (attends : Attends statuses loop processes)
    (slot : processes[index]? = some process) (same : loop later = loop process)
    (up : later.status = .up) : Attends statuses loop (processes.set index later) := by
  refine attends.move slot (fun cycle current _ => ⟨up, same.trans current⟩) fun cycle current => ?_
  exact attends.known process (List.mem_of_getElem? slot) cycle (same.symm.trans current)

/-- The loop itself takes a step. -/
theorem Attends.drive {cycles : Cycles Shared} {flag : Bool} {of : Shared → List CycleStatus}
    (attends : Attends (of shared) loop processes) (slot : processes[index]? = some process)
    (up : later.status = .up)
    (effect : LoopEffect cycles flag shared (loop process) after (loop later))
    (status : ∀ shared cycle, cycles.status shared cycle = (of shared)[cycle]?)
    (number : ∀ shared, (cycles.start shared).1 = (of shared).length)
    (started : ∀ shared, of (cycles.start shared).2 = of shared ++ [.running]) :
    Attends (of after) loop (processes.set index later) := by
  generalize before : loop process = phase at effect
  generalize next : loop later = following at effect
  -- a loop that is not in a cycle, or whose cycle is over, has none to keep to
  have free : ∀ {shared : Shared}, Attends (of shared) loop processes →
      (∀ cycle, phase = .cycling cycle → (of shared)[cycle]? ≠ some .running) →
      (∀ cycle, following ≠ .cycling cycle) →
      Attends (of shared) loop (processes.set index later) := by
    intro shared attends idle past
    refine attends.move slot (fun cycle current running => ?_) fun cycle current => ?_
    · exact absurd running (idle cycle (before.symm.trans current))
    · exact absurd (next.symm.trans current) (past cycle)
  cases effect with
  | stopped raised => exact free attends nofun nofun
  | settled cycle due past =>
      refine free attends (fun other same running => ?_) nofun
      cases same
      rw [← status, past] at running
      cases running
  | died cycle dead =>
      refine free attends (fun other same running => ?_) nofun
      cases same
      rw [← status, dead] at running
      cases running
  | woke due => exact free attends nofun nofun
  | interrupted due raised => exact free attends nofun nofun
  | started lowered =>
      rw [started]
      have bound : ∀ other ∈ processes, ∀ cycle, loop other = .cycling cycle →
          cycle < (of shared).length + 1 := fun other member cycle current =>
        (attends.known other member cycle current).trans (Nat.lt_succ_self _)
      obtain ⟨inside, _⟩ := List.getElem?_eq_some_iff.mp slot
      refine ⟨fun cycle running => ?_, ?_⟩
      · by_cases old : cycle < (of shared).length
        · rw [List.getElem?_append_left old] at running
          obtain ⟨owner, member, alive, current⟩ := attends.attended cycle running
          obtain ⟨place, there⟩ := List.mem_iff_getElem?.mp member
          have other : place ≠ index := by
            rintro rfl
            rw [Option.some.inj (there.symm.trans slot), before] at current
            cases current
          refine ⟨owner, List.mem_iff_getElem?.mpr ⟨place, ?_⟩, alive, current⟩
          rw [List.getElem?_set_ne (Ne.symm other)]
          exact there
        · have last := (List.getElem?_eq_some_iff.mp running).1
          rw [List.length_append, List.length_singleton] at last
          have same : cycle = (cycles.start shared).1 := by
            rw [number]
            omega
          exact ⟨later, List.mem_set inside later, up, by rw [next, same]⟩
      · rw [List.length_append, List.length_singleton]
        refine forall_mem_set bound fun cycle current => ?_
        rw [next] at current
        cases current
        rw [number]
        exact Nat.lt_succ_self _

theorem Attends.start (attends : Attends statuses loop processes)
    (fresh : ∀ cycle, loop process ≠ .cycling cycle) :
    Attends statuses loop (processes ++ [process]) := by
  refine ⟨fun cycle running => ?_, forall_mem_snoc attends.known fun cycle current => ?_⟩
  · obtain ⟨owner, member, up, current⟩ := attends.attended cycle running
    exact ⟨owner, List.mem_append_left _ member, up, current⟩
  · exact absurd current (fresh cycle)

/-! ## All three kinds -/

structure Attended (shared : Shared) (processes : List Process) : Prop where
  polls : Attends shared.polls Process.poller processes
  checks : Attends shared.checks Process.checker processes
  recovering : Attends shared.recovering Process.recovery processes

theorem Attended.quiet {processes : List Process} (attended : Attended shared processes)
    (quiet : Quiet shared after) : Attended after processes :=
  ⟨attended.polls.fade quiet.polls, attended.checks.fade quiet.checks,
    attended.recovering.fade quiet.recovering⟩

theorem outboxPolls_status (shared : Shared) (cycle : Nat) :
    outboxPolls.status shared cycle = shared.polls[cycle]? := by
  simp [outboxPolls, Shared.polls]

theorem systemChecks_status (shared : Shared) (cycle : Nat) :
    systemChecks.status shared cycle = shared.checks[cycle]? := by
  simp [systemChecks, Shared.checks]

theorem staleRecoveries_status (shared : Shared) (cycle : Nat) :
    staleRecoveries.status shared cycle = shared.recovering[cycle]? := by
  simp [staleRecoveries, Shared.recovering]

/-- A loop's step leaves the cycles of another kind as they are. -/
theorem loopEffect_same {cycles : Cycles Shared} {flag : Bool} {phase following : LoopPhase}
    (of : Shared → List CycleStatus)
    (effect : LoopEffect cycles flag shared phase after following)
    (starts : ∀ shared, of (cycles.start shared).2 = of shared) : of after = of shared := by
  cases effect with
  | started lowered => exact starts shared
  | _ => rfl

theorem crashRuns_polls (runs : List Nat) (state : State) :
    (runs.foldl State.crashRun state).polls = state.polls := by
  induction runs generalizing state with
  | nil => rfl
  | cons index rest ih =>
      rw [List.foldl_cons, ih]
      unfold State.crashRun
      split
      · split <;> rfl
      · rfl

theorem crashPoll_quiet (shared : Shared) (phase : LoopPhase) :
    Quiet shared (shared.crashPoll phase) ∧
      ∀ cycle, phase = .cycling cycle → (shared.crashPoll phase).polls[cycle]? ≠ some .running := by
  unfold Shared.crashPoll
  split
  · rename_i cycle
    split
    · refine ⟨⟨.set nofun, .of_eq rfl, .of_eq rfl⟩, ?_⟩
      rintro other ⟨⟩ running
      simp only [Shared.polls, Shared.withWorkers, State.setPoll, List.map_set] at running
      rcases getElem?_set_cases running with ⟨_, same⟩ | ⟨different, _⟩
      · cases same
      · exact different rfl
    · rename_i idle
      rw [outboxPolls_status] at idle
      refine ⟨.refl _, ?_⟩
      rintro other ⟨⟩
      exact idle
  · rename_i other
    exact ⟨.refl _, fun cycle same => absurd same (other cycle)⟩

theorem crashCheck_quiet (shared : Shared) (phase : LoopPhase) :
    Quiet shared (shared.crashCheck phase) ∧
      ∀ cycle, phase = .cycling cycle →
        (shared.crashCheck phase).checks[cycle]? ≠ some .running := by
  unfold Shared.crashCheck
  split
  · rename_i cycle
    split
    · refine ⟨⟨.of_eq rfl, .set nofun, .of_eq rfl⟩, ?_⟩
      rintro other ⟨⟩ running
      simp only [Shared.checks, Cluster.setCheck, List.map_set] at running
      rcases getElem?_set_cases running with ⟨_, same⟩ | ⟨different, _⟩
      · cases same
      · exact different rfl
    · rename_i idle
      rw [systemChecks_status] at idle
      refine ⟨.refl _, ?_⟩
      rintro other ⟨⟩
      exact idle
  · rename_i other
    exact ⟨.refl _, fun cycle same => absurd same (other cycle)⟩

theorem crashRecovery_quiet (shared : Shared) (phase : LoopPhase) :
    Quiet shared (shared.crashRecovery phase) ∧
      ∀ cycle, phase = .cycling cycle →
        (shared.crashRecovery phase).recovering[cycle]? ≠ some .running := by
  unfold Shared.crashRecovery
  split
  · rename_i cycle
    split
    · refine ⟨⟨.of_eq rfl, .of_eq rfl, .set nofun⟩, ?_⟩
      rintro other ⟨⟩ running
      simp only [Shared.recovering, Shared.setRecovery, List.map_set] at running
      rcases getElem?_set_cases running with ⟨_, same⟩ | ⟨different, _⟩
      · cases same
      · exact different rfl
    · rename_i idle
      rw [staleRecoveries_status] at idle
      refine ⟨.refl _, ?_⟩
      rintro other ⟨⟩
      exact idle
  · rename_i other
    exact ⟨.refl _, fun cycle same => absurd same (other cycle)⟩

/-- A killed process leaves no cycle under way. -/
structure Silenced (process : Process) (shared : Shared) : Prop where
  poll : ∀ cycle, process.poller = .cycling cycle → shared.polls[cycle]? ≠ some .running
  check : ∀ cycle, process.checker = .cycling cycle → shared.checks[cycle]? ≠ some .running
  recovery : ∀ cycle, process.recovery = .cycling cycle →
    shared.recovering[cycle]? ≠ some .running

theorem Shared.crash_quiet (shared : Shared) (process : Process) :
    Quiet shared (shared.crash process) ∧ Silenced process (shared.crash process) := by
  let first := shared.crashRuns (process.consumer.inFlight.map Spawned.run)
  let second := first.crashPoll process.poller
  let third := second.crashRecovery process.recovery
  have runs : Quiet shared first :=
    ⟨.of_eq (congrArg (List.map PollPhase.status) (crashRuns_polls _ _)), .of_eq rfl, .of_eq rfl⟩
  obtain ⟨polls, poll⟩ := crashPoll_quiet first process.poller
  obtain ⟨recoveries, recovery⟩ := crashRecovery_quiet second process.recovery
  obtain ⟨checks, check⟩ := crashCheck_quiet third process.checker
  refine ⟨((runs.trans polls).trans recoveries).trans checks, fun cycle current running => ?_, check,
    fun cycle current running => ?_⟩
  · exact poll cycle current ((recoveries.trans checks).polls.running cycle running)
  · exact recovery cycle current (checks.recovering.running cycle running)

/-! ## Every run of the fleet -/

theorem Attended.step {finish : Fleet} {event : FleetEvent}
    (attended : Attended fleet.shared fleet.processes)
    (effect : FleetEffect decoders fleet event finish) :
    Attended finish.shared finish.processes := by
  cases effect with
  | shared event shared stepped => exact attended.quiet (sharedStep_effect stepped).quiet
  | start workerConcurrency =>
      exact ⟨attended.polls.start nofun, attended.checks.start nofun,
        attended.recovering.start nofun⟩
  | process index event process later after slot up stepped =>
      cases processStep_effect stepped with
      | consumer reached next effect =>
          have same : reached.polls = fleet.shared.cluster.workers.polls := by
            cases effect <;> rfl
          have quiet : Quiet fleet.shared (fleet.shared.withWorkers reached) :=
            ⟨.of_eq (congrArg (List.map PollPhase.status) same), .of_eq rfl, .of_eq rfl⟩
          obtain ⟨polls, checks, recovering⟩ := attended.quiet quiet
          exact ⟨polls.beside slot rfl up, checks.beside slot rfl up,
            recovering.beside slot rfl up⟩
      | poller after next effect =>
          have checks := loopEffect_same Shared.checks effect fun _ => rfl
          have recovering := loopEffect_same Shared.recovering effect fun _ => rfl
          refine ⟨attended.polls.drive slot up effect outboxPolls_status ?_ ?_, ?_, ?_⟩
          · exact fun shared => by simp [outboxPolls, Shared.polls]
          · exact fun shared => by
              simp [outboxPolls, Shared.polls, Shared.withWorkers, PollPhase.status]
          · exact (attended.checks.fade (.of_eq checks)).beside slot rfl up
          · exact (attended.recovering.fade (.of_eq recovering)).beside slot rfl up
      | recovery after next effect =>
          have polls := loopEffect_same Shared.polls effect fun _ => rfl
          have checks := loopEffect_same Shared.checks effect fun _ => rfl
          refine ⟨?_, ?_, attended.recovering.drive slot up effect staleRecoveries_status ?_ ?_⟩
          · exact (attended.polls.fade (.of_eq polls)).beside slot rfl up
          · exact (attended.checks.fade (.of_eq checks)).beside slot rfl up
          · exact fun shared => by simp [staleRecoveries, Shared.recovering]
          · exact fun shared => by simp [staleRecoveries, Shared.recovering, RecoverPhase.status]
      | checker after next effect =>
          have polls := loopEffect_same Shared.polls effect fun _ => rfl
          have recovering := loopEffect_same Shared.recovering effect fun _ => rfl
          refine ⟨?_, attended.checks.drive slot up effect systemChecks_status ?_ ?_, ?_⟩
          · exact (attended.polls.fade (.of_eq polls)).beside slot rfl up
          · exact fun shared => by simp [systemChecks, Shared.checks]
          · exact fun shared => by simp [systemChecks, Shared.checks, CheckPhase.status]
          · exact (attended.recovering.fade (.of_eq recovering)).beside slot rfl up
      | signalled lowered =>
          exact ⟨attended.polls.beside slot rfl up, attended.checks.beside slot rfl up,
            attended.recovering.beside slot rfl up⟩
      | exited raised consumer poller recovery checker =>
          -- a loop that has ended is not in a cycle
          have idle : ∀ {phase : LoopPhase}, phase.ended = true →
              ∀ cycle, phase ≠ .cycling cycle := by
            rintro phase ended cycle rfl
            cases ended
          exact ⟨attended.polls.move slot (fun cycle current => absurd current (idle poller cycle))
              fun cycle current => absurd current (idle poller cycle),
            attended.checks.move slot (fun cycle current => absurd current (idle checker cycle))
              fun cycle current => absurd current (idle checker cycle),
            attended.recovering.move slot
              (fun cycle current => absurd current (idle recovery cycle))
              fun cycle current => absurd current (idle recovery cycle)⟩
      | killed =>
          obtain ⟨quiet, silenced⟩ := fleet.shared.crash_quiet process
          obtain ⟨polls, checks, recovering⟩ := attended.quiet quiet
          have member := List.mem_of_getElem? slot
          exact ⟨polls.move slot
              (fun cycle current running => absurd running (silenced.poll cycle current))
              (polls.known process member),
            checks.move slot
              (fun cycle current running => absurd running (silenced.check cycle current))
              (checks.known process member),
            recovering.move slot
              (fun cycle current running => absurd running (silenced.recovery cycle current))
              (recovering.known process member)⟩

theorem attended_of_reaches {allowed : Fleet → FleetEvent → Prop} {now : Instant}
    (reached : Reaches (fleetStep decoders) allowed (Fleet.initial now) fleet) :
    Attended fleet.shared fleet.processes := by
  have none : ∀ {loop : Process → LoopPhase}, Attends [] loop [] :=
    ⟨fun cycle running => by simp at running, fun _ member => absurd member List.not_mem_nil⟩
  have initially : Attended (Fleet.initial now).shared (Fleet.initial now).processes :=
    ⟨none, none, none⟩
  exact reached.preserves (fun fleet => Attended fleet.shared fleet.processes) initially
    fun attended _ stepped => attended.step (fleetStep_effect stepped)

/-- Whatever goes on belongs to a process that is up: the runs that are not over, and the
polls, checks and recoveries, each as its loop's current cycle.  So when no process is up,
whether they exited or were killed, nothing goes on. -/
theorem fleet_attended {allowed : Fleet → FleetEvent → Prop} {now : Instant}
    (reached : Reaches (fleetStep decoders) allowed (Fleet.initial now) fleet) :
    (∀ cycle : Nat, fleet.shared.polls[cycle]? = some .running →
        ∃ process ∈ fleet.processes, process.status = .up ∧ process.poller = .cycling cycle) ∧
      (∀ cycle : Nat, fleet.shared.checks[cycle]? = some .running →
        ∃ process ∈ fleet.processes, process.status = .up ∧ process.checker = .cycling cycle) ∧
      (∀ cycle : Nat, fleet.shared.recovering[cycle]? = some .running →
        ∃ process ∈ fleet.processes, process.status = .up ∧ process.recovery = .cycling cycle) ∧
      ((∀ process ∈ fleet.processes, process.status ≠ .up) →
        .running ∉ fleet.shared.polls ∧ .running ∉ fleet.shared.checks ∧
          .running ∉ fleet.shared.recovering ∧ ∀ run ∈ fleet.runs, run.live = false) := by
  have attended := attended_of_reaches reached
  have owned := owned_of_reaches reached
  refine ⟨attended.polls.attended, attended.checks.attended, attended.recovering.attended,
    fun gone => ?_⟩
  have idle : ∀ {statuses : List CycleStatus} {loop : Process → LoopPhase},
      Attends statuses loop fleet.processes → CycleStatus.running ∉ statuses := by
    intro statuses loop attends member
    obtain ⟨cycle, running⟩ := List.mem_iff_getElem?.mp member
    obtain ⟨process, inside, up, _⟩ := attends.attended cycle running
    exact gone process inside up
  refine ⟨idle attended.polls, idle attended.checks, idle attended.recovering, fun run member => ?_⟩
  cases live : run.live with
  | false => rfl
  | true =>
      obtain ⟨index, slot⟩ := List.mem_iff_getElem?.mp member
      obtain ⟨process, inside, working⟩ := mem_gather.mp (owned.owned index run slot live)
      rw [Process.working, if_neg (gone process inside)] at working
      cases working

/-- A process is killed while its recovery holds the lock. -/
theorem fleet_attended_killed : ∃ fleet,
    Reaches (fleetStep decodesNothing) Anything (Fleet.initial 0) fleet ∧
      fleet.shared.recoveryLock.isSome ∧ .running ∉ fleet.shared.recovering := by
  have passed : ((run (fleetStep decodesNothing) Anything (Fleet.initial 0)
      [.start 1, .process 0 (.recovery .check), .shared (.recover 0 .none),
        .process 0 .kill]).map fun fleet =>
          decide ((∀ process ∈ fleet.processes, process.status ≠ .up) ∧
            fleet.shared.recoveryLock.isSome)) = some true := by rfl
  obtain ⟨fleet, ran, checked⟩ := reaches_of_check _ passed
  obtain ⟨gone, held⟩ := of_decide_eq_true checked
  exact ⟨fleet, ran, held, ((fleet_attended ran).2.2.2 gone).2.2.1⟩

end Benri.Worker
