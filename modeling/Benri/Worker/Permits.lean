import Benri.Worker.FleetEffect

namespace Benri.Worker

open Benri.Data Benri.Domain Benri.Postgres Benri.Redis Benri.Transition

/-! # What a worker process may run at a time

A permit is taken before an id is popped and given back when the run of the task is
over, or when the pop brought nothing.  So the runs a process has going never outnumber
its permits, and no run goes on that no process looks after.
-/

variable {decoders : Decoders} {state reached : State} {shared after : Shared}
  {consumer next : TaskConsumerLoop} {process later : Process} {fleet : Fleet}

/-! ## The permits of one process -/

/-- The run of an entry whose future is not over. -/
def Spawned.working (entry : Spawned) : List Nat := if entry.done then [] else [entry.run]

def TaskConsumerLoop.working (consumer : TaskConsumerLoop) : List Nat :=
  gather Spawned.working consumer.inFlight

/-- The permit the loop itself holds while it pops. -/
def TaskConsumerLoop.held (consumer : TaskConsumerLoop) : Nat :=
  if consumer.phase = .popping then 1 else 0

/-- Where the permits are: in the semaphore, with the loop, or with a future. -/
def TaskConsumerLoop.balance (consumer : TaskConsumerLoop) : Nat :=
  consumer.permits + consumer.held + consumer.working.length

theorem gather_reaped (entries : List Spawned) :
    gather Spawned.working (entries.filter fun entry => !entry.done) =
      gather Spawned.working entries := by
  induction entries with
  | nil => rfl
  | cons entry rest ih =>
      cases past : entry.done with
      | true =>
          rw [List.filter_cons_of_neg (by simp [past]), ih]
          simp [gather, Spawned.working, past]
      | false =>
          rw [List.filter_cons_of_pos (by simp [past])]
          simp only [gather, List.flatMap_cons] at ih ⊢
          rw [ih]

/-- No step of the loop makes or loses a permit. -/
theorem ConsumerEffect.balance {shutdown : Bool}
    (effect : ConsumerEffect shutdown state consumer reached next) :
    next.balance = consumer.balance := by
  unfold TaskConsumerLoop.balance TaskConsumerLoop.held TaskConsumerLoop.working
  cases effect with
  | checked head =>
      cases shutdown <;> simp [head]
  | acquired ready left =>
      simp only [ready, if_true, reduceCtorEq, if_false]
      omega
  | interrupted raised ready => simp [ready]
  | cancelled raised ready queue perhaps =>
      simp only [ready, if_true, reduceCtorEq, if_false]
  | spawned ready id rest head =>
      simp only [ready, if_true, reduceCtorEq, if_false, gather_append, gather_singleton,
        Spawned.working, List.length_append, List.length_singleton, Bool.false_eq_true]
      omega
  | unserved ready due queue perhaps =>
      simp only [ready, if_true, reduceCtorEq, if_false]
  | woke due asleep => simp [asleep]
  | reaped ready => simp [ready, gather_reaped]
  | released place index run entry slot ended =>
      have before := (gather_perm Spawned.working entry).length_eq
      have rewritten := (gather_set_perm Spawned.working ⟨index, true⟩ entry).length_eq
      simp only [List.length_append, Spawned.working, Bool.false_eq_true, if_false, if_true,
        List.length_singleton, List.length_nil] at before rewritten
      rw [before, rewritten]
      dsimp only
      omega
  | joined place index ready entry =>
      have before := (gather_perm Spawned.working entry).length_eq
      simp only [List.length_append, Spawned.working, if_true, List.length_nil, others] at before
      simp only [ready, reduceCtorEq, if_false]
      rw [before]
      omega
  | drained ready empty => simp [ready]

/-! ## Runs that go on -/

/-- No run is added, and none that was over goes on. -/
structure Wanes (before after : State) : Prop where
  length : after.runs.length = before.runs.length
  live : ∀ (index : Nat) (run : Run), after.runs[index]? = some run → run.live = true →
    ∃ old : Run, before.runs[index]? = some old ∧ old.live = true

theorem Wanes.refl (state : State) : Wanes state state :=
  ⟨rfl, fun _ run slot live => ⟨run, slot, live⟩⟩

theorem Wanes.of_runs (same : reached.runs = state.runs) : Wanes state reached := by
  refine ⟨by rw [same], fun index run slot live => ⟨run, ?_, live⟩⟩
  rwa [same] at slot

theorem Wanes.trans {middle : State} (first : Wanes state middle) (second : Wanes middle reached) :
    Wanes state reached := by
  refine ⟨second.length.trans first.length, fun index run slot live => ?_⟩
  obtain ⟨old, there, alive⟩ := second.live index run slot live
  exact first.live index old there alive

theorem Wanes.setRun {index : Nat} {old : Run} (slot : state.runs[index]? = some old) (new : Run)
    (live : new.live = true → old.live = true) : Wanes state (state.setRun index new) := by
  refine ⟨List.length_set, fun place run found alive => ?_⟩
  rcases getElem?_set_cases found with ⟨rfl, rfl⟩ | ⟨_, before⟩
  · exact ⟨old, slot, live alive⟩
  · exact ⟨run, before, alive⟩

theorem Effect.wanes {before after : State} {event : Event}
    (effect : Effect decoders before event after) (other : ∀ fault, event ≠ .pop fault) :
    Wanes before after := by
  cases effect with
  | popped fault id rest head => exact absurd rfl (other fault)
  | popFailed fault id rest queue head perhaps => exact absurd rfl (other fault)
  | poll index fault phase next reached slot effect => cases effect <;> exact .of_runs rfl
  | dispatched index fault id task phase slot row running routed =>
      exact .setRun slot _ fun _ => rfl
  | skipped index fault id slot => exact .setRun slot _ fun _ => rfl
  | handled index event id task metadata since result slot ending =>
      exact .setRun slot _ fun _ => rfl
  | written index fault id outcome tasks slot perhaps =>
      have unchanged : ({ before with tasks } : State).runs[index]? = some ⟨id, .write outcome⟩ :=
        slot
      have kept : Wanes before { before with tasks } := .of_runs rfl
      exact kept.trans (.setRun unchanged _ fun _ => rfl)
  | crashRun index run slot => exact .setRun slot _ nofun
  | _ => exact .of_runs rfl

theorem ClusterEffect.wanes {before reached : Cluster} {event : ClusterEvent}
    (effect : ClusterEffect decoders before event reached)
    (other : ∀ fault, event ≠ .worker (.pop fault)) : Wanes before.workers reached.workers := by
  cases effect with
  | worker event workers others stepped =>
      exact (step_effect stepped).wanes fun fault same => other fault (same ▸ rfl)
  | check event index phase next reached own slot effect => cases effect <;> exact .of_runs rfl
  | startCheck | crashCheck index => exact .of_runs rfl

theorem SharedEffect.wanes {event : SharedEvent}
    (effect : SharedEffect decoders shared event after) :
    Wanes shared.cluster.workers after.cluster.workers := by
  cases effect with
  | cluster event cluster unasked effect stepped =>
      refine effect.wanes fun fault same => ?_
      rw [same] at unasked
      cases unasked
  | recover index fault phase following reached slot effect =>
      cases effect <;> exact .of_runs rfl
  | crashRecovery index => exact .refl _

/-! ## What dies with a process -/

theorem State.crashRun_wanes (state : State) (index : Nat) : Wanes state (state.crashRun index) := by
  unfold State.crashRun
  split
  · split
    · exact .setRun ‹_› _ nofun
    · exact .refl _
  · exact .refl _

theorem State.crashRun_over (state : State) (index : Nat) {run : Run}
    (slot : (state.crashRun index).runs[index]? = some run) : run.live = false := by
  unfold State.crashRun at slot
  split at slot
  · rename_i old found
    split at slot
    · rcases getElem?_set_cases slot with ⟨_, rfl⟩ | ⟨different, _⟩
      · rfl
      · exact absurd rfl different
    · rename_i past
      rw [Option.some.inj (slot.symm.trans found)]
      exact Bool.eq_false_iff.mpr past
  · rename_i missing
    rw [missing] at slot
    cases slot

theorem crashAll_wanes (runs : List Nat) (state : State) :
    Wanes state (runs.foldl State.crashRun state) := by
  induction runs generalizing state with
  | nil => exact .refl _
  | cons index rest ih => exact (state.crashRun_wanes index).trans (ih _)

theorem crashAll_over {runs : List Nat} {index : Nat} (member : index ∈ runs) {run : Run}
    (slot : (runs.foldl State.crashRun state).runs[index]? = some run) : run.live = false := by
  induction runs generalizing state with
  | nil => cases member
  | cons first rest ih =>
      rcases List.mem_cons.mp member with rfl | member
      · cases live : run.live with
        | false => rfl
        | true =>
            obtain ⟨old, there, alive⟩ := (crashAll_wanes rest _).live index run slot live
            rw [state.crashRun_over index there] at alive
            cases alive
      · exact ih member slot

theorem Shared.crash_runs (shared : Shared) (process : Process) :
    (shared.crash process).cluster.workers.runs =
      ((process.consumer.inFlight.map Spawned.run).foldl State.crashRun
        shared.cluster.workers).runs := by
  have poll : ∀ (shared : Shared) (phase : LoopPhase),
      (shared.crashPoll phase).cluster.workers.runs = shared.cluster.workers.runs := by
    intro shared phase
    unfold Shared.crashPoll
    split
    · split <;> rfl
    · rfl
  have recovery : ∀ (shared : Shared) (phase : LoopPhase),
      (shared.crashRecovery phase).cluster.workers.runs = shared.cluster.workers.runs := by
    intro shared phase
    unfold Shared.crashRecovery
    split
    · split <;> rfl
    · rfl
  have check : ∀ (shared : Shared) (phase : LoopPhase),
      (shared.crashCheck phase).cluster.workers.runs = shared.cluster.workers.runs := by
    intro shared phase
    unfold Shared.crashCheck
    split
    · split <;> rfl
    · rfl
  rw [Shared.crash, check, recovery, poll]
  rfl

/-! ## Every run is looked after -/

/-- The runs that the futures of a process wait for. -/
def Process.working (process : Process) : List Nat :=
  if process.status = .up then process.consumer.working else []

def Fleet.working (fleet : Fleet) : List Nat := gather Process.working fleet.processes

def Fleet.runs (fleet : Fleet) : List Run := fleet.shared.cluster.workers.runs

structure Owned (fleet : Fleet) : Prop where
  balanced : ∀ process ∈ fleet.processes,
    process.consumer.balance = process.workerConcurrency
  owned : ∀ (index : Nat) (run : Run), fleet.runs[index]? = some run → run.live = true →
    index ∈ fleet.working
  bounded : ∀ process ∈ fleet.processes, ∀ entry ∈ process.consumer.inFlight,
    entry.run < fleet.runs.length
  returned : ∀ process ∈ fleet.processes, process.consumer.phase = .returned →
    process.consumer.inFlight = []

theorem Owned.initial (now : Instant) : Owned (Fleet.initial now) := by
  have none : ∀ process, process ∉ (Fleet.initial now).processes := fun _ => List.not_mem_nil
  refine ⟨fun _ member => absurd member (none _), fun index run slot => ?_,
    fun _ member => absurd member (none _), fun _ member => absurd member (none _)⟩
  simp [Fleet.runs, Fleet.initial, Shared.initial, Cluster.initial, State.initial] at slot

/-- What is shared goes on, and no process moves. -/
theorem Owned.wane (owned : Owned fleet)
    (wanes : Wanes fleet.shared.cluster.workers after.cluster.workers) :
    Owned { fleet with shared := after } := by
  refine ⟨owned.balanced, fun index run slot live => ?_, fun process member entry inside => ?_,
    owned.returned⟩
  · obtain ⟨old, there, alive⟩ := wanes.live index run slot live
    exact owned.owned index old there alive
  · exact (owned.bounded process member entry inside).trans_eq wanes.length.symm

/-- A process moves and goes on looking after the runs it looked after, and the new ones. -/
theorem Owned.move (owned : Owned fleet) {index : Nat}
    (slot : fleet.processes[index]? = some process)
    (balanced : later.consumer.balance = later.workerConcurrency)
    (more : fleet.runs.length ≤ after.cluster.workers.runs.length)
    (bounded : ∀ entry ∈ later.consumer.inFlight, entry.run < after.cluster.workers.runs.length)
    (returned : later.consumer.phase = .returned → later.consumer.inFlight = [])
    (kept : ∀ (place : Nat) (run : Run), after.cluster.workers.runs[place]? = some run →
      run.live = true → place ∈ later.working ∨
        place ∉ process.working ∧ ∃ old, fleet.runs[place]? = some old ∧ old.live = true) :
    Owned ⟨after, fleet.processes.set index later⟩ := by
  refine ⟨forall_mem_set owned.balanced balanced, fun place run found live => ?_, ?_,
    forall_mem_set owned.returned returned⟩
  · have rewritten := gather_set_perm Process.working later slot
    rcases kept place run found live with mine | ⟨other, old, there, alive⟩
    · exact rewritten.mem_iff.mpr (List.mem_append_left _ mine)
    · have before := (gather_perm Process.working slot).mem_iff.mp
        (owned.owned place old there alive)
      exact rewritten.mem_iff.mpr
        (List.mem_append_right _ ((List.mem_append.mp before).resolve_left other))
  · refine forall_mem_set (fun other member entry inside => ?_) bounded
    exact (owned.bounded other member entry inside).trans_le more

/-- The loop adds a run together with the entry that looks after it. -/
theorem ConsumerEffect.runs {shutdown : Bool}
    (effect : ConsumerEffect shutdown state consumer reached next) :
    reached.runs = state.runs ∨ ∃ id, reached.runs = state.runs ++ [⟨id, .fetch⟩] ∧
      next.inFlight = consumer.inFlight ++ [⟨state.runs.length, false⟩] := by
  cases effect with
  | spawned ready id rest head => exact .inr ⟨id, rfl, rfl⟩
  | _ => exact .inl rfl

theorem mem_working {place : Nat} :
    place ∈ consumer.working ↔ ∃ entry ∈ consumer.inFlight, entry.done = false ∧
      entry.run = place := by
  simp only [TaskConsumerLoop.working, mem_gather]
  refine exists_congr fun entry => and_congr_right fun _ => ?_
  cases past : entry.done <;> simp [Spawned.working, past, eq_comm]

/-- The loop lets go of a run only when the run is over. -/
theorem ConsumerEffect.working {shutdown : Bool}
    (effect : ConsumerEffect shutdown state consumer reached next) {place : Nat}
    (mine : place ∈ consumer.working) :
    place ∈ next.working ∨ ∃ run, state.runs[place]? = some run ∧ run.live = false := by
  have kept : ∀ {after : TaskConsumerLoop}, after.inFlight = consumer.inFlight →
      place ∈ after.working := by
    intro after same
    rwa [TaskConsumerLoop.working, same]
  cases effect with
  | spawned ready id rest head =>
      left
      simp only [TaskConsumerLoop.working, gather_append, List.mem_append]
      exact .inl mine
  | reaped ready =>
      left
      simp only [TaskConsumerLoop.working, gather_reaped]
      exact mine
  | released position index run entry slot ended =>
      have before := (gather_perm Spawned.working entry).mem_iff.mp mine
      have after := (gather_set_perm Spawned.working ⟨index, true⟩ entry).mem_iff (a := place)
      rcases List.mem_append.mp before with own | other
      · have same : place = index := by simpa [Spawned.working] using own
        exact .inr ⟨run, same ▸ slot, ended⟩
      · exact .inl (after.mpr (List.mem_append_right _ other))
  | joined position index ready entry =>
      have before := (gather_perm Spawned.working entry).mem_iff.mp mine
      rcases List.mem_append.mp before with own | other
      · simp [Spawned.working] at own
      · exact .inl other
  | _ => exact .inl (kept rfl)

theorem ConsumerEffect.bounded {shutdown : Bool}
    (effect : ConsumerEffect shutdown state consumer reached next)
    (before : ∀ entry ∈ consumer.inFlight, entry.run < state.runs.length) :
    ∀ entry ∈ next.inFlight, entry.run < reached.runs.length := by
  cases effect with
  | spawned ready id rest head =>
      simp only [List.length_append, List.length_singleton]
      exact forall_mem_snoc (fun entry member => (before entry member).trans (Nat.lt_succ_self _))
        (Nat.lt_succ_self _)
  | reaped ready => exact fun entry member => before entry (List.mem_of_mem_filter member)
  | released place index run entry slot ended =>
      have there := before _ (List.mem_of_getElem? entry)
      exact forall_mem_set before there
  | joined place index ready entry =>
      exact fun other member => before other (List.mem_of_mem_eraseIdx member)
  | _ => exact before

theorem ConsumerEffect.returned {shutdown : Bool}
    (effect : ConsumerEffect shutdown state consumer reached next)
    (before : consumer.phase = .returned → consumer.inFlight = []) :
    next.phase = .returned → next.inFlight = [] := by
  cases effect with
  | checked head => cases shutdown <;> simp
  | released place index run entry slot ended =>
      intro returned
      rw [before returned] at entry
      simp at entry
  | joined place index ready entry =>
      intro returned
      rw [ready] at returned
      cases returned
  | drained ready empty => exact fun _ => empty
  | _ => nofun

theorem Owned.consume (owned : Owned fleet) {index : Nat}
    (slot : fleet.processes[index]? = some process) (up : process.status = .up)
    (effect : ConsumerEffect process.shutdown fleet.shared.cluster.workers process.consumer
      reached next) :
    Owned ⟨fleet.shared.withWorkers reached,
      fleet.processes.set index { process with consumer := next }⟩ := by
  have member := List.mem_of_getElem? slot
  have looked : Process.working { process with consumer := next } = next.working := if_pos up
  have before : process.working = process.consumer.working := if_pos up
  have more : fleet.runs.length ≤ reached.runs.length := by
    rcases effect.runs with same | ⟨id, same, _⟩
    · exact (congrArg List.length same).ge
    · rw [same, List.length_append]
      exact Nat.le_add_right _ _
  refine owned.move slot (effect.balance.trans (owned.balanced process member)) more
    (effect.bounded (owned.bounded process member))
    (effect.returned (owned.returned process member)) fun place run found live => ?_
  rw [looked, before]
  by_cases mine : place ∈ next.working
  · exact .inl mine
  have there : fleet.runs[place]? = some run := by
    rcases effect.runs with same | ⟨id, same, entries⟩
    · exact (congrArg (·[place]?) same).symm.trans found
    · -- a new run is the loop's own
      have other : place ≠ fleet.runs.length := by
        rintro rfl
        refine mine (mem_working.mpr ⟨⟨fleet.runs.length, false⟩, ?_, rfl, rfl⟩)
        rw [entries]
        exact List.mem_append_right _ (List.mem_singleton_self _)
      have shown : (fleet.runs ++ [(⟨id, .fetch⟩ : Run)])[place]? = some run :=
        (congrArg (·[place]?) same).symm.trans found
      have inside := (List.getElem?_eq_some_iff.mp shown).1
      rw [List.length_append, List.length_singleton] at inside
      rwa [List.getElem?_append_left (by omega)] at shown
  refine .inr ⟨fun own => ?_, run, there, live⟩
  rcases effect.working own with still | ⟨other, shown, past⟩
  · exact mine still
  · rw [Option.some.inj (shown.symm.trans there), live] at past
    cases past

theorem loopEffect_runs {cycles : Cycles Shared} {flag : Bool} {phase following : LoopPhase}
    (effect : LoopEffect cycles flag shared phase after following)
    (starts : ∀ shared : Shared, (cycles.start shared).2.cluster.workers.runs =
      shared.cluster.workers.runs) :
    after.cluster.workers.runs = shared.cluster.workers.runs := by
  cases effect with
  | started lowered => exact starts _
  | _ => rfl

/-- A process changes without its consumer, and no run does. -/
theorem Owned.aside (owned : Owned fleet) {index : Nat}
    (slot : fleet.processes[index]? = some process) (consumer : later.consumer = process.consumer)
    (concurrency : later.workerConcurrency = process.workerConcurrency)
    (same : after.cluster.workers.runs = fleet.runs)
    (looked : process.working ⊆ later.working) :
    Owned ⟨after, fleet.processes.set index later⟩ := by
  have member := List.mem_of_getElem? slot
  refine owned.move slot ?_ (congrArg List.length same).ge ?_ ?_ fun place run found live => ?_
  · rw [consumer, concurrency]
    exact owned.balanced process member
  · rw [consumer, same]
    exact owned.bounded process member
  · rw [consumer]
    exact owned.returned process member
  · rw [same] at found
    by_cases mine : place ∈ process.working
    · exact .inl (looked mine)
    · exact .inr ⟨mine, run, found, live⟩

theorem Owned.kill (owned : Owned fleet) {index : Nat}
    (slot : fleet.processes[index]? = some process) (up : process.status = .up) :
    Owned ⟨fleet.shared.crash process,
      fleet.processes.set index { process with status := .killed }⟩ := by
  have member := List.mem_of_getElem? slot
  have runs := fleet.shared.crash_runs process
  have wanes := crashAll_wanes (process.consumer.inFlight.map Spawned.run)
    fleet.shared.cluster.workers
  have length : (fleet.shared.crash process).cluster.workers.runs.length = fleet.runs.length := by
    rw [runs]
    exact wanes.length
  refine owned.move slot (owned.balanced process member) length.ge
    (fun entry inside => (owned.bounded process member entry inside).trans_eq length.symm)
    (owned.returned process member) fun place run found live => ?_
  rw [runs] at found
  refine .inr ⟨fun own => ?_, wanes.live place run found live⟩
  rw [show process.working = process.consumer.working from if_pos up, mem_working] at own
  obtain ⟨entry, inside, _, rfl⟩ := own
  rw [crashAll_over (List.mem_map_of_mem inside) found] at live
  cases live

theorem Owned.step (owned : Owned fleet) {event : FleetEvent} {finish : Fleet}
    (effect : FleetEffect decoders fleet event finish) : Owned finish := by
  cases effect with
  | shared event shared stepped => exact owned.wane (sharedStep_effect stepped).wanes
  | start workerConcurrency =>
      refine ⟨forall_mem_snoc owned.balanced rfl, fun index run slot live => ?_,
        forall_mem_snoc owned.bounded nofun, forall_mem_snoc owned.returned fun _ => rfl⟩
      simp only [Fleet.working, gather_append, List.mem_append]
      exact .inl (owned.owned index run slot live)
  | process index event process later after slot up stepped =>
      cases processStep_effect stepped with
      | consumer reached next effect => exact owned.consume slot up effect
      | poller after next effect =>
          exact owned.aside slot rfl rfl (loopEffect_runs effect fun _ => rfl) fun _ mine => mine
      | recovery after next effect =>
          exact owned.aside slot rfl rfl (loopEffect_runs effect fun _ => rfl) fun _ mine => mine
      | checker after next effect =>
          exact owned.aside slot rfl rfl (loopEffect_runs effect fun _ => rfl) fun _ mine => mine
      | signalled lowered => exact owned.aside slot rfl rfl rfl fun _ mine => mine
      | exited raised consumer poller recovery checker =>
          refine owned.aside slot rfl rfl rfl fun place mine => ?_
          have empty := owned.returned process (List.mem_of_getElem? slot) consumer
          rw [show process.working = process.consumer.working from if_pos up,
            TaskConsumerLoop.working, empty] at mine
          cases mine
      | killed => exact owned.kill slot up

theorem owned_of_reaches {allowed : Fleet → FleetEvent → Prop} {now : Instant}
    (reached : Reaches (fleetStep decoders) allowed (Fleet.initial now) fleet) : Owned fleet :=
  reached.preserves Owned (.initial now) fun owned _ stepped =>
    owned.step (fleetStep_effect stepped)

/-! ## How many at a time -/

/-- The runs that are not over, by their place. -/
def Fleet.liveRuns (fleet : Fleet) : List Nat :=
  (List.range fleet.runs.length).filter fun index => fleet.runs[index]?.any Run.live

/-- The limits of the processes that are up. -/
def Fleet.concurrency (fleet : Fleet) : Nat :=
  ((fleet.processes.filter fun process => decide (process.status = .up)).map
    Process.workerConcurrency).sum

theorem length_working (owned : Owned fleet) : fleet.working.length ≤ fleet.concurrency := by
  have each : ∀ processes : List Process,
      (∀ process ∈ processes, process.consumer.balance = process.workerConcurrency) →
      (gather Process.working processes).length ≤ ((processes.filter fun process =>
        decide (process.status = .up)).map Process.workerConcurrency).sum := by
    intro processes balanced
    induction processes with
    | nil => exact le_rfl
    | cons process rest ih =>
        have fewer := ih fun other member => balanced other (List.mem_cons_of_mem _ member)
        have own := balanced process List.mem_cons_self
        simp only [gather, List.flatMap_cons, List.length_append] at fewer ⊢
        by_cases up : process.status = .up
        · rw [List.filter_cons_of_pos (by simpa using up), List.map_cons, List.sum_cons]
          rw [Process.working, if_pos up]
          unfold TaskConsumerLoop.balance at own
          omega
        · rw [List.filter_cons_of_neg (by simpa using up), Process.working, if_neg up,
            List.length_nil]
          omega
  exact each fleet.processes owned.balanced

/-- In every state of every run: the permits of each process are in its semaphore, with its
loop or with the futures of its runs, none made and none lost; each run that is not over is
looked after by a process that is up; and so no more go on at a time than the processes that
are up may run together. -/
theorem fleet_concurrency {allowed : Fleet → FleetEvent → Prop} {now : Instant}
    (reached : Reaches (fleetStep decoders) allowed (Fleet.initial now) fleet) :
    (∀ process ∈ fleet.processes, process.consumer.permits + process.consumer.held +
        process.consumer.working.length = process.workerConcurrency) ∧
      (∀ index ∈ fleet.liveRuns, ∃ process ∈ fleet.processes, process.status = .up ∧
        index ∈ process.consumer.working) ∧
      fleet.liveRuns.length ≤ fleet.concurrency := by
  have owned := owned_of_reaches reached
  have looked : fleet.liveRuns ⊆ fleet.working := by
    intro index member
    obtain ⟨run, slot, live⟩ := (Option.any_eq_true _ _).mp (List.mem_filter.mp member).2
    exact owned.owned index run slot live
  refine ⟨owned.balanced, fun index member => ?_, ?_⟩
  · obtain ⟨process, inside, working⟩ := mem_gather.mp (looked member)
    simp only [Process.working] at working
    split at working
    · exact ⟨process, inside, ‹_›, working⟩
    · cases working
  · have distinct : fleet.liveRuns.Nodup := List.nodup_range.filter _
    exact (List.subperm_of_subset distinct looked).length_le.trans (length_working owned)

/-- A process that may run one task polls, pops and runs it. -/
theorem fleet_concurrency_one : ∃ fleet,
    Reaches (fleetStep decodesNothing) Anything (Fleet.initial 0) fleet ∧
      fleet.liveRuns = [0] ∧ fleet.concurrency = 1 ∧
      fleet.liveRuns.length ≤ fleet.concurrency := by
  have passed : ((run (fleetStep decodesNothing) Anything (Fleet.initial 0)
      ([.shared (.cluster (.worker (.create plainTask))), .start 0,
        .process 0 (.poller .check)] ++
        List.replicate 5 (.shared (.cluster (.worker (.poll 0 .none)))) ++
        [.process 0 (.consumer .check), .process 0 (.consumer .acquire),
          .process 0 (.consumer (.pop .none))])).map fun fleet =>
            decide (fleet.liveRuns = [0] ∧ fleet.concurrency = 1)) = some true := by rfl
  obtain ⟨fleet, ran, checked⟩ := reaches_of_check _ passed
  obtain ⟨live, limit⟩ := of_decide_eq_true checked
  exact ⟨fleet, ran, live, limit, (fleet_concurrency ran).2.2⟩

end Benri.Worker
