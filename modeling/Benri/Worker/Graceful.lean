import Benri.Worker.Shutdown

namespace Benri.Worker

open Benri.Data Benri.Domain Benri.Postgres Benri.Redis Benri.Transition

/-! # What a process leaves behind

The runs that a process has launched are kept in a journal, and so are the runs that
panicked.  A process that drains before it exits leaves no run of its own halfway; only a
process that is killed does.
-/

variable {decoders : Decoders} {state reached : State} {shared after : Shared}
  {consumer next : TaskConsumerLoop} {process later : Process} {fleet finish : Fleet}
  {allowed : Fleet → FleetEvent → Prop} {now : Instant}

structure Journal where
  /-- The process and the run. -/
  launched : List (Nat × Nat)
  panicked : List Nat
deriving DecidableEq

def ConsumerEvent.launches (queue : List TaskId) : ConsumerEvent → Bool
  | .pop .none => !queue.isEmpty
  | _ => false

/-- The run that a step makes panic. -/
def SharedEvent.panics : SharedEvent → Option Nat
  | .cluster (.worker (.crashRun index)) => some index
  | _ => none

def noteFleet (fleet : Fleet) (event : FleetEvent) (journal : Journal) : Journal :=
  match event with
  | .process index (.consumer event) =>
      if event.launches fleet.shared.cluster.workers.queue then
        { journal with launched := journal.launched ++ [(index, fleet.runs.length)] }
      else journal
  | .shared event => { journal with panicked := journal.panicked ++ event.panics.toList }
  | .process _ _ | .start _ => journal

/-! ## Steps that launch, and steps that crash -/

/-- A step of the consumer adds the run it launches, or none. -/
theorem consumerStep_launch {shutdown : Bool} {event : ConsumerEvent}
    (stepped : consumerStep shutdown state consumer event = some (reached, next)) :
    (event.launches state.queue = true ∧ ∃ id, reached.runs = state.runs ++ [⟨id, .fetch⟩] ∧
        next.inFlight = consumer.inFlight ++ [⟨state.runs.length, false⟩]) ∨
      event.launches state.queue = false ∧ reached.runs = state.runs ∧
        ∀ entry ∈ next.inFlight, ∃ old ∈ consumer.inFlight, old.run = entry.run := by
  have kept : ∀ entry ∈ consumer.inFlight, ∃ old ∈ consumer.inFlight, old.run = entry.run :=
    fun entry member => ⟨entry, member, rfl⟩
  cases event with
  | pop fault =>
      simp only [consumerStep] at stepped
      split at stepped
      · unfold popped consumerPop at stepped
        cases fault with
        | none =>
            cases queue : state.queue <;> simp only [attempt_none, queue, List.head?] at stepped
            · cases stepped; exact .inr ⟨rfl, rfl, kept⟩
            · cases stepped; exact .inl ⟨rfl, _, rfl, rfl⟩
        | error applied message =>
            cases stepped
            cases applied <;> exact .inr ⟨rfl, rfl, kept⟩
      · contradiction
  | release place =>
      simp only [consumerStep] at stepped
      split at stepped
      · rename_i index entry
        have member := List.mem_of_getElem? entry
        split at stepped
        · cases stepped; exact .inr ⟨rfl, rfl, forall_mem_set kept ⟨_, member, rfl⟩⟩
        · contradiction
      · contradiction
  | joinNext place =>
      simp only [consumerStep] at stepped
      split at stepped
      · cases stepped
        exact .inr ⟨rfl, rfl, fun entry member => kept entry (List.mem_of_mem_eraseIdx member)⟩
      · contradiction
  | reap =>
      simp only [consumerStep] at stepped
      split at stepped
      · cases stepped
        exact .inr ⟨rfl, rfl, fun entry member => kept entry (List.mem_of_mem_filter member)⟩
      · contradiction
  | interrupt applied =>
      simp only [consumerStep] at stepped
      split at stepped
      · contradiction
      · split at stepped
        · cases stepped; exact .inr ⟨rfl, rfl, kept⟩
        · cases stepped; exact .inr ⟨rfl, rfl, kept⟩
        · contradiction
  | wake =>
      simp only [consumerStep] at stepped
      split at stepped
      · split at stepped
        · cases stepped; exact .inr ⟨rfl, rfl, kept⟩
        · contradiction
      · contradiction
  | check | acquire | drained =>
      simp only [consumerStep] at stepped
      split at stepped
      · cases stepped; exact .inr ⟨rfl, rfl, kept⟩
      · contradiction

/-- A run that was not crashed is only by an event that says so. -/
theorem Effect.crashes {event : Event} (effect : Effect decoders state event reached) {index : Nat}
    {run : Run} (slot : reached.runs[index]? = some run) (crashed : run.phase = .crashed) :
    event = .crashRun index ∨ ∃ old, state.runs[index]? = some old ∧ old.phase = .crashed := by
  have rewritten : ∀ {place : Nat} {new : Run}, new.phase ≠ .crashed →
      (state.runs.set place new)[index]? = some run →
      ∃ old, state.runs[index]? = some old ∧ old.phase = .crashed := by
    intro place new other found
    rcases getElem?_set_cases found with ⟨_, rfl⟩ | ⟨_, before⟩
    · exact absurd crashed other
    · exact ⟨run, before, crashed⟩
  cases effect with
  | popped fault id rest head =>
      right
      simp only [List.getElem?_append] at slot
      split at slot
      · exact ⟨run, slot, crashed⟩
      · obtain rfl := List.mem_singleton.mp (List.mem_of_getElem? slot)
        cases crashed
  | poll place fault phase next reached found effect =>
      cases effect <;> exact .inr ⟨run, slot, crashed⟩
  | dispatched place fault id task phase found row running routed =>
      refine .inr (rewritten ?_ slot)
      rintro rfl
      split at routed <;> cases routed
  | skipped place fault id found => exact .inr (rewritten (by simp) slot)
  | handled place event id task metadata since result found ending =>
      exact .inr (rewritten (by simp) slot)
  | written place fault id outcome tasks found perhaps => exact .inr (rewritten (by simp) slot)
  | crashRun place old found =>
      rcases getElem?_set_cases slot with ⟨rfl, _⟩ | ⟨_, before⟩
      · exact .inl rfl
      · exact .inr ⟨run, before, crashed⟩
  | _ => exact .inr ⟨run, slot, crashed⟩

theorem SharedEffect.crashes {event : SharedEvent}
    (effect : SharedEffect decoders shared event after) {index : Nat} {run : Run}
    (slot : after.cluster.workers.runs[index]? = some run) (crashed : run.phase = .crashed) :
    event.panics = some index ∨
      ∃ old, shared.cluster.workers.runs[index]? = some old ∧ old.phase = .crashed := by
  cases effect with
  | cluster event cluster unasked effect stepped =>
      cases effect with
      | worker event workers others moved =>
          rcases (step_effect moved).crashes slot crashed with rfl | before
          · exact .inl rfl
          · exact .inr before
      | check event place phase next reached own found effect =>
          cases effect <;> exact .inr ⟨run, slot, crashed⟩
      | startCheck | crashCheck place => exact .inr ⟨run, slot, crashed⟩
  | recover place fault phase following reached found effect =>
      cases effect <;> exact .inr ⟨run, slot, crashed⟩
  | crashRecovery place => exact .inr ⟨run, slot, crashed⟩

/-- A kill crashes runs of its own process only. -/
theorem crashAll_crashes {runs : List Nat} {index : Nat} {run : Run}
    (slot : (runs.foldl State.crashRun state).runs[index]? = some run)
    (crashed : run.phase = .crashed) :
    index ∈ runs ∨ ∃ old, state.runs[index]? = some old ∧ old.phase = .crashed := by
  induction runs generalizing state with
  | nil => exact .inr ⟨run, slot, crashed⟩
  | cons first rest ih =>
      rcases ih slot with member | ⟨old, there, before⟩
      · exact .inl (List.mem_cons_of_mem _ member)
      · unfold State.crashRun at there
        split at there
        · split at there
          · rcases getElem?_set_cases there with ⟨rfl, _⟩ | ⟨_, there⟩
            · exact .inl List.mem_cons_self
            · exact .inr ⟨old, there, before⟩
          · exact .inr ⟨old, there, before⟩
        · exact .inr ⟨old, there, before⟩

/-- The other steps of a process keep its entries, and change no run unless it is killed. -/
theorem processStep_besides {event : ProcessEvent}
    (stepped : processStep shared process event = some (after, later))
    (besides : ∀ consumed, event ≠ .consumer consumed) :
    later.consumer = process.consumer ∧
      (after.cluster.workers.runs = shared.cluster.workers.runs ∨
        later.status = .killed ∧ after = shared.crash process) := by
  cases event with
  | consumer event => exact absurd rfl (besides event)
  | poller event =>
      obtain ⟨answer, moved, same⟩ := Option.map_eq_some_iff.mp stepped
      cases same
      exact ⟨rfl, .inl (loopEffect_runs (loopStep_effect moved) fun _ => rfl)⟩
  | recovery event =>
      obtain ⟨answer, moved, same⟩ := Option.map_eq_some_iff.mp stepped
      cases same
      exact ⟨rfl, .inl (loopEffect_runs (loopStep_effect moved) fun _ => rfl)⟩
  | checker event =>
      obtain ⟨answer, moved, same⟩ := Option.map_eq_some_iff.mp stepped
      cases same
      exact ⟨rfl, .inl (loopEffect_runs (loopStep_effect moved) fun _ => rfl)⟩
  | signal =>
      simp only [processStep] at stepped
      split at stepped
      · cases stepped; exact ⟨rfl, .inr ⟨rfl, rfl⟩⟩
      · cases stepped; exact ⟨rfl, .inl rfl⟩
  | exit =>
      simp only [processStep] at stepped
      split at stepped
      · cases stepped; exact ⟨rfl, .inl rfl⟩
      · contradiction
  | kill => cases stepped; exact ⟨rfl, .inr ⟨rfl, rfl⟩⟩

/-! ## What the journal accounts for -/

structure Accounted (fleet : Fleet) (journal : Journal) : Prop where
  entries : ∀ (place : Nat) (process : Process), fleet.processes[place]? = some process →
    ∀ entry ∈ process.consumer.inFlight, (place, entry.run) ∈ journal.launched
  distinct : (journal.launched.map Prod.snd).Nodup
  known : ∀ launch ∈ journal.launched, launch.2 < fleet.runs.length
  crashed : ∀ place index, (place, index) ∈ journal.launched → ∀ run : Run,
    fleet.runs[index]? = some run → run.phase = .crashed → index ∈ journal.panicked ∨
      ∃ process, fleet.processes[place]? = some process ∧ process.status = .killed

theorem Accounted.initial (now : Instant) : Accounted (Fleet.initial now) ⟨[], []⟩ := by
  refine ⟨fun place process slot => ?_, List.nodup_nil, fun _ member => ?_, fun _ _ member => ?_⟩
  · simp [Fleet.initial] at slot
  · exact absurd member List.not_mem_nil
  · exact absurd member List.not_mem_nil

/-- The process that launched a run is one. -/
theorem Accounted.launcher {journal : Journal} (accounted : Accounted fleet journal)
    {place other index : Nat} (launched : (place, index) ∈ journal.launched)
    (again : (other, index) ∈ journal.launched) : place = other :=
  congrArg Prod.fst (List.inj_on_of_nodup_map accounted.distinct launched again rfl)

/-- A process moves, and launches nothing. -/
theorem Accounted.move {journal : Journal} (accounted : Accounted fleet journal) {place : Nat}
    (slot : fleet.processes[place]? = some process) (up : process.status = .up)
    (entries : ∀ entry ∈ later.consumer.inFlight, ∃ old ∈ process.consumer.inFlight,
      old.run = entry.run)
    (length : after.cluster.workers.runs.length = fleet.runs.length)
    (crashed : ∀ (index : Nat) (run : Run), after.cluster.workers.runs[index]? = some run →
      run.phase = .crashed → (∃ old, fleet.runs[index]? = some old ∧ old.phase = .crashed) ∨
        later.status = .killed ∧ (place, index) ∈ journal.launched) :
    Accounted ⟨after, fleet.processes.set place later⟩ journal := by
  obtain ⟨inside, _⟩ := List.getElem?_eq_some_iff.mp slot
  refine ⟨fun other moved found => ?_, accounted.distinct,
    fun launch member => (accounted.known launch member).trans_eq length.symm,
    fun other index launched run there past => ?_⟩
  · rcases getElem?_set_cases found with ⟨rfl, rfl⟩ | ⟨_, before⟩
    · intro entry member
      obtain ⟨old, known, same⟩ := entries entry member
      exact same ▸ accounted.entries other process slot old known
    · exact accounted.entries other moved before
  · rcases crashed index run there past with ⟨old, before, crashed⟩ | ⟨killed, mine⟩
    · rcases accounted.crashed other index launched old before crashed with
        panicked | ⟨owner, found, killed⟩
      · exact .inl panicked
      · refine .inr ⟨owner, ?_, killed⟩
        have different : place ≠ other := by
          rintro rfl
          rw [Option.some.inj (found.symm.trans slot), up] at killed
          cases killed
        rw [List.getElem?_set_ne different]
        exact found
    · obtain rfl := accounted.launcher launched mine
      exact .inr ⟨later, by simp [inside], killed⟩

/-- A process launches the next run. -/
theorem Accounted.launch {journal : Journal} (accounted : Accounted fleet journal) {place : Nat}
    {id : TaskId} (slot : fleet.processes[place]? = some process)
    (runs : reached.runs = fleet.runs ++ [⟨id, .fetch⟩])
    (entries : next.inFlight = process.consumer.inFlight ++ [⟨fleet.runs.length, false⟩]) :
    Accounted ⟨fleet.shared.withWorkers reached,
      fleet.processes.set place { process with consumer := next }⟩
      { journal with launched := journal.launched ++ [(place, fleet.runs.length)] } := by
  obtain ⟨inside, _⟩ := List.getElem?_eq_some_iff.mp slot
  have fresh : ∀ launch ∈ journal.launched, launch.2 ≠ fleet.runs.length := fun launch member =>
    (accounted.known launch member).ne
  have length : reached.runs.length = fleet.runs.length + 1 := by simp [runs]
  have older : ∀ {index : Nat} {run : Run}, reached.runs[index]? = some run →
      run.phase = .crashed → fleet.runs[index]? = some run := by
    intro index run found past
    rw [runs, List.getElem?_append] at found
    split at found
    · exact found
    · obtain rfl := List.mem_singleton.mp (List.mem_of_getElem? found)
      cases past
  refine ⟨fun other moved found => ?_, ?_, forall_mem_snoc (fun launch member => ?_) ?_,
    fun other index launched run there past => ?_⟩
  · rcases getElem?_set_cases found with ⟨rfl, rfl⟩ | ⟨_, before⟩
    · simp only [entries]
      exact forall_mem_snoc
        (fun entry member =>
          List.mem_append_left _ (accounted.entries other process slot entry member))
        (List.mem_append_right _ (List.mem_singleton_self _))
    · exact fun entry member =>
        List.mem_append_left _ (accounted.entries other moved before entry member)
  · rw [List.map_append, List.map_singleton]
    refine accounted.distinct.append (List.nodup_singleton _) ?_
    intro index member last
    obtain ⟨launch, there, rfl⟩ := List.mem_map.mp member
    exact fresh launch there (List.mem_singleton.mp last)
  · have before := accounted.known launch member
    exact before.trans_le (length.symm ▸ Nat.le_succ _)
  · exact length.symm ▸ Nat.lt_succ_self _
  · have before := older there past
    have known : (other, index) ∈ journal.launched := by
      refine (List.mem_append.mp launched).resolve_right fun last => ?_
      have bound := (List.getElem?_eq_some_iff.mp before).1
      cases List.mem_singleton.mp last
      exact absurd bound (Nat.lt_irrefl _)
    rcases accounted.crashed other index known run before past with
      panicked | ⟨owner, found, killed⟩
    · exact .inl panicked
    · refine .inr ?_
      by_cases same : place = other
      · subst same
        obtain rfl := Option.some.inj (found.symm.trans slot)
        exact ⟨{ owner with consumer := next }, by simp [inside], killed⟩
      · exact ⟨owner, by rw [List.getElem?_set_ne same]; exact found, killed⟩

theorem Accounted.step {journal : Journal} {event : FleetEvent} (accounted : Accounted fleet journal)
    (stepped : fleetStep decoders fleet event = some finish) :
    Accounted finish (noteFleet fleet event journal) := by
  cases fleetStep_effect stepped with
  | shared event shared moved =>
      have effect := sharedStep_effect moved
      have length : shared.cluster.workers.runs.length = fleet.runs.length := effect.wanes.length
      refine ⟨accounted.entries, accounted.distinct,
        fun launch member => (accounted.known launch member).trans_eq length.symm,
        fun place index launched run slot past => ?_⟩
      rcases effect.crashes slot past with panics | ⟨old, there, before⟩
      · exact .inl (by simp [noteFleet, panics])
      · rcases accounted.crashed place index launched old there before with panicked | killed
        · exact .inl (List.mem_append_left _ panicked)
        · exact .inr killed
  | start workerConcurrency =>
      refine ⟨fun place process slot => ?_, accounted.distinct, accounted.known,
        fun place index launched run slot past => ?_⟩
      · rw [List.getElem?_append] at slot
        split at slot
        · exact accounted.entries place process slot
        · obtain rfl := List.mem_singleton.mp (List.mem_of_getElem? slot)
          exact fun _ member => absurd member List.not_mem_nil
      · rcases accounted.crashed place index launched run slot past with
          panicked | ⟨owner, found, killed⟩
        · exact .inl panicked
        · refine .inr ⟨owner, ?_, killed⟩
          rw [List.getElem?_append_left (List.getElem?_eq_some_iff.mp found).1]
          exact found
  | process place event process later after slot up moved =>
      have same : ∀ entry ∈ process.consumer.inFlight, ∃ old ∈ process.consumer.inFlight,
          old.run = entry.run := fun entry member => ⟨entry, member, rfl⟩
      cases event with
      | consumer event =>
          obtain ⟨⟨reached, next⟩, consumed, equal⟩ := Option.map_eq_some_iff.mp moved
          cases equal
          rcases consumerStep_launch consumed with
            ⟨launches, id, runs, entries⟩ | ⟨idle, runs, entries⟩
          · simp only [noteFleet, launches, if_true]
            exact accounted.launch slot runs entries
          · simp only [noteFleet, idle, Bool.false_eq_true, if_false]
            exact accounted.move slot up entries (congrArg List.length runs)
              fun index run found past =>
                .inl ⟨run, (congrArg (·[index]?) runs).symm.trans found, past⟩
      | _ =>
          obtain ⟨consumer, unchanged | ⟨killed, rfl⟩⟩ := processStep_besides moved nofun
          · exact accounted.move slot up (consumer ▸ same) (congrArg List.length unchanged)
              fun index run found past =>
                .inl ⟨run, (congrArg (·[index]?) unchanged).symm.trans found, past⟩
          · have runs := fleet.shared.crash_runs process
            have length := (congrArg List.length runs).trans (crashAll_wanes _ _).length
            refine accounted.move slot up (consumer ▸ same) length fun index run found past => ?_
            rw [runs] at found
            rcases crashAll_crashes found past with mine | before
            · obtain ⟨entry, member, rfl⟩ := List.mem_map.mp mine
              exact .inr ⟨killed, accounted.entries place process slot entry member⟩
            · exact .inl before

/-- Whatever a process has launched, in any run of the fleet: when the process has exited, it
is over, and it ran to its end unless it panicked.  So only a kill leaves a task halfway. -/
theorem exit_completes {journal : Journal}
    (recalls : Recalls (fleetStep decoders) allowed noteFleet (Fleet.initial now, ⟨[], []⟩) fleet
      journal) :
    ∀ place index, (place, index) ∈ journal.launched → ∀ process : Process,
      fleet.processes[place]? = some process → process.status = .exited →
        ∃ run, fleet.runs[index]? = some run ∧
          (run.phase = .finished ∨ run.phase = .crashed ∧ index ∈ journal.panicked) := by
  have accounted : Accounted fleet journal := by
    refine recalls.preserves Accounted (.initial now) ?_
    exact fun accounted _ stepped => accounted.step stepped
  have owned := owned_of_reaches recalls.forget
  intro place index launched process slot exited
  have inside := accounted.known _ launched
  refine ⟨fleet.runs[index], List.getElem?_eq_getElem inside, ?_⟩
  have found := List.getElem?_eq_getElem inside
  have past : fleet.runs[index].live = false := by
    refine Bool.eq_false_iff.mpr fun live => ?_
    obtain ⟨owner, member, working⟩ := mem_gather.mp (owned.owned index _ found live)
    unfold Process.working at working
    split at working
    · rename_i up
      obtain ⟨entry, there, _, rfl⟩ := mem_working.mp working
      obtain ⟨other, seat⟩ := List.mem_iff_getElem?.mp member
      obtain rfl := accounted.launcher launched (accounted.entries other owner seat entry there)
      rw [Option.some.inj (seat.symm.trans slot), exited] at up
      cases up
    · cases working
  cases phase : fleet.runs[index].phase with
  | finished => exact .inl rfl
  | crashed =>
      rcases accounted.crashed place index launched _ found phase with
        panicked | ⟨owner, there, killed⟩
      · exact .inr ⟨rfl, panicked⟩
      · rw [Option.some.inj (there.symm.trans slot), exited] at killed
        cases killed
  | _ => simp [Run.live, phase] at past

/-- A process runs one task, is told to stop, and exits. -/
theorem exit_completes_one : ∃ fleet process run,
    Recalls (fleetStep decodesNothing) Anything noteFleet (Fleet.initial 0, ⟨[], []⟩) fleet
        ⟨[(0, 0)], []⟩ ∧
      fleet.processes[0]? = some process ∧ process.status = .exited ∧
      fleet.runs[0]? = some run ∧ run.phase = .finished := by
  have passed : ((run (recalling (fleetStep decodesNothing) noteFleet) (permitting Anything)
      (Fleet.initial 0, ⟨[], []⟩)
      ([.shared (.cluster (.worker (.create plainTask))), .start 1,
        .process 0 (.poller .check)] ++
        List.replicate 6 (.shared (.cluster (.worker (.poll 0 .none)))) ++
        [.process 0 (.consumer .check), .process 0 (.consumer .acquire),
          .process 0 (.consumer (.pop .none)), .process 0 .signal,
          .process 0 (.poller .settle), .process 0 (.poller .interrupt),
          .process 0 (.recovery .check), .process 0 (.checker .check),
          .shared (.cluster (.worker (.fetch 0 .none))),
          .shared (.cluster (.worker (.write 0 .none))), .process 0 (.consumer .reap),
          .process 0 (.consumer .check), .process 0 (.consumer (.release 0)),
          .process 0 (.consumer (.joinNext 0)), .process 0 (.consumer .drained),
          .process 0 .exit])).map fun world =>
            decide (world.2 = ⟨[(0, 0)], []⟩ ∧
              world.1.processes[0]?.any fun process => decide (process.status = .exited))) =
                some true := by rfl
  obtain ⟨⟨fleet, journal⟩, recalls, checked⟩ := reaches_of_check _ passed
  obtain ⟨launched, left⟩ := of_decide_eq_true checked
  obtain ⟨process, slot, status⟩ := (Option.any_eq_true _ _).mp left
  obtain rfl : journal = ⟨[(0, 0)], []⟩ := launched
  have exited := of_decide_eq_true status
  obtain ⟨run, found, finished | ⟨_, panicked⟩⟩ :=
    exit_completes recalls 0 0 (List.mem_singleton_self _) process slot exited
  · exact ⟨fleet, process, run, recalls, slot, exited, found, finished⟩
  · cases panicked

end Benri.Worker
