import Benri.Worker.Ordering

namespace Benri.Worker

open Benri.Data Benri.Domain Benri.Postgres Benri.Redis Benri.Transition

/-! # One copy of a task in flight

A published id is in flight until the run that popped it is over: in the hands
of the poller that publishes it, in the queue, or held by a consumer run.  As
long as stale recovery resets nothing that is in flight, an id is in flight at
most once and its row is in progress for that long.  Running handlers exclude
each other per ordering key, and a row that has ended stays so.
-/

variable {decoders : Decoders} {before after state : State} {event : Event}

def PollPhase.publishing : PollPhase → List TaskId
  | .publish _ ids => ids
  | _ => []

def Run.holding (run : Run) : List TaskId :=
  match run.phase with
  | .fetch | .handling _ _ _ | .write _ => [run.taskId]
  | .finished | .crashed => []

/-- How often a task is in flight. -/
def copies (state : State) (id : TaskId) : Nat :=
  (gather PollPhase.publishing state.polls).count id + state.queue.count id +
    (gather Run.holding state.runs).count id

/-- Stale recovery leaves alone what is in flight. -/
def ResetsNothingInFlight (state : State) : Event → Prop
  | .resetStale => ∀ task ∈ state.tasks.rows, stale state.now task = true →
      copies state task.id = 0
  | _ => True

instance (state : State) (event : Event) : Decidable (ResetsNothingInFlight state event) :=
  match event with
  | .resetStale => inferInstanceAs (Decidable (∀ task ∈ state.tasks.rows,
      stale state.now task = true → copies state task.id = 0))
  | .advance _ | .create _ | .startPoll | .poll _ _ | .crashPoll _ | .pop _ | .fetch _ _
  | .finish _ _ | .timeout _ | .write _ _ | .crashRun _ | .wipeQueue => .isTrue trivial

def Orderly (state : State) (event : Event) : Prop :=
  MarksUnderLease state event ∧ ResetsNothingInFlight state event

instance (state : State) (event : Event) : Decidable (Orderly state event) :=
  inferInstanceAs (Decidable (_ ∧ _))

/-! ## The invariant -/

/-- A poller's batch waits to be started: each task once, and still pending. -/
def PollPhase.Waiting (tasks : TaskTable) : PollPhase → Prop
  | .markInProgress _ _ ids => ids.Nodup ∧
      ∀ id ∈ ids, ∃ task, tasks.find? id = some task ∧ task.status = .pending
  | _ => True

/-- The row a handler works on still has the ordering key it was read with. -/
def Run.Snapshot (tasks : TaskTable) (run : Run) : Prop :=
  match run.phase with
  | .handling task _ _ =>
      ∃ row, tasks.find? run.taskId = some row ∧ row.orderingKey = task.orderingKey
  | _ => True

def Started (tasks : TaskTable) (id : TaskId) : Prop :=
  ∃ task, tasks.find? id = some task ∧ task.status = .inProgress

structure Exclusive (state : State) : Prop where
  ordered : Ordered state
  once : ∀ id, copies state id ≤ 1
  started : ∀ id, 0 < copies state id → Started state.tasks id
  waiting : ∀ poll ∈ state.polls, poll.Leased state → poll.Waiting state.tasks
  snapshots : ∀ run ∈ state.runs, run.Snapshot state.tasks

theorem Exclusive.initial (now : Instant) : Exclusive (State.initial now) where
  ordered := .initial now
  once id := by simp [copies, State.initial, gather]
  started id inFlight := by simp [copies, State.initial, gather] at inFlight
  waiting := by simp [State.initial]
  snapshots := by simp [State.initial]

/-! ## What steps do to the number of copies -/

theorem copies_setPoll {index : Nat} {old : PollPhase} (new : PollPhase)
    (slot : before.polls[index]? = some old) (id : TaskId) :
    copies (before.setPoll index new) id + old.publishing.count id =
      copies before id + new.publishing.count id := by
  have counted := count_gather_set PollPhase.publishing new slot id
  simp only [copies, State.setPoll]
  omega

theorem copies_setPoll_le {index : Nat} {old new : PollPhase} {id : TaskId}
    (slot : before.polls[index]? = some old)
    (fewer : new.publishing.count id ≤ old.publishing.count id) :
    copies (before.setPoll index new) id ≤ copies before id := by
  have moved := copies_setPoll new slot id
  omega

theorem copies_setRun {index : Nat} {old : Run} (phase : RunPhase)
    (slot : before.runs[index]? = some old) (id : TaskId) :
    copies (before.setRun index ⟨old.taskId, phase⟩) id + old.holding.count id =
      copies before id + (Run.mk old.taskId phase).holding.count id := by
  have counted := count_gather_set Run.holding ⟨old.taskId, phase⟩ slot id
  simp only [copies, State.setRun]
  omega

/-- A run in a slot accounts for its own task, until it is over. -/
theorem copies_setRun_le {index : Nat} {id owner : TaskId} {old : RunPhase} (phase : RunPhase)
    (slot : before.runs[index]? = some ⟨owner, old⟩)
    (holds : (Run.mk owner old).holding = [owner]) :
    copies (before.setRun index ⟨owner, phase⟩) id ≤ copies before id := by
  have moved := copies_setRun phase slot id
  dsimp only at moved
  have fewer : (Run.mk owner phase).holding.count id ≤ (Run.mk owner old).holding.count id := by
    rw [holds]
    cases phase <;> simp [Run.holding]
  omega

/-- Only `mark_in_progress` brings copies into flight. -/
theorem copies_step (effect : Effect decoders before event after) (id : TaskId) :
    copies after id ≤ copies before id ∨
      ∃ index fault token now ids, event = .poll index fault ∧
        before.polls[index]? = some (.markInProgress token now ids) ∧
        after.tasks = markInProgress before.tasks ids now ∧
        copies after id = copies before id + ids.count id := by
  cases effect with
  | poll index fault phase next reached slot effect =>
      cases effect with
      | marked token now ids =>
          have moved := copies_setPoll (.publish token ids) slot id
          simp only [PollPhase.publishing, List.count_nil] at moved
          exact .inr ⟨index, fault, token, now, ids, rfl, slot, rfl, moved⟩
      | published token ids queue perhaps result =>
          have moved := copies_setPoll (.release token result) slot id
          refine .inl ?_
          rcases perhaps with rfl | rfl <;>
            simp only [copies, State.setPoll, PollPhase.publishing, List.count_append,
              List.count_nil] at moved ⊢ <;> omega
      | acquired | denied | clock | nothing | found | markFailed | released =>
          exact .inl (copies_setPoll_le slot (Nat.le_refl _))
  | startPoll => exact .inl (by simp [copies, PollPhase.publishing])
  | crashPoll index =>
      cases slot : before.polls[index]? with
      | none =>
          rw [State.setPoll, set_missing slot]
          exact .inl (Nat.le_refl _)
      | some phase =>
          have moved := copies_setPoll .crashed slot id
          simp only [PollPhase.publishing, List.count_nil] at moved
          exact .inl (by omega)
  | popped fault head rest queue =>
      refine .inl (Nat.le_of_eq ?_)
      simp only [copies, queue, gather_append, gather_singleton, Run.holding, List.count_append,
        List.count_cons, List.count_nil]
      omega
  | popFailed fault head rest queue shape perhaps =>
      refine .inl ?_
      rcases perhaps with rfl | rfl
      · exact Nat.le_refl _
      · simp only [copies, shape, List.count_cons]
        omega
  | dispatched index fault owner task phase slot row running routed =>
      exact .inl (copies_setRun_le phase slot rfl)
  | skipped index fault owner slot => exact .inl (copies_setRun_le .finished slot rfl)
  | handled index event owner task metadata since result slot ending =>
      exact .inl (copies_setRun_le _ slot rfl)
  | written index fault owner outcome tasks slot perhaps =>
      have fewer : copies (before.setRun index ⟨owner, .finished⟩) id ≤ copies before id :=
        copies_setRun_le .finished slot rfl
      exact .inl fewer
  | crashRun index run slot =>
      have moved := copies_setRun .crashed slot id
      simp only [Run.holding, List.count_nil] at moved
      exact .inl (by omega)
  | wipeQueue => exact .inl (by simp [copies])
  | advance | create | resetStale => exact .inl (Nat.le_refl _)

/-! ## What steps do to one row -/

/-- In an orderly run a row stays as it is, leaves the state in progress when
its last copy is gone, or is started by a poller. -/
theorem Exclusive.row_step (exclusive : Exclusive before)
    (permitted : ResetsNothingInFlight before event)
    (effect : Effect decoders before event after) {id : TaskId} {task : Task}
    (row : before.tasks.find? id = some task) :
    after.tasks.find? id = some task ∨
      (task.status = .inProgress ∧ copies after id = 0 ∧
        ∃ next, after.tasks.find? id = some next ∧ next.orderingKey = task.orderingKey) ∨
      ∃ index fault token now ids, event = .poll index fault ∧
        before.polls[index]? = some (.markInProgress token now ids) ∧ id ∈ ids ∧
        after.tasks.find? id = some { task with
          status := .inProgress, startedAt := some now, updatedAt := now } := by
  cases effect with
  | create task tasks fresh inserted =>
      refine .inl ?_
      simp only [Table.find?_insert? inserted]
      split
      · rename_i same
        rw [← same, (Table.insert?_eq_some inserted).1] at row
        contradiction
      · exact row
  | poll index fault phase next reached slot effect =>
      cases effect with
      | marked token now ids =>
          by_cases member : id ∈ ids
          · refine .inr (.inr ⟨index, fault, token, now, ids, rfl, slot, member, ?_⟩)
            simp [State.setPoll, find?_markInProgress, row, member]
          · exact .inl (by simp [State.setPoll, find?_markInProgress, row, member])
      | markFailed token now ids tasks perhaps result =>
          rcases perhaps with rfl | rfl
          · exact .inl row
          · by_cases member : id ∈ ids
            · refine .inr (.inr ⟨index, fault, token, now, ids, rfl, slot, member, ?_⟩)
              simp [State.setPoll, find?_markInProgress, row, member]
            · exact .inl (by simp [State.setPoll, find?_markInProgress, row, member])
      | _ => exact .inl row
  | written index fault owner outcome tasks slot perhaps =>
      have addressed : outcome.update.taskId = owner :=
        (exclusive.ordered.addressed _ (List.mem_of_getElem? slot)).1
      rcases perhaps with rfl | rfl
      · exact .inl row
      · by_cases own : owner = id
        · subst own
          have moved := copies_setRun .finished slot owner
          simp only [Run.holding, List.count_nil, List.count_singleton_self] at moved
          have bound := exclusive.once owner
          obtain ⟨started, found, running⟩ := exclusive.started owner (by omega)
          rw [row] at found
          cases found
          refine .inr (.inl ⟨running, ?_, _, find?_batchUpdate_single _ _ _ |>.trans
            (by rw [row, Option.map_some]), ?_⟩)
          · simp only [copies, State.setRun] at moved bound ⊢
            omega
          · split <;> rfl
        · refine .inl ?_
          simp [State.setRun, find?_batchUpdate_single, row, addressed, own]
  | resetStale =>
      by_cases old : stale before.now task = true
      · have same := Table.key_of_find? row
        have running : task.status = .inProgress := by
          simp only [stale, Bool.and_eq_true, decide_eq_true_eq] at old
          exact old.1
        have none := permitted task (Table.mem_of_find? row) old
        rw [same] at none
        refine .inr (.inl ⟨running, none, _, find?_resetStale _ _ _ |>.trans
          (by rw [row, Option.map_some]), ?_⟩)
        rw [if_pos old]
      · exact .inl (by simp [find?_resetStale, row, old])
  | _ => exact .inl row

/-- Ordering keys are never rewritten. -/
theorem Exclusive.key_step (exclusive : Exclusive before)
    (permitted : ResetsNothingInFlight before event)
    (effect : Effect decoders before event after) {id : TaskId} {task : Task}
    (row : before.tasks.find? id = some task) :
    ∃ next, after.tasks.find? id = some next ∧ next.orderingKey = task.orderingKey := by
  rcases exclusive.row_step permitted effect row with
    same | ⟨_, _, moved⟩ | ⟨_, _, _, _, _, _, _, _, started⟩
  · exact ⟨task, same, rfl⟩
  · exact moved
  · exact ⟨_, started, rfl⟩

theorem PollPhase.waiting_of_not_marking {tasks : TaskTable} {phase : PollPhase}
    (idle : phase.marking = false) : phase.Waiting tasks := by
  cases phase with
  | markInProgress token now ids => cases idle
  | _ => trivial

theorem waiting_findPending (tasks : TaskTable) (token : LockToken) (limit : Nat)
    (now : Instant) :
    (PollPhase.markInProgress token now ((findPending tasks limit now).map Task.id)).Waiting
      tasks := by
  refine ⟨findPending_ids tasks limit now, fun id member => ?_⟩
  obtain ⟨task, inside, rfl⟩ := List.mem_map.mp member
  exact ⟨task, (mem_findPending inside).row, (mem_findPending inside).pending⟩

/-! ## Preservation -/

theorem Exclusive.waiting_step (exclusive : Exclusive before) (permitted : Orderly before event)
    (effect : Effect decoders before event after) :
    ∀ poll ∈ after.polls, poll.Leased after → poll.Waiting after.tasks := by
  have earlier : ∀ poll ∈ before.polls, poll.Leased after → poll.Leased before :=
    fun _ member => exclusive.ordered.apart.leasedBefore effect member
  -- A batch that waited keeps waiting unless a poller marks rows in this step.
  have kept : (∀ index fault token now ids, event = .poll index fault →
        before.polls[index]? ≠ some (.markInProgress token now ids)) →
      ∀ poll ∈ before.polls, poll.Leased after → poll.Waiting after.tasks := by
    intro unmarked poll member leased
    have waiting := exclusive.waiting poll member (earlier poll member leased)
    cases poll with
    | markInProgress token now ids =>
        refine ⟨waiting.1, fun id inside => ?_⟩
        obtain ⟨task, row, pending⟩ := waiting.2 id inside
        rcases exclusive.row_step permitted.2 effect row with
          same | ⟨running, _⟩ | ⟨index, fault, other, at_, batch, poll, slot, _⟩
        · exact ⟨task, same, pending⟩
        · rw [pending] at running; contradiction
        · exact absurd slot (unmarked index fault other at_ batch poll)
    | _ => trivial
  cases effect with
  | poll index fault phase next reached slot effect =>
      have leased := MarksUnderLease.leased permitted.1 slot
      have unmarked : phase.marking = false → ∀ index' fault' token now ids,
          Event.poll index fault = .poll index' fault' →
            before.polls[index']? ≠ some (.markInProgress token now ids) := by
        rintro idle index' fault' token now ids same found
        cases same
        rw [slot] at found
        cases found
        cases idle
      have others : ∀ token now ids, phase = .markInProgress token now ids →
          ∀ poll ∈ before.polls.eraseIdx index, poll.Leased (reached.setPoll index next) →
            poll.Waiting (reached.setPoll index next).tasks := by
        rintro token now ids rfl poll member later
        exact PollPhase.waiting_of_not_marking (exclusive.ordered.apart.alone slot leased poll
          member (earlier poll (List.mem_of_mem_eraseIdx member) later))
      cases effect with
      | found token now =>
          exact forall_mem_set (kept (unmarked rfl)) fun _ => waiting_findPending _ _ _ _
      | marked token now ids | markFailed token now ids =>
          exact forall_mem_set_others slot (others token now ids rfl) fun _ => trivial
      | acquired | denied | clock | nothing | published | released =>
          exact forall_mem_set (kept (unmarked rfl)) fun _ => trivial
  | startPoll => exact forall_mem_snoc (kept (by simp)) fun _ => trivial
  | crashPoll index => exact forall_mem_set (kept (by simp)) fun _ => trivial
  | handled index event id task metadata since result slot ending =>
      exact kept (by rcases ending with rfl | rfl <;> simp)
  | advance | create | popped | popFailed | dispatched | skipped | written | crashRun | resetStale
  | wipeQueue => exact kept (by simp)

theorem Exclusive.snapshots_step (exclusive : Exclusive before)
    (permitted : ResetsNothingInFlight before event)
    (effect : Effect decoders before event after) :
    ∀ run ∈ after.runs, run.Snapshot after.tasks := by
  have kept : ∀ run ∈ before.runs, run.Snapshot after.tasks := by
    intro run member
    have snapshot := exclusive.snapshots run member
    obtain ⟨id, phase⟩ := run
    cases phase with
    | handling task metadata since =>
        obtain ⟨row, found, key⟩ := snapshot
        obtain ⟨next, later, same⟩ := exclusive.key_step permitted effect found
        exact ⟨next, later, same.trans key⟩
    | _ => trivial
  cases effect with
  | popped => exact forall_mem_snoc kept trivial
  | dispatched index fault id task phase slot row running routed =>
      refine forall_mem_set kept ?_
      cases outcome : route decoders task with
      | ok metadata =>
          rw [outcome] at routed
          exact routed ▸ ⟨task, row, rfl⟩
      | error error =>
          rw [outcome] at routed
          exact routed ▸ trivial
  | skipped | handled | written | crashRun => exact forall_mem_set kept trivial
  | poll index fault phase next reached slot effect => cases effect <;> exact kept
  | advance | create | startPoll | crashPoll | popFailed | resetStale | wipeQueue => exact kept

theorem Exclusive.step (exclusive : Exclusive before) (permitted : Orderly before event)
    (effect : Effect decoders before event after) : Exclusive after where
  ordered := exclusive.ordered.step permitted.1 effect
  once id := by
    have bound := exclusive.once id
    rcases copies_step effect id with fewer | ⟨index, fault, token, now, ids, rfl, slot, _, more⟩
    · omega
    · obtain ⟨distinct, pending⟩ :=
        exclusive.waiting _ (List.mem_of_getElem? slot) (MarksUnderLease.leased permitted.1 slot)
      have single := List.nodup_iff_count_le_one.mp distinct id
      by_cases member : id ∈ ids
      · -- A task about to be started is pending, so nothing of it is in flight.
        obtain ⟨task, row, status⟩ := pending id member
        have absent : copies before id = 0 := by
          by_contra some
          obtain ⟨running, found, started⟩ := exclusive.started id (Nat.pos_of_ne_zero some)
          rw [row] at found
          cases found
          rw [status] at started
          contradiction
        omega
      · rw [List.count_eq_zero.mpr member] at more
        omega
  started id inFlight := by
    have fromBefore : 0 < copies before id → Started after.tasks id := by
      intro earlier
      obtain ⟨task, row, running⟩ := exclusive.started id earlier
      rcases exclusive.row_step permitted.2 effect row with
        same | ⟨_, gone, _⟩ | ⟨_, _, _, _, _, _, _, _, started⟩
      · exact ⟨task, same, running⟩
      · omega
      · exact ⟨_, started, rfl⟩
    rcases copies_step effect id with fewer | ⟨index, fault, token, now, ids, rfl, slot, rows, more⟩
    · exact fromBefore (by omega)
    · by_cases member : id ∈ ids
      · obtain ⟨task, row, _⟩ := (exclusive.waiting _ (List.mem_of_getElem? slot)
          (MarksUnderLease.leased permitted.1 slot)).2 id member
        refine ⟨{ task with status := .inProgress, startedAt := some now, updatedAt := now },
          ?_, rfl⟩
        rw [rows, find?_markInProgress, row, Option.map_some, if_pos member]
      · rw [List.count_eq_zero.mpr member] at more
        exact fromBefore (by omega)
  waiting := exclusive.waiting_step permitted effect
  snapshots := exclusive.snapshots_step permitted.2 effect

theorem exclusive_of_reaches {now : Instant}
    (reached : Reaches (step decoders) Orderly (State.initial now) state) : Exclusive state :=
  reached.preserves Exclusive (.initial now) fun exclusive permitted stepped =>
    exclusive.step permitted (step_effect stepped)

end Benri.Worker
