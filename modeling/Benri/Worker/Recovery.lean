import Benri.Worker.Exclusion
import Mathlib.Data.Finset.Card

namespace Benri.Worker

open Benri.Data Benri.Domain Benri.Postgres Benri.Redis Benri.Transition

/-! # No task is lost

From any state the workers can bring a task that has not ended to its handler
again: wait until every row in progress is stale, reset them, drain the queue,
and then poll and serve batch after batch.  Every batch serves at least one due
task and makes none due, so the wanted task is served after finitely many.
-/

variable {decoders : Decoders} {before after state : State} {event : Event}

/-! ## Rows in progress carry the time they started -/

structure Stamped (state : State) : Prop where
  addressed : ∀ run ∈ state.runs, run.Addressed
  started : ∀ id task, state.tasks.find? id = some task → task.status = .inProgress →
    task.startedAt ≠ none

theorem Stamped.markInProgress {tasks : TaskTable} {ids : List TaskId} {now : Instant}
    (started : ∀ id task, tasks.find? id = some task → task.status = .inProgress →
      task.startedAt ≠ none) :
    ∀ id task, (markInProgress tasks ids now).find? id = some task → task.status = .inProgress →
      task.startedAt ≠ none := by
  intro id task found running
  rw [find?_markInProgress] at found
  obtain ⟨source, row, same⟩ := Option.map_eq_some_iff.mp found
  split at same
  · rw [← same]
    simp
  · exact same ▸ started id source row (same ▸ running)

theorem Stamped.step (stamped : Stamped before) (effect : Effect decoders before event after) :
    Stamped after := by
  refine ⟨addressed_step stamped.addressed effect, ?_⟩
  cases effect with
  | create task tasks fresh inserted =>
      intro id row found running
      rw [Table.find?_insert? inserted] at found
      split at found
      · cases found
        simp only [Task.isNew, Bool.and_eq_true, decide_eq_true_eq] at fresh
        rw [fresh.1.1.1.1] at running
        contradiction
      · exact stamped.started id row found running
  | poll index fault phase next reached slot effect =>
      cases effect with
      | marked token now ids => exact Stamped.markInProgress stamped.started
      | markFailed token now ids tasks perhaps result =>
          rcases perhaps with rfl | rfl
          · exact stamped.started
          · exact Stamped.markInProgress stamped.started
      | _ => exact stamped.started
  | written index fault owner outcome tasks slot perhaps =>
      rcases perhaps with rfl | rfl
      · exact stamped.started
      · intro id task found running
        have shape := stamped.addressed _ (List.mem_of_getElem? slot)
        simp only [State.setRun, find?_batchUpdate_single] at found
        obtain ⟨source, row, same⟩ := Option.map_eq_some_iff.mp found
        split at same
        · rw [← same] at running
          exact absurd running shape.2
        · exact same ▸ stamped.started id source row (same ▸ running)
  | resetStale =>
      intro id task found running
      simp only [find?_resetStale] at found
      obtain ⟨source, row, same⟩ := Option.map_eq_some_iff.mp found
      split at same
      · rw [← same] at running
        contradiction
      · exact same ▸ stamped.started id source row (same ▸ running)
  | _ => exact stamped.started

theorem stamped_of_reaches {now : Instant}
    (reached : Reaches (step decoders) Anything (State.initial now) state) : Stamped state :=
  reached.preserves Stamped
    ⟨by simp [State.initial], by simp [State.initial]⟩
    fun stamped _ stepped => stamped.step (step_effect stepped)

/-! ## The continuation -/

/-- The steps a recovery is made of: no call fails and every handler succeeds. -/
def Recovery (_ : State) : Event → Prop
  | .advance _ | .resetStale | .startPoll => True
  | .poll _ fault | .pop fault | .fetch _ fault | .write _ fault => fault = .none
  | .finish _ result => result = .success none none
  | .create _ | .crashPoll _ | .timeout _ | .crashRun _ | .wipeQueue => False

/-- A fetch is about to hand the task to the dispatcher. -/
def Dispatches (decoders : Decoders) (state : State) (id : TaskId) : Prop :=
  ∃ index later, step decoders state (.fetch index .none) = some later ∧
    ∃ phase, later.runs[index]? = some ⟨id, phase⟩ ∧
      ((∃ task metadata since, phase = .handling task metadata since) ∨
        ∃ task error, phase = .write (deadLetterOutcome task error state.now))

def Recoverable (decoders : Decoders) (state : State) (id : TaskId) : Prop :=
  ∃ middle, Reaches (step decoders) Recovery state middle ∧ Dispatches decoders middle id

theorem Recoverable.earlier {middle : State} {id : TaskId}
    (path : Reaches (step decoders) Recovery state middle)
    (recoverable : Recoverable decoders middle id) : Recoverable decoders state id := by
  obtain ⟨finish, onward, dispatches⟩ := recoverable
  exact ⟨finish, path.trans onward, dispatches⟩

/-! ### Serving the queue -/

variable (decoders)

/-- The state with one more run, in the last slot. -/
def State.serving (state : State) (queue : List TaskId) (tasks : TaskTable) (id : TaskId)
    (phase : RunPhase) : State :=
  { state with queue, tasks, runs := state.runs ++ [⟨id, phase⟩] }

section LastSlot

variable {queue : List TaskId} {tasks : TaskTable} {id : TaskId}

theorem step_pop {rest : List TaskId} (head : state.queue = id :: rest) :
    step decoders state (.pop .none) = some (state.serving rest state.tasks id .fetch) := by
  simp [step, popStep, head, State.serving]

theorem step_fetch_last {phase : RunPhase}
    (fetched : fetchStep decoders (state.serving queue tasks id .fetch) .none id = phase) :
    step decoders (state.serving queue tasks id .fetch) (.fetch state.runs.length .none) =
      some (state.serving queue tasks id phase) := by
  subst fetched
  simp [step, runEvent, fetchRun, State.serving, State.setRun]

theorem step_finish_last {task : Task} {metadata : RegisteredMetadata} {since : Instant}
    {result : TaskResult} :
    step decoders (state.serving queue tasks id (.handling task metadata since))
        (.finish state.runs.length result) =
      some (state.serving queue tasks id
        (.write (metadata.computeUpdate task result state.now))) := by
  simp [step, runEvent, finishRun, State.serving, State.setRun]

theorem step_write_last {outcome : TaskRunOutcome} :
    step decoders (state.serving queue tasks id (.write outcome))
        (.write state.runs.length .none) =
      some (state.serving queue (batchUpdate tasks [outcome.update]) id .finished) := by
  simp [step, runEvent, writeRun, writeStep, State.serving, State.setRun]

end LastSlot

/-- An id whose row is not in progress is popped and dropped. -/
theorem skip_head {id : TaskId} {rest : List TaskId} (head : state.queue = id :: rest)
    (idle : ∀ task, state.tasks.find? id = some task → task.status ≠ .inProgress) :
    Reaches (step decoders) Recovery state (state.serving rest state.tasks id .finished) := by
  have skipped : fetchStep decoders (state.serving rest state.tasks id .fetch) .none id =
      .finished := by
    cases row : state.tasks.find? id with
    | none => simp [fetchStep, State.serving, row]
    | some task => simp [fetchStep, State.serving, row, idle task row]
  have popped : Reaches (step decoders) Recovery state
      (state.serving rest state.tasks id .fetch) :=
    .single (.pop .none) rfl (step_pop decoders head)
  exact popped.andThen (.fetch state.runs.length .none) rfl (step_fetch_last decoders skipped)

/-- With nothing in progress the queue drains without effect on any row. -/
theorem drain {queue : List TaskId} (shape : state.queue = queue)
    (idle : ∀ id task, state.tasks.find? id = some task → task.status ≠ .inProgress) :
    ∃ runs, Reaches (step decoders) Recovery state { state with queue := [], runs } := by
  induction queue generalizing state with
  | nil => exact ⟨state.runs, by rw [← shape]; exact .refl⟩
  | cons id rest ih =>
      obtain ⟨runs, onward⟩ := @ih (state.serving rest state.tasks id .finished) rfl idle
      exact ⟨runs, (skip_head decoders shape (idle id)).trans onward⟩

/-- What a task in progress is once it has been served. -/
structure Served (now : Instant) (tasks served : TaskTable) (id : TaskId) : Prop where
  row : ∃ task, served.find? id = some task ∧ task.status ≠ .inProgress ∧
    (task.status = .pending → now < task.nextRunAt)
  others : ∀ other, other ≠ id → served.find? other = tasks.find? other

theorem served_batchUpdate {tasks : TaskTable} {task : Task} {id : TaskId} {now : Instant}
    {update : TaskUpdate} (row : tasks.find? id = some task) (addressed : update.taskId = id)
    (stopping : update.status ≠ .inProgress)
    (later : update.status = .pending → update.nextRunAt = some (now + 86400000)) :
    Served now tasks (batchUpdate tasks [update]) id where
  row := by
    refine ⟨TaskUpdate.assign update task, ?_, stopping, fun pending => ?_⟩
    · rw [find?_batchUpdate_single, row, Option.map_some, if_pos addressed]
    · rw [TaskUpdate.assign, later pending, Option.getD_some]
      exact Int.lt_add_of_pos_right now (by decide)
  others other different := by
    rw [find?_batchUpdate_single]
    have elsewhere : update.taskId ≠ other := fun same => different (same.symm.trans addressed)
    simp [elsewhere]

/-- The head of the queue is dispatched, and once its handler has succeeded and
the result is written it is served. -/
theorem serve_head {id : TaskId} {rest : List TaskId} {task : Task}
    (head : state.queue = id :: rest) (row : state.tasks.find? id = some task)
    (running : task.status = .inProgress) :
    Recoverable decoders state id ∧ ∃ tasks,
      Reaches (step decoders) Recovery state (state.serving rest tasks id .finished) ∧
        Served state.now state.tasks tasks id := by
  have name : task.id = id := Table.key_of_find? row
  have popped : Reaches (step decoders) Recovery state
      (state.serving rest state.tasks id .fetch) :=
    .single (.pop .none) rfl (step_pop decoders head)
  have dispatched : ∀ {phase}, step decoders (state.serving rest state.tasks id .fetch)
      (.fetch state.runs.length .none) = some (state.serving rest state.tasks id phase) →
      Reaches (step decoders) Recovery state (state.serving rest state.tasks id phase) :=
    fun fetched => popped.andThen (.fetch state.runs.length .none) rfl fetched
  have slot : ∀ phase, (state.serving rest state.tasks id phase).runs[state.runs.length]? =
      some ⟨id, phase⟩ := fun phase => by simp [State.serving]
  cases routed : route decoders task with
  | error error =>
      have fetched : step decoders (state.serving rest state.tasks id .fetch)
          (.fetch state.runs.length .none) = some (state.serving rest state.tasks id
            (.write (deadLetterOutcome task error state.now))) :=
        step_fetch_last decoders (by simp [fetchStep, State.serving, row, running, routed])
      refine ⟨⟨_, popped, state.runs.length, _, fetched, _, slot _, .inr ⟨task, error, rfl⟩⟩, _,
        (dispatched fetched).andThen (.write state.runs.length .none) rfl
          (step_write_last decoders), ?_⟩
      exact served_batchUpdate row name (by simp [deadLetterOutcome]) (by simp [deadLetterOutcome])
  | ok metadata =>
      have fetched : step decoders (state.serving rest state.tasks id .fetch)
          (.fetch state.runs.length .none) = some (state.serving rest state.tasks id
            (.handling task metadata state.now)) :=
        step_fetch_last decoders (by simp [fetchStep, State.serving, row, running, routed])
      have finished := (dispatched fetched).andThen
        (.finish state.runs.length (.success none none)) rfl (step_finish_last decoders)
      have shape := metadata.computeUpdate_shape task (.success none none) state.now
      refine ⟨⟨_, popped, state.runs.length, _, fetched, _, slot _,
        .inl ⟨task, metadata, state.now, rfl⟩⟩, _,
        finished.andThen (.write state.runs.length .none) rfl (step_write_last decoders), ?_⟩
      exact served_batchUpdate row (shape.1.trans name) shape.2
        (metadata.computeUpdate_success task none state.now)

/-- What the queue holds is in progress, and nothing else is. -/
structure Loaded (state : State) (queue : List TaskId) : Prop where
  shape : state.queue = queue
  distinct : queue.Nodup
  running : ∀ id ∈ queue, Started state.tasks id
  only : ∀ id task, state.tasks.find? id = some task → task.status = .inProgress → id ∈ queue

/-- A loaded queue is served to its end: everything in it is dispatched. -/
theorem serve_queue {queue : List TaskId} (loaded : Loaded state queue) :
    (∀ id ∈ queue, Recoverable decoders state id) ∧ ∃ runs tasks,
      Reaches (step decoders) Recovery state { state with queue := [], runs, tasks } ∧
        (∀ id ∈ queue, ∃ task, tasks.find? id = some task ∧ task.status ≠ .inProgress ∧
          (task.status = .pending → state.now < task.nextRunAt)) ∧
        ∀ id ∉ queue, tasks.find? id = state.tasks.find? id := by
  induction queue generalizing state with
  | nil =>
      refine ⟨by simp, state.runs, state.tasks, ?_, by simp, fun id _ => rfl⟩
      rw [← loaded.shape]
      exact .refl
  | cons head rest ih =>
      obtain ⟨task, row, running⟩ := loaded.running head List.mem_cons_self
      obtain ⟨recoverable, tasks, served, result⟩ :=
        serve_head decoders loaded.shape row running
      have apart := List.nodup_cons.mp loaded.distinct
      have elsewhere : ∀ id ∈ rest, id ≠ head := fun id member same => apart.1 (same ▸ member)
      have next : Loaded (state.serving rest tasks head .finished) rest := by
        refine ⟨rfl, apart.2, fun id member => ?_, fun id task found started => ?_⟩
        · obtain ⟨task, row, started⟩ := loaded.running id (List.mem_cons_of_mem _ member)
          exact ⟨task, (result.others id (elsewhere id member)).trans row, started⟩
        · by_cases own : id = head
          · subst own
            obtain ⟨current, lookup, stopped, _⟩ := result.row
            rw [show tasks.find? id = some task from found] at lookup
            cases lookup
            exact absurd started stopped
          · have before := (result.others id own).symm.trans found
            exact (List.mem_cons.mp (loaded.only id task before started)).resolve_left own
      obtain ⟨others, runs, final, path, ended, untouched⟩ := ih next
      refine ⟨fun id member => ?_, runs, final, served.trans path, fun id member => ?_,
        fun id absent => ?_⟩
      · rcases List.mem_cons.mp member with rfl | member
        · exact recoverable
        · exact (others id member).earlier served
      · rcases List.mem_cons.mp member with rfl | member
        · obtain ⟨current, lookup, ends⟩ := result.row
          exact ⟨current, (untouched id apart.1).trans lookup, ends⟩
        · exact ended id member
      · rw [untouched id fun inside => absent (List.mem_cons_of_mem _ inside)]
        exact result.others id fun same => absent (same ▸ List.mem_cons_self)

/-! ### One poll cycle -/

/-- The state with one more poll cycle under way, in the last slot. -/
def State.polling (state : State) (tasks : TaskTable) (queue : List TaskId)
    (lock : Option Lease) (phase : PollPhase) : State :=
  { state with
    tasks, queue, lock, issued := state.issued + 1, polls := state.polls ++ [phase] }

/-- A poll cycle with a free lock starts a batch and publishes it. -/
theorem poll_cycle (free : holder state.lock state.now = none) {first : Task} {rest : List Task}
    (batch : findPending state.tasks BATCH_SIZE state.now = first :: rest) :
    ∃ lock, holder lock state.now = none ∧
      Reaches (step decoders) Recovery state
        (state.polling
          (markInProgress state.tasks ((first :: rest).map Task.id) state.now)
          (state.queue ++ (first :: rest).map Task.id) lock (.finished (.ok ()))) := by
  let token : LockToken := ⟨state.issued⟩
  let lease : Lease := ⟨token, state.now + LOCK_TTL_SECS * 1000⟩
  let ids := (first :: rest).map Task.id
  let marked := markInProgress state.tasks ids state.now
  let atLast : Event := .poll state.polls.length .none
  have started : step decoders state .startPoll =
      some { state with polls := state.polls ++ [.acquire] } := rfl
  have acquired : step decoders { state with polls := state.polls ++ [.acquire] } atLast =
      some (state.polling state.tasks state.queue (some lease) (.acquired token)) := by
    simp [atLast, step, pollEvent, pollStep, acquireStep, acquire_free free, State.setPoll,
      State.polling, token, lease]
  have clocked : step decoders
      (state.polling state.tasks state.queue (some lease) (.acquired token)) atLast =
      some (state.polling state.tasks state.queue (some lease)
        (.findPending token state.now)) := by
    simp [atLast, step, pollEvent, pollStep, State.setPoll, State.polling]
  have found : step decoders
      (state.polling state.tasks state.queue (some lease) (.findPending token state.now)) atLast =
      some (state.polling state.tasks state.queue (some lease)
        (.markInProgress token state.now ids)) := by
    simp [atLast, step, pollEvent, pollStep, findPendingStep, State.setPoll, State.polling, batch,
      ids]
  have started' : step decoders
      (state.polling state.tasks state.queue (some lease) (.markInProgress token state.now ids))
        atLast =
      some (state.polling marked state.queue (some lease) (.publish token ids)) := by
    simp [atLast, step, pollEvent, pollStep, markInProgressStep, State.setPoll, State.polling,
      marked]
  have published : step decoders
      (state.polling marked state.queue (some lease) (.publish token ids)) atLast =
      some (state.polling marked (state.queue ++ ids) (some lease)
        (.release token (.ok ()))) := by
    simp [atLast, step, pollEvent, pollStep, publishStep, State.setPoll, State.polling]
  have released : step decoders
      (state.polling marked (state.queue ++ ids) (some lease) (.release token (.ok ()))) atLast =
      some (state.polling marked (state.queue ++ ids)
        (Redis.release (some lease) token state.now) (.finished (.ok ()))) := by
    simp [atLast, step, pollEvent, pollStep, releaseStep, State.setPoll, State.polling]
  refine ⟨Redis.release (some lease) token state.now, release_own state.now rfl, ?_⟩
  have path : Reaches (step decoders) Recovery state
      { state with polls := state.polls ++ [.acquire] } := .single .startPoll trivial started
  exact (((((path.andThen atLast rfl acquired).andThen atLast rfl clocked).andThen
    atLast rfl found).andThen atLast rfl started').andThen atLast rfl published).andThen
    atLast rfl released

/-! ### Batch after batch -/

def due (now : Instant) (task : Task) : Bool :=
  decide (task.status = .pending) && decide (task.nextRunAt ≤ now)

/-- The tasks a poll at `now` may still have to go through. -/
def dueIds (tasks : TaskTable) (now : Instant) : Finset TaskId :=
  ((tasks.select (due now)).map Task.id).toFinset

theorem mem_dueIds {tasks : TaskTable} {now : Instant} {id : TaskId} :
    id ∈ dueIds tasks now ↔ ∃ task, tasks.find? id = some task ∧ task.status = .pending ∧
      task.nextRunAt ≤ now := by
  simp only [dueIds, Table.select, List.mem_toFinset, List.mem_map, List.mem_filter, due,
    Bool.and_eq_true, decide_eq_true_eq]
  constructor
  · rintro ⟨task, ⟨member, waiting⟩, rfl⟩
    exact ⟨task, Table.find?_of_mem member, waiting⟩
  · rintro ⟨task, row, waiting⟩
    exact ⟨task, ⟨Table.mem_of_find? row, waiting⟩, Table.key_of_find? row⟩

/-- Nothing is under way: the queue is empty, the lock free, no row in progress. -/
structure Rested (state : State) : Prop where
  queue : state.queue = []
  unlocked : holder state.lock state.now = none
  idle : ∀ id task, state.tasks.find? id = some task → task.status ≠ .inProgress

/-- A batch published from a rested state loads the queue. -/
theorem Rested.loaded (rested : Rested state) {batch : List Task}
    (found : findPending state.tasks BATCH_SIZE state.now = batch) (lock : Option Lease)
    (phase : PollPhase) :
    Loaded (state.polling (markInProgress state.tasks (batch.map Task.id) state.now)
      (state.queue ++ batch.map Task.id) lock phase) (batch.map Task.id) := by
  subst found
  refine ⟨by simp [State.polling, rested.queue], findPending_ids _ _ _, fun id member => ?_,
    fun id task row running => ?_⟩
  · obtain ⟨task, inside, rfl⟩ := List.mem_map.mp member
    refine ⟨_, (find?_markInProgress _ _ _ _).trans (by
      rw [(mem_findPending inside).row, Option.map_some, if_pos member]), rfl⟩
  · by_contra outside
    simp only [State.polling, find?_markInProgress] at row
    obtain ⟨source, lookup, same⟩ := Option.map_eq_some_iff.mp row
    rw [if_neg outside] at same
    exact rested.idle id source lookup (same ▸ running)

/-- A rested state serves one batch and rests again with fewer tasks due. -/
theorem Rested.serve_batch (rested : Rested state) {first : Task} {rest : List Task}
    (batch : findPending state.tasks BATCH_SIZE state.now = first :: rest) :
    (∀ task ∈ first :: rest, Recoverable decoders state task.id) ∧
      ∃ next, Reaches (step decoders) Recovery state next ∧ Rested next ∧
        next.now = state.now ∧
        (dueIds next.tasks state.now).card < (dueIds state.tasks state.now).card ∧
        ∀ id task, state.tasks.find? id = some task → id ∉ (first :: rest).map Task.id →
          next.tasks.find? id = some task := by
  obtain ⟨lock, free, polled⟩ := poll_cycle decoders rested.unlocked batch
  obtain ⟨dispatched, runs, tasks, served, ended, untouched⟩ :=
    serve_queue decoders (rested.loaded batch lock (.finished (.ok ())))
  have kept : ∀ id ∉ (first :: rest).map Task.id, tasks.find? id = state.tasks.find? id := by
    intro id outside
    rw [untouched id outside]
    simp only [State.polling, find?_markInProgress, if_neg outside, Option.map_id']
  refine ⟨fun task member => (dispatched _ (List.mem_map_of_mem member)).earlier polled, _,
    polled.trans served, ⟨rfl, free, fun id task row => ?_⟩, rfl, ?_,
    fun id task row outside => (kept id outside).trans row⟩
  · by_cases inside : id ∈ (first :: rest).map Task.id
    · obtain ⟨current, lookup, stopped, _⟩ := ended id inside
      rw [show tasks.find? id = some task from row] at lookup
      exact Option.some.inj lookup ▸ stopped
    · exact rested.idle id task ((kept id inside).symm.trans row)
  · refine Finset.card_lt_card (Finset.ssubset_iff_of_subset ?_ |>.mpr ⟨first.id, ?_, ?_⟩)
    · intro id member
      obtain ⟨task, row, pending, early⟩ := mem_dueIds.mp member
      by_cases inside : id ∈ (first :: rest).map Task.id
      · obtain ⟨current, lookup, _, later⟩ := ended id inside
        rw [show tasks.find? id = some task from row] at lookup
        cases lookup
        exact absurd early (Int.not_le.mpr (later pending))
      · exact mem_dueIds.mpr ⟨task, (kept id inside).symm.trans row, pending, early⟩
    · have fits : Eligible state.tasks state.now first := mem_findPending (by
        rw [batch]; exact List.mem_cons_self)
      exact mem_dueIds.mpr ⟨first, fits.row, fits.pending, fits.due⟩
    · intro member
      obtain ⟨task, row, pending, early⟩ := mem_dueIds.mp member
      obtain ⟨current, lookup, _, later⟩ := ended first.id List.mem_cons_self
      rw [show tasks.find? first.id = some task from row] at lookup
      cases lookup
      exact absurd early (Int.not_le.mpr (later pending))

/-- From a rested state every due task is dispatched after finitely many batches;
the induction is on how many tasks are due. -/
theorem Rested.recoverable (rested : Rested state) {id : TaskId} {task : Task}
    (row : state.tasks.find? id = some task) (pending : task.status = .pending)
    (early : task.nextRunAt ≤ state.now) : Recoverable decoders state id := by
  induction size : (dueIds state.tasks state.now).card using Nat.strong_induction_on
    generalizing state with
  | _ size ih =>
      have name : task.id = id := Table.key_of_find? row
      have busy : findPending state.tasks BATCH_SIZE state.now ≠ [] :=
        findPending_ne_nil (name.symm ▸ row) pending early (by decide)
          fun other found => rested.idle other.id other found
      obtain ⟨first, rest, batch⟩ := List.exists_cons_of_ne_nil busy
      obtain ⟨dispatched, next, path, restedNext, clock, fewer, kept⟩ :=
        rested.serve_batch decoders batch
      by_cases member : id ∈ (first :: rest).map Task.id
      · obtain ⟨chosen, inside, same⟩ := List.mem_map.mp member
        exact same ▸ dispatched chosen inside
      · refine (ih _ (size ▸ ?_) restedNext (kept id task row member) (clock ▸ early) rfl).earlier
          path
        rw [clock]
        exact fewer

/-! ### Coming to rest -/

theorem exists_upper (instants : List Instant) : ∃ bound, ∀ instant ∈ instants, instant ≤ bound := by
  induction instants with
  | nil => exact ⟨0, by simp⟩
  | cons first rest ih =>
      obtain ⟨bound, above⟩ := ih
      refine ⟨max first bound, fun instant member => ?_⟩
      rcases List.mem_cons.mp member with rfl | member
      · exact le_max_left _ _
      · exact (above instant member).trans (le_max_right _ _)

private theorem below_late {instant bound : Int} (below : instant ≤ bound) :
    instant < bound + STALE_RECOVERY_INTERVAL + 1 ∧
      instant < bound + STALE_RECOVERY_INTERVAL + 1 - STALE_RECOVERY_INTERVAL := by
  simp only [STALE_RECOVERY_INTERVAL]
  omega

/-- Late enough, every row in progress is stale, the lock free and every task due. -/
theorem exists_late (state : State) : ∃ late, state.now ≤ late ∧ holder state.lock late = none ∧
    ∀ task ∈ state.tasks.rows, task.nextRunAt ≤ late ∧
      (task.status = .inProgress → task.startedAt ≠ none → stale late task = true) := by
  obtain ⟨bound, above⟩ := exists_upper (state.now :: (state.lock.map Lease.expiresAt).toList ++
    state.tasks.rows.map Task.nextRunAt ++ state.tasks.rows.filterMap Task.startedAt)
  refine ⟨bound + STALE_RECOVERY_INTERVAL + 1, ?_, ?_, fun task member => ⟨?_, ?_⟩⟩
  · exact Int.le_of_lt (below_late (above state.now (by simp))).1
  · cases held : state.lock with
    | none => rfl
    | some lease =>
        have expired := below_late (above lease.expiresAt (by simp [held]))
        have dead : lease.live (bound + STALE_RECOVERY_INTERVAL + 1) = false :=
          decide_eq_false (Int.not_lt.mpr (Int.le_of_lt expired.1))
        rw [holder, Option.filter_some, dead]
        rfl
  · refine Int.le_of_lt (below_late (above task.nextRunAt ?_)).1
    simp only [List.mem_append, List.mem_map]
    exact .inl (.inr ⟨task, member, rfl⟩)
  · intro running started
    obtain ⟨startedAt, stamp⟩ := Option.ne_none_iff_exists'.mp started
    have old := below_late (above startedAt (by
      simp only [List.mem_append, List.mem_filterMap]
      exact .inr ⟨task, member, stamp⟩))
    simp only [stale, running, stamp, decide_true, Bool.true_and, Option.any_some]
    exact decide_eq_true old.2

/-- Every state comes to rest, with any task that has not ended due. -/
theorem rests_of_stamped (stamped : Stamped state) {id : TaskId} {task : Task}
    (row : state.tasks.find? id = some task) (alive : task.status.terminal = false) :
    ∃ next, Reaches (step decoders) Recovery state next ∧ Rested next ∧
      ∃ current, next.tasks.find? id = some current ∧ current.status = .pending ∧
        current.nextRunAt ≤ next.now := by
  obtain ⟨late, later, unlocked, ripe⟩ := exists_late state
  have idle : ∀ id current, (resetStale state.tasks late).find? id = some current →
      current.status ≠ .inProgress := by
    intro id current found running
    rw [find?_resetStale] at found
    obtain ⟨source, lookup, same⟩ := Option.map_eq_some_iff.mp found
    split at same
    · rw [← same] at running
      contradiction
    · rename_i fresh
      subst same
      exact fresh ((ripe source (Table.mem_of_find? lookup)).2 running
        (stamped.started id source lookup running))
  have waited : step decoders state (.advance late) = some { state with now := late } :=
    if_pos later
  have reset : step decoders { state with now := late } .resetStale =
      some { state with now := late, tasks := resetStale state.tasks late } := rfl
  obtain ⟨runs, drained⟩ := @drain decoders
    { state with now := late, tasks := resetStale state.tasks late } _ rfl idle
  have aged : Reaches (step decoders) Recovery state { state with now := late } :=
    .single (.advance late) trivial waited
  refine ⟨_, (aged.andThen .resetStale trivial reset).trans drained, ⟨rfl, unlocked, idle⟩, ?_⟩
  have ready := ripe task (Table.mem_of_find? row)
  refine ⟨_, (find?_resetStale _ _ _).trans (by rw [row, Option.map_some]), ?_, ?_⟩
  · cases status : task.status with
    | pending => split <;> first | rfl | exact status
    | inProgress => rw [if_pos (ready.2 status (stamped.started id task row status))]
    | completed => rw [status] at alive; cases alive
    | deadLetter => rw [status] at alive; cases alive
  · split <;> exact ready.1

variable {decoders}

/-- A task that has not ended is pending, or in progress with a start time, and
the workers can bring it to its handler. -/
theorem task_recoverable {now : Instant} {task : Task}
    (reached : Reaches (step decoders) Anything (State.initial now) state)
    (row : task ∈ state.tasks.rows) (alive : task.status ≠ .completed ∧ task.status ≠ .deadLetter) :
    (task.status = .pending ∨ task.status = .inProgress ∧ task.startedAt ≠ none) ∧
      Recoverable decoders state task.id := by
  have stamped := stamped_of_reaches reached
  have found := Table.find?_of_mem row
  refine ⟨?_, ?_⟩
  · cases status : task.status with
    | pending => exact .inl rfl
    | inProgress => exact .inr ⟨rfl, stamped.started task.id task found status⟩
    | completed => exact absurd status alive.1
    | deadLetter => exact absurd status alive.2
  · have living : task.status.terminal = false := by
      cases status : task.status <;> simp_all [TaskStatus.terminal]
    obtain ⟨next, path, rested, current, lookup, pending, early⟩ :=
      rests_of_stamped decoders stamped found living
    exact (rested.recoverable decoders lookup pending early).earlier path

/-- A sweep task whose poller crashed between marking and publishing it. -/
private def strandedTask : Task :=
  { buildPendingTask (CleanupStaleVideosTaskMetadata.mk) none ⟨.ofNat 7⟩ none 0 with
    status := .inProgress, startedAt := some 0, updatedAt := 0 }

private def strandedState : State where
  now := 0
  tasks := ⟨[strandedTask], by decide⟩
  queue := []
  lock := some ⟨⟨0⟩, 30000⟩
  issued := 1
  polls := [.crashed]
  runs := []

private def sweepDecoders : Decoders where
  processVideo _ := .error "unused"
  deleteVideo _ := .error "unused"
  cleanupStaleVideos
    | .null => .ok ⟨⟩
    | _ => .error "invalid type"

private theorem strandedState_reached :
    Reaches (step sweepDecoders) Anything (State.initial 0) strandedState :=
  reaches_of_run [.create (buildPendingTask (CleanupStaleVideosTaskMetadata.mk) none ⟨.ofNat 7⟩ none 0),
    .startPoll, .poll 0 .none, .poll 0 .none, .poll 0 .none, .poll 0 .none, .crashPoll 0] rfl

theorem task_recoverable_stranded :
    (strandedTask.status = .pending ∨
        strandedTask.status = .inProgress ∧ strandedTask.startedAt ≠ none) ∧
      Recoverable sweepDecoders strandedState strandedTask.id :=
  task_recoverable strandedState_reached (List.mem_singleton_self _) (by decide)

end Benri.Worker
