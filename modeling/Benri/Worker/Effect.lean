import Benri.Worker.System

namespace Benri.Worker

open Benri.Data Benri.Domain Benri.Postgres Benri.Redis Benri.Transition

/-! # What a step can do

`PollEffect` and `Effect` list the possible outcomes of a step without the call
results and faults that lead to them.  Every invariant below is one case
analysis of them; the step function itself is unfolded here only.
-/

/-- A statement that took effect or did not. -/
def Perhaps {Value : Type} (before after reached : Value) : Prop :=
  reached = before ∨ reached = after

/-- The lock key is held as before, or under the token about to be drawn. -/
def LockedAnew (state : State) (lock : Option Lease) : Prop :=
  ∀ lease, holder lock state.now = some lease →
    holder state.lock state.now = some lease ∨ lease.token = ⟨state.issued⟩

inductive PollEffect (state : State) : PollPhase → State → PollPhase → Prop where
  | acquired (lock : Option Lease) (anew : LockedAnew state lock) :
      PollEffect state .acquire { state with issued := state.issued + 1, lock }
        (.acquired ⟨state.issued⟩)
  | denied (lock : Option Lease) (result : Except String Unit) (anew : LockedAnew state lock) :
      PollEffect state .acquire { state with issued := state.issued + 1, lock }
        (.finished result)
  | clock (token : LockToken) :
      PollEffect state (.acquired token) state (.findPending token state.now)
  | nothing (token : LockToken) (now : Instant) (result : Except String Unit) :
      PollEffect state (.findPending token now) state (.release token result)
  | found (token : LockToken) (now : Instant) :
      PollEffect state (.findPending token now) state
        (.markInProgress token now ((findPending state.tasks BATCH_SIZE now).map Task.id))
  | marked (token : LockToken) (now : Instant) (ids : List TaskId) :
      PollEffect state (.markInProgress token now ids)
        { state with tasks := markInProgress state.tasks ids now } (.publish token ids)
  | markFailed (token : LockToken) (now : Instant) (ids : List TaskId) (tasks : TaskTable)
      (perhaps : Perhaps state.tasks (markInProgress state.tasks ids now) tasks)
      (result : Except String Unit) :
      PollEffect state (.markInProgress token now ids) { state with tasks }
        (.release token result)
  | published (token : LockToken) (ids queue : List TaskId)
      (perhaps : Perhaps state.queue (state.queue ++ ids) queue) (result : Except String Unit) :
      PollEffect state (.publish token ids) { state with queue } (.release token result)
  | released (token : LockToken) (lock : Option Lease) (result : Except String Unit)
      (freed : ∀ lease, holder lock state.now = some lease →
        holder state.lock state.now = some lease) :
      PollEffect state (.release token result) { state with lock } (.finished result)

inductive Effect (decoders : Decoders) (before : State) : Event → State → Prop where
  | advance (now : Instant) (later : before.now ≤ now) :
      Effect decoders before (.advance now) { before with now }
  | create (task : Task) (tasks : TaskTable) (fresh : task.isNew = true)
      (inserted : before.tasks.insert? task = some tasks) :
      Effect decoders before (.create task) { before with tasks }
  | startPoll :
      Effect decoders before .startPoll { before with polls := before.polls ++ [.acquire] }
  | poll (index : Nat) (fault : Fault) (phase next : PollPhase) (reached : State)
      (slot : before.polls[index]? = some phase)
      (effect : PollEffect before phase reached next) :
      Effect decoders before (.poll index fault) (reached.setPoll index next)
  | crashPoll (index : Nat) :
      Effect decoders before (.crashPoll index) (before.setPoll index .crashed)
  | popped (fault : Fault) (id : TaskId) (rest : List TaskId) (head : before.queue = id :: rest) :
      Effect decoders before (.pop fault)
        { before with queue := rest, runs := before.runs ++ [⟨id, .fetch⟩] }
  | popFailed (fault : Fault) (id : TaskId) (rest queue : List TaskId)
      (head : before.queue = id :: rest) (perhaps : Perhaps before.queue rest queue) :
      Effect decoders before (.pop fault) { before with queue }
  | dispatched (index : Nat) (fault : Fault) (id : TaskId) (task : Task) (phase : RunPhase)
      (slot : before.runs[index]? = some ⟨id, .fetch⟩)
      (row : before.tasks.find? id = some task) (running : task.status = .inProgress)
      (routed : match route decoders task with
        | .ok metadata => phase = .handling task metadata before.now
        | .error error => phase = .write (deadLetterOutcome task error before.now)) :
      Effect decoders before (.fetch index fault) (before.setRun index ⟨id, phase⟩)
  | skipped (index : Nat) (fault : Fault) (id : TaskId)
      (slot : before.runs[index]? = some ⟨id, .fetch⟩) :
      Effect decoders before (.fetch index fault) (before.setRun index ⟨id, .finished⟩)
  | handled (index : Nat) (event : Event) (id : TaskId) (task : Task)
      (metadata : RegisteredMetadata) (since : Instant) (result : TaskResult)
      (slot : before.runs[index]? = some ⟨id, .handling task metadata since⟩)
      (ending : event = .finish index result ∨ event = .timeout index) :
      Effect decoders before event
        (before.setRun index ⟨id, .write (metadata.computeUpdate task result before.now)⟩)
  | written (index : Nat) (fault : Fault) (id : TaskId) (outcome : TaskRunOutcome)
      (tasks : TaskTable) (slot : before.runs[index]? = some ⟨id, .write outcome⟩)
      (perhaps : Perhaps before.tasks (batchUpdate before.tasks [outcome.update]) tasks) :
      Effect decoders before (.write index fault)
        (({ before with tasks } : State).setRun index ⟨id, .finished⟩)
  | crashRun (index : Nat) (run : Run) (slot : before.runs[index]? = some run) :
      Effect decoders before (.crashRun index) (before.setRun index ⟨run.taskId, .crashed⟩)
  | resetStale :
      Effect decoders before .resetStale
        { before with tasks := resetStale before.tasks before.now }
  | wipeQueue : Effect decoders before .wipeQueue { before with queue := [] }

variable {decoders : Decoders} {before after : State} {event : Event}

theorem acquireStep_effect (state : State) (fault : Fault) :
    PollEffect state .acquire (acquireStep state fault).1 (acquireStep state fault).2 := by
  have anew : LockedAnew state
      (Redis.acquire state.lock ⟨state.issued⟩ LOCK_TTL_SECS state.now).1 :=
    fun lease held => holder_acquire held
  simp only [acquireStep]
  cases fault with
  | none =>
      simp only [attempt_none]
      cases held : holder state.lock state.now <;> simp only [Redis.acquire, held] at anew ⊢
      · exact .acquired _ anew
      · exact .denied _ _ anew
  | error applied message =>
      cases applied
      · exact .denied state.lock _ fun lease held => .inl held
      · exact .denied _ _ anew

theorem findPendingStep_effect (state : State) (fault : Fault) (token : LockToken)
    (now : Instant) :
    PollEffect state (.findPending token now) state (findPendingStep state fault token now) := by
  cases fault with
  | none =>
      simp only [findPendingStep, attempt_none]
      cases found : findPending state.tasks BATCH_SIZE now with
      | nil => exact .nothing token now _
      | cons first rest =>
          have effect : PollEffect state (.findPending token now) state _ := .found token now
          rw [found] at effect
          exact effect
  | error applied message => exact .nothing token now _

theorem markInProgressStep_effect (state : State) (fault : Fault) (token : LockToken)
    (now : Instant) (ids : List TaskId) :
    PollEffect state (.markInProgress token now ids) (markInProgressStep state fault token now ids).1
      (markInProgressStep state fault token now ids).2 := by
  cases fault with
  | none => exact .marked token now ids
  | error applied message =>
      cases applied
      · exact .markFailed token now ids _ (.inl rfl) _
      · exact .markFailed token now ids _ (.inr rfl) _

theorem publishStep_effect (state : State) (fault : Fault) (token : LockToken)
    (ids : List TaskId) :
    PollEffect state (.publish token ids) (publishStep state fault token ids).1
      (publishStep state fault token ids).2 := by
  cases fault with
  | none => exact .published token ids _ (.inr rfl) _
  | error applied message =>
      cases applied
      · exact .published token ids _ (.inl rfl) _
      · exact .published token ids _ (.inr rfl) _

theorem releaseStep_effect (state : State) (fault : Fault) (token : LockToken)
    (result : Except String Unit) :
    PollEffect state (.release token result) (releaseStep state fault token result).1
      (releaseStep state fault token result).2 := by
  cases fault with
  | none => exact .released token _ result fun lease held => holder_release held
  | error applied message =>
      cases applied
      · exact .released token state.lock result fun lease held => held
      · exact .released token _ result fun lease held => holder_release held

private theorem PollEffect.of_pair {state reached : State} {phase next : PollPhase}
    {pair : State × PollPhase} (effect : PollEffect state phase pair.1 pair.2)
    (same : some pair = some (reached, next)) : PollEffect state phase reached next := by
  cases same
  exact effect

theorem pollStep_effect {state reached : State} {fault : Fault} {phase next : PollPhase}
    (stepped : pollStep state fault phase = some (reached, next)) :
    PollEffect state phase reached next := by
  cases phase with
  | acquire => exact (acquireStep_effect state fault).of_pair stepped
  | acquired token => cases stepped; exact .clock token
  | findPending token now =>
      exact (findPendingStep_effect state fault token now).of_pair stepped
  | markInProgress token now ids =>
      exact (markInProgressStep_effect state fault token now ids).of_pair stepped
  | publish token ids => exact (publishStep_effect state fault token ids).of_pair stepped
  | release token result =>
      exact (releaseStep_effect state fault token result).of_pair stepped
  | finished result => cases stepped
  | crashed => cases stepped

theorem popStep_effect {fault : Fault} (stepped : popStep before fault = some after) :
    Effect decoders before (.pop fault) after := by
  cases queue : before.queue with
  | nil => simp [popStep, queue] at stepped
  | cons id rest =>
      simp only [popStep, queue] at stepped
      cases fault with
      | none => cases stepped; exact .popped .none id rest queue
      | error applied message =>
          cases stepped
          cases applied
          · exact .popFailed _ id rest before.queue queue (.inl rfl)
          · exact .popFailed _ id rest _ queue (.inr rfl)

/-- An event of one run goes through exactly when the run's phase admits it. -/
theorem runEvent_eq_some {index : Nat} {next : Run → Option (State × RunPhase)}
    (stepped : runEvent before index next = some after) :
    ∃ run reached phase, before.runs[index]? = some run ∧ next run = some (reached, phase) ∧
      after = reached.setRun index ⟨run.taskId, phase⟩ := by
  obtain ⟨run, slot, mapped⟩ := Option.bind_eq_some_iff.mp stepped
  obtain ⟨⟨reached, phase⟩, moved, rfl⟩ := Option.map_eq_some_iff.mp mapped
  exact ⟨run, reached, phase, slot, moved, rfl⟩

theorem fetchRun_effect {index : Nat} {fault : Fault}
    (stepped : runEvent before index (fetchRun decoders before fault) = some after) :
    Effect decoders before (.fetch index fault) after := by
  obtain ⟨⟨id, phase⟩, reached, next, slot, moved, rfl⟩ := runEvent_eq_some stepped
  cases phase <;> simp only [fetchRun, reduceCtorEq] at moved
  cases moved
  cases fault with
  | error applied message => exact .skipped index _ id slot
  | none =>
      cases row : before.tasks.find? id with
      | none =>
          simp only [fetchStep, attempt_none, row]
          exact .skipped index _ id slot
      | some task =>
          simp only [fetchStep, attempt_none, row]
          split
          · rename_i running
            refine .dispatched index _ id task _ slot row running ?_
            cases route decoders task <;> rfl
          · exact .skipped index _ id slot

theorem step_effect (stepped : step decoders before event = some after) :
    Effect decoders before event after := by
  cases event with
  | advance now =>
      simp only [step] at stepped
      split at stepped
      · cases stepped; exact .advance now ‹_›
      · contradiction
  | create task =>
      simp only [step] at stepped
      split at stepped
      · obtain ⟨tasks, inserted, rfl⟩ := Option.map_eq_some_iff.mp stepped
        exact .create task tasks ‹_› inserted
      · contradiction
  | startPoll => cases stepped; exact .startPoll
  | poll index fault =>
      obtain ⟨phase, slot, mapped⟩ := Option.bind_eq_some_iff.mp stepped
      obtain ⟨⟨reached, next⟩, moved, rfl⟩ := Option.map_eq_some_iff.mp mapped
      exact .poll index fault phase next reached slot (pollStep_effect moved)
  | crashPoll index => cases stepped; exact .crashPoll index
  | pop fault => exact popStep_effect stepped
  | fetch index fault => exact fetchRun_effect stepped
  | finish index result =>
      obtain ⟨⟨id, phase⟩, reached, next, slot, moved, rfl⟩ := runEvent_eq_some stepped
      cases phase <;> simp only [finishRun, reduceCtorEq] at moved
      cases moved
      exact .handled index _ id _ _ _ result slot (.inl rfl)
  | timeout index =>
      obtain ⟨⟨id, phase⟩, reached, next, slot, moved, rfl⟩ := runEvent_eq_some stepped
      cases phase <;> simp only [timeoutRun, reduceCtorEq] at moved
      split at moved
      · cases moved
        exact .handled index _ id _ _ _ _ slot (.inr rfl)
      · contradiction
  | write index fault =>
      obtain ⟨⟨id, phase⟩, reached, next, slot, moved, rfl⟩ := runEvent_eq_some stepped
      cases phase <;> simp only [writeRun, reduceCtorEq] at moved
      rename_i outcome
      cases moved
      cases fault with
      | none => exact .written index _ id outcome _ slot (.inr rfl)
      | error applied message =>
          cases applied
          · exact .written index _ id outcome before.tasks slot (.inl rfl)
          · exact .written index _ id outcome _ slot (.inr rfl)
  | crashRun index =>
      obtain ⟨run, reached, phase, slot, moved, rfl⟩ := runEvent_eq_some stepped
      cases moved
      exact .crashRun index run slot
  | resetStale => cases stepped; exact .resetStale
  | wipeQueue => cases stepped; exact .wipeQueue

end Benri.Worker
