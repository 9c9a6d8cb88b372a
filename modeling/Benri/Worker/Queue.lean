import Benri.Transition.History
import Benri.Worker.Effect

namespace Benri.Worker

open Benri.Data Benri.Domain Benri.Postgres Benri.Redis Benri.Transition

/-! # The queue is first in, first out

`RedisTaskPublisher::publish` pushes a batch by one `LPUSH` and
`RedisTaskConsumer::pop` takes one id by `RPOP`.  Whatever the poll cycles and the
consumers do in between, ids leave the queue in the order they came.
-/

variable {decoders : Decoders} {state before after : State} {event : Event}

/-- What a step puts on the queue. -/
def publishedBy (state : State) : Event → List TaskId
  | .poll index fault =>
      match state.polls[index]? with
      | some (.publish _ ids) => if fault.applies then ids else []
      | _ => []
  | _ => []

/-- What a step takes off it, for a run or for nobody. -/
def takenBy (state : State) : Event → List TaskId
  | .pop fault => if fault.applies then state.queue.take 1 else []
  | .wipeQueue => state.queue
  | _ => []

/-- What a step starts a run for. -/
def startedBy (state : State) : Event → List TaskId
  | .pop .none => state.queue.take 1
  | _ => []

/-- The ids that came and went, in order, and how many of them went to nobody. -/
structure QueueLog where
  published : List TaskId
  taken : List TaskId
  lost : Nat

def QueueLog.empty : QueueLog where
  published := []
  taken := []
  lost := 0

def noteQueue (state : State) (event : Event) (log : QueueLog) : QueueLog where
  published := log.published ++ publishedBy state event
  taken := log.taken ++ takenBy state event
  lost := log.lost + ((takenBy state event).length - (startedBy state event).length)

def started (state : State) : List TaskId := state.runs.map Run.taskId

/-! ## One step -/

theorem publishStep_queue (state : State) (fault : Fault) (token : LockToken)
    (ids : List TaskId) :
    (publishStep state fault token ids).1.queue =
      state.queue ++ if fault.applies then ids else [] := by
  cases fault with
  | none => rfl
  | error applied message => cases applied <;> simp [publishStep, attempt, Fault.applies]

theorem PollEffect.queue_kept {reached : State} {phase next : PollPhase}
    (effect : PollEffect state phase reached next)
    (other : ∀ token ids, phase ≠ .publish token ids) : reached.queue = state.queue := by
  cases effect with
  | published token ids queue perhaps result => exact absurd rfl (other token ids)
  | _ => rfl

theorem PollEffect.runs_kept {reached : State} {phase next : PollPhase}
    (effect : PollEffect state phase reached next) : reached.runs = state.runs := by
  cases effect <;> rfl

theorem pollStep_queue {fault : Fault} {phase next : PollPhase} {reached : State} {index : Nat}
    (slot : state.polls[index]? = some phase)
    (stepped : pollStep state fault phase = some (reached, next)) :
    reached.queue = state.queue ++ publishedBy state (.poll index fault) := by
  by_cases publishing : ∃ token ids, phase = .publish token ids
  · obtain ⟨token, ids, rfl⟩ := publishing
    have answer : (publishStep state fault token ids).1 = reached :=
      congrArg Prod.fst (Option.some.inj stepped)
    rw [← answer, publishStep_queue]
    simp only [publishedBy, slot]
  · rw [not_exists] at publishing
    have kept := (pollStep_effect stepped).queue_kept fun token ids same =>
      publishing token ⟨ids, same⟩
    rw [kept]
    cases phase with
    | publish token ids => exact absurd ⟨ids, rfl⟩ (publishing token)
    | _ => simp [publishedBy, slot]

theorem popStep_queue {fault : Fault} (stepped : popStep state fault = some after) :
    state.queue = takenBy state (.pop fault) ++ after.queue ∧
      started after = started state ++ startedBy state (.pop fault) ∧
      startedBy state (.pop fault) <+: takenBy state (.pop fault) := by
  cases queue : state.queue with
  | nil => simp [popStep, queue] at stepped
  | cons id rest =>
      simp only [popStep, queue] at stepped
      cases fault with
      | none =>
          cases stepped
          simp [takenBy, startedBy, started, Fault.applies, queue]
      | error applied message =>
          cases stepped
          cases applied <;> simp [takenBy, startedBy, started, Fault.applies, queue]

/-- A run keeps its task. -/
theorem started_setRun {index : Nat} {id : TaskId} {old phase : RunPhase}
    (slot : state.runs[index]? = some ⟨id, old⟩) :
    started (state.setRun index ⟨id, phase⟩) = started state := by
  obtain ⟨bound, found⟩ := List.getElem?_eq_some_iff.mp slot
  have inside : index < (state.runs.map Run.taskId).length := by simpa using bound
  have same : (state.runs.map Run.taskId)[index] = id := by rw [List.getElem_map, found]
  rw [started, State.setRun, List.map_set]
  simp only [← same, List.set_getElem_self, started]

/-- Any other step leaves the queue alone, and starts no run. -/
theorem Effect.queue_kept (effect : Effect decoders state event after)
    (poll : ∀ index fault, event ≠ .poll index fault) (pop : ∀ fault, event ≠ .pop fault)
    (wipe : event ≠ .wipeQueue) : after.queue = state.queue ∧ started after = started state := by
  cases effect with
  | poll index fault phase next reached slot effect => exact absurd rfl (poll index fault)
  | popped fault id rest head => exact absurd rfl (pop fault)
  | popFailed fault id rest queue head perhaps => exact absurd rfl (pop fault)
  | wipeQueue => exact absurd rfl wipe
  | dispatched index fault id task phase slot row running routed =>
      exact ⟨rfl, started_setRun slot⟩
  | skipped index fault id slot => exact ⟨rfl, started_setRun slot⟩
  | handled index event id task metadata since result slot ending =>
      exact ⟨rfl, started_setRun slot⟩
  | written index fault id outcome tasks slot perhaps =>
      have kept : started (State.setRun { state with tasks } index ⟨id, .finished⟩) =
          started { state with tasks } := started_setRun slot
      exact ⟨rfl, kept⟩
  | crashRun index run slot => exact ⟨rfl, started_setRun slot⟩
  | _ => exact ⟨rfl, rfl⟩

/-- What was there and what came is what went and what is there. -/
theorem step_queue (stepped : step decoders state event = some after) :
    state.queue ++ publishedBy state event = takenBy state event ++ after.queue ∧
      started after = started state ++ startedBy state event ∧
      startedBy state event <+: takenBy state event := by
  cases event with
  | poll index fault =>
      obtain ⟨phase, slot, mapped⟩ := Option.bind_eq_some_iff.mp stepped
      obtain ⟨⟨reached, next⟩, moved, rfl⟩ := Option.map_eq_some_iff.mp mapped
      refine ⟨(pollStep_queue slot moved).symm, ?_, List.prefix_rfl⟩
      have kept := (pollStep_effect moved).runs_kept
      simp [started, startedBy, State.setPoll, kept]
  | pop fault =>
      obtain ⟨queue, runs, starts⟩ := popStep_queue stepped
      exact ⟨by simpa [publishedBy] using queue, runs, starts⟩
  | wipeQueue =>
      cases stepped
      simp [publishedBy, takenBy, startedBy, started]
  | _ =>
      obtain ⟨queue, runs⟩ := (step_effect stepped).queue_kept nofun nofun nofun
      simp [publishedBy, takenBy, startedBy, queue, runs]

/-! ## Every run -/

/-- In every run, whatever fails: what was published is what was taken, in that order, and
what is still waiting; runs are started for ids in the order they were published, and for
each id at most as often.  Unless a pop loses its answer or the queue is wiped, everything
published was started or is waiting. -/
theorem queue_fifo {now : Instant} {log : QueueLog}
    {allowed : State → Event → Prop}
    (recalls : Recalls (step decoders) allowed noteQueue (State.initial now, .empty) state log) :
    log.published = log.taken ++ state.queue ∧ (started state).Sublist log.taken ∧
      log.taken.length = (started state).length + log.lost ∧
      (∀ id, (started state).count id ≤ log.published.count id) ∧
      (log.lost = 0 → log.published = started state ++ state.queue) := by
  obtain ⟨order, starts, lengths⟩ : log.published = log.taken ++ state.queue ∧
      (started state).Sublist log.taken ∧
      log.taken.length = (started state).length + log.lost := by
    refine recalls.preserves (fun state log => log.published = log.taken ++ state.queue ∧
      (started state).Sublist log.taken ∧
      log.taken.length = (started state).length + log.lost) ⟨rfl, List.Sublist.refl _, rfl⟩ ?_
    intro before after event log ⟨order, starts, lengths⟩ _ stepped
    obtain ⟨queue, runs, fewer⟩ := step_queue stepped
    have shorter := fewer.length_le
    refine ⟨?_, ?_, ?_⟩
    · simp only [noteQueue, order, List.append_assoc, queue]
    · rw [runs]
      exact starts.append fewer.sublist
    · rw [runs]
      simp only [noteQueue, List.length_append]
      omega
  refine ⟨order, starts, lengths, fun id => ?_, fun none => ?_⟩
  · rw [order, List.count_append]
    exact (starts.count_le id).trans (Nat.le_add_right _ _)
  · rw [order, starts.eq_of_length_le (by omega)]

private def queuedSweep (serial : Nat) : Task :=
  buildPendingTask CleanupStaleVideosTaskMetadata.mk none ⟨.ofNat serial⟩ none serial

private def noDecoder : Decoders := ⟨fun _ => .error "", fun _ => .error "", fun _ => .error ""⟩

/-- A poll publishes one task, and a pop starts it. -/
theorem queue_fifo_sweep : ∃ state log,
    Recalls (step noDecoder) Anything noteQueue (State.initial 0, .empty) state log ∧
      log.published = started state ++ state.queue ∧ started state = [⟨.ofNat 7⟩] := by
  have passed : ((run (recalling (step noDecoder) noteQueue) (permitting Anything)
      (State.initial 0, .empty) [.create (queuedSweep 7), .advance 7, .startPoll, .poll 0 .none,
        .poll 0 .none, .poll 0 .none, .poll 0 .none, .poll 0 .none, .poll 0 .none,
        .pop .none]).map fun world =>
          decide (started world.1 = [⟨.ofNat 7⟩] ∧ world.2.lost = 0)) = some true := by rfl
  obtain ⟨⟨state, log⟩, ran, checked⟩ := reaches_of_check _ passed
  obtain ⟨starts, none⟩ := of_decide_eq_true checked
  exact ⟨state, log, ran, (queue_fifo ran).2.2.2.2 none, starts⟩

end Benri.Worker
