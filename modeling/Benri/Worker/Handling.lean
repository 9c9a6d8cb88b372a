import Benri.Worker.Exclusion

namespace Benri.Worker

open Benri.Data Benri.Domain Benri.Postgres Benri.Redis Benri.Transition

/-! # Running handlers and ended rows

Both guarantees hold in orderly runs and fail outside them: stale recovery looks
at `started_at` alone, and a video may be processed for two hours while a row
counts as stale after one; and no statement of the task repository looks at the
status it overwrites.
-/

variable {decoders : Decoders} {state later : State} {event : Event}

/-- The run in a slot has a handler running for a task. -/
def Handling (state : State) (index : Nat) (task : Task) : Prop :=
  ∃ id metadata since, state.runs[index]? = some ⟨id, .handling task metadata since⟩

/-- No two runs handle one task, or tasks of one ordering key. -/
def HandlersExclude (state : State) : Prop :=
  ∀ first second left right, Handling state first left → Handling state second right →
    left.id = right.id ∨ (left.orderingKey ≠ none ∧ left.orderingKey = right.orderingKey) →
    first = second

/-- The handler of a run has not outlived its timeout. -/
def Run.InTime (now : Instant) (run : Run) : Prop :=
  match run.phase with
  | .handling _ metadata since => now ≤ deadline metadata since
  | .fetch | .write _ | .finished | .crashed => True

instance (now : Instant) (run : Run) : Decidable (run.InTime now) :=
  match run with
  | ⟨_, .handling _ metadata since⟩ => inferInstanceAs (Decidable (now ≤ deadline metadata since))
  | ⟨_, .fetch⟩ | ⟨_, .write _⟩ | ⟨_, .finished⟩ | ⟨_, .crashed⟩ => .isTrue trivial

/-- At `now` every poll cycle would still work under its own live lease. -/
def LeasesLive (state : State) (now : Instant) : Prop :=
  ∀ poll ∈ state.polls, ∀ token ∈ poll.tokens,
    (holder state.lock now).map Lease.token = some token

instance (state : State) (now : Instant) : Decidable (LeasesLive state now) :=
  inferInstanceAs (Decidable (∀ poll ∈ state.polls, ∀ token ∈ poll.tokens,
    (holder state.lock now).map Lease.token = some token))

/-- No lease expires while held, and handlers end by their timeout. -/
def Timely (state : State) : Event → Prop
  | .advance now => LeasesLive state now ∧ ∀ run ∈ state.runs, run.InTime now
  | _ => LeasesLive state state.now

instance (state : State) (event : Event) : Decidable (Timely state event) :=
  match event with
  | .advance now =>
      inferInstanceAs (Decidable (LeasesLive state now ∧ ∀ run ∈ state.runs, run.InTime now))
  | .create _ | .startPoll | .poll _ _ | .crashPoll _ | .pop _ | .fetch _ _ | .finish _ _
  | .timeout _ | .write _ _ | .crashRun _ | .resetStale | .wipeQueue =>
      inferInstanceAs (Decidable (LeasesLive state state.now))

/-- Timely runs in which stale recovery leaves alone what is in flight. -/
def Undisturbed (state : State) (event : Event) : Prop :=
  Timely state event ∧ ResetsNothingInFlight state event

instance (state : State) (event : Event) : Decidable (Undisturbed state event) :=
  inferInstanceAs (Decidable (_ ∧ _))

/-- A poll cycle that marks rows does so under its own lease. -/
theorem LeasesLive.slot (live : LeasesLive state state.now) (index : Nat) :
    LeasedSlot state state.polls[index]? := by
  cases slot : state.polls[index]? with
  | none => trivial
  | some poll =>
      cases poll with
      | markInProgress token now ids =>
          exact live _ (List.mem_of_getElem? slot) token (List.mem_singleton_self _)
      | _ => trivial

theorem Timely.marksUnderLease (timely : Timely state event) : MarksUnderLease state event := by
  cases event with
  | poll index fault => exact LeasesLive.slot timely index
  | _ => trivial

theorem Exclusive.handlersExclude (exclusive : Exclusive state) : HandlersExclude state := by
  rintro first second left right ⟨leftId, leftMetadata, leftSince, leftSlot⟩
    ⟨rightId, rightMetadata, rightSince, rightSlot⟩ clash
  have leftMember := List.mem_of_getElem? leftSlot
  have rightMember := List.mem_of_getElem? rightSlot
  have leftOwn : left.id = leftId := exclusive.ordered.addressed _ leftMember
  have rightOwn : right.id = rightId := exclusive.ordered.addressed _ rightMember
  have leftHolds : leftId ∈ (Run.mk leftId (.handling left leftMetadata leftSince)).holding :=
    List.mem_singleton_self _
  have rightHolds : rightId ∈ (Run.mk rightId (.handling right rightMetadata rightSince)).holding :=
    List.mem_singleton_self _
  have flying : ∀ {id : TaskId} {run : Run}, run ∈ state.runs → id ∈ run.holding →
      0 < copies state id := by
    intro id run member holds
    have counted := List.count_pos_iff.mpr (mem_gather.mpr ⟨run, member, holds⟩)
    simp only [copies]
    omega
  have same : leftId = rightId := by
    rcases clash with ids | ⟨keyed, keys⟩
    · rw [← leftOwn, ← rightOwn, ids]
    · obtain ⟨leftRow, leftFound, leftRunning⟩ := exclusive.started _ (flying leftMember leftHolds)
      obtain ⟨rightRow, rightFound, rightRunning⟩ :=
        exclusive.started _ (flying rightMember rightHolds)
      obtain ⟨_, leftAgain, leftKey⟩ := exclusive.snapshots _ leftMember
      obtain ⟨_, rightAgain, rightKey⟩ := exclusive.snapshots _ rightMember
      rw [leftFound] at leftAgain
      rw [rightFound] at rightAgain
      cases leftAgain
      cases rightAgain
      have leftName : leftRow.id = leftId := Table.key_of_find? leftFound
      have rightName : rightRow.id = rightId := Table.key_of_find? rightFound
      rw [← leftName, ← rightName]
      exact exclusive.ordered.sole leftRow rightRow ⟨leftName.symm ▸ leftFound, leftRunning⟩
        ⟨rightName.symm ▸ rightFound, rightRunning⟩ (leftKey ▸ keyed)
        (by rw [leftKey, rightKey, keys])
  by_contra different
  subst same
  have twice := two_le_count_gather different leftSlot rightSlot leftHolds rightHolds
  have bound := exclusive.once leftId
  simp only [copies] at bound
  omega

/-- Handlers exclude each other as long as stale recovery resets no task that is
in flight. -/
theorem handlersExclude_of_reaches {now : Instant}
    (reached : Reaches (step decoders) Undisturbed (State.initial now) state) :
    HandlersExclude state :=
  (exclusive_of_reaches (reached.mono fun _ _ permitted =>
    ⟨permitted.1.marksUnderLease, permitted.2⟩)).handlersExclude

/-! ## Ended rows -/

theorem Exclusive.terminal_step (exclusive : Exclusive state) (permitted : Orderly state event)
    (effect : Effect decoders state event later) {id : TaskId} {task : Task}
    (row : state.tasks.find? id = some task) (ended : task.status.terminal = true) :
    later.tasks.find? id = some task := by
  rcases exclusive.row_step permitted.2 effect row with
    same | ⟨running, _⟩ | ⟨index, fault, token, now, ids, rfl, slot, member, _⟩
  · exact same
  · rw [running] at ended
    cases ended
  · have leased := MarksUnderLease.leased permitted.1 slot
    obtain ⟨waiting, found, pending⟩ :=
      (exclusive.waiting _ (List.mem_of_getElem? slot) leased).2 id member
    rw [row] at found
    cases found
    rw [pending] at ended
    cases ended

/-- In an orderly run an ended row is not touched again. -/
theorem terminal_absorbing {now : Instant} {id : TaskId} {task : Task}
    (reached : Reaches (step decoders) Orderly (State.initial now) state)
    (onward : Reaches (step decoders) Orderly state later)
    (row : state.tasks.find? id = some task) (ended : task.status.terminal = true) :
    later.tasks.find? id = some task := by
  induction onward with
  | refl => exact row
  | tail path permitted stepped ih =>
      have earlier := reached.trans path
      exact (exclusive_of_reaches earlier).terminal_step permitted (step_effect stepped) ih ended

/-! ## Runs of one task -/

private def videoMetadata : ProcessVideoTaskMetadata := ⟨⟨.ofNat 1⟩⟩

private def videoTask : Task := buildPendingTask videoMetadata none ⟨.ofNat 7⟩ none 0

private def runningTask (startedAt : Instant) : Task :=
  { videoTask with status := .inProgress, startedAt := some startedAt, updatedAt := startedAt }

private def completedTask : Task :=
  { runningTask 0 with status := .completed, completedAt := some 0 }

private def videoDecoders : Decoders where
  processVideo
    | .object [("video_id", .string text)] =>
        if text = (Uuid.ofNat 1).text then .ok videoMetadata else .error "unknown id"
    | _ => .error "invalid type"
  deleteVideo _ := .error "unused"
  cleanupStaleVideos _ := .error "unused"

/-- A poll cycle without faults. -/
private def cycle (index : Nat) : List Event :=
  .startPoll :: List.replicate 6 (.poll index .none)

private def rerunVideo : State where
  now := 3600001
  tasks := ⟨[runningTask 3600001], by decide⟩
  queue := []
  lock := none
  issued := 2
  polls := [.finished (.ok ()), .finished (.ok ())]
  runs := [⟨⟨.ofNat 7⟩, .handling (runningTask 0) (.processVideo videoMetadata) 0⟩,
    ⟨⟨.ofNat 7⟩, .handling (runningTask 3600001) (.processVideo videoMetadata) 3600001⟩]

/-- An hour into processing a video the row is stale; it is reset, published and
handled a second time beside the first handler. -/
theorem rerunVideo_not_exclusive :
    Reaches (step videoDecoders) Timely (State.initial 0) rerunVideo ∧
      ¬ HandlersExclude rerunVideo := by
  refine ⟨reaches_of_run (.create videoTask :: cycle 0 ++
    [.pop .none, .fetch 0 .none, .advance 3600001, .resetStale] ++ cycle 1 ++
    [.pop .none, .fetch 1 .none]) rfl, fun exclude => ?_⟩
  have same := exclude 0 1 (runningTask 0) (runningTask 3600001) ⟨_, _, _, rfl⟩ ⟨_, _, _, rfl⟩
    (.inl rfl)
  contradiction

private def otherMetadata : ProcessVideoTaskMetadata := ⟨⟨.ofNat 2⟩⟩

/-- A second task for the same video, and a task for another one. -/
private def nextTask : Task := buildPendingTask videoMetadata none ⟨.ofNat 8⟩ none 0

private def otherTask : Task := buildPendingTask otherMetadata none ⟨.ofNat 9⟩ none 3600001

private def pairDecoders : Decoders where
  processVideo
    | .object [("video_id", .string text)] =>
        if text = (Uuid.ofNat 1).text then .ok videoMetadata
        else if text = (Uuid.ofNat 2).text then .ok otherMetadata
        else .error "unknown id"
    | _ => .error "invalid type"
  deleteVideo _ := .error "unused"
  cleanupStaleVideos _ := .error "unused"

private def startedOther : Task :=
  { otherTask with status := .inProgress, startedAt := some 3600001 }

private def handledVideos : State where
  now := 3600001
  tasks := ⟨[runningTask 3600001, nextTask, startedOther], by decide⟩
  queue := []
  lock := none
  issued := 2
  polls := [.finished (.ok ()), .finished (.ok ())]
  runs := [⟨⟨.ofNat 7⟩, .crashed⟩,
    ⟨⟨.ofNat 7⟩, .handling (runningTask 3600001) (.processVideo videoMetadata) 3600001⟩,
    ⟨⟨.ofNat 9⟩, .handling startedOther (.processVideo otherMetadata) 3600001⟩]

/-- The worker dies while it handles a video; an hour later the task is reset and handled
again beside another video, and a second task for the same video waits. -/
private theorem handledVideos_reached :
    Reaches (step pairDecoders) Undisturbed (State.initial 0) handledVideos :=
  reaches_of_run ([.create videoTask, .create nextTask] ++ cycle 0 ++
    [.pop .none, .fetch 0 .none, .crashRun 0, .advance 3600001, .resetStale,
      .create otherTask] ++ cycle 1 ++
    [.pop .none, .fetch 1 .none, .pop .none, .fetch 2 .none]) rfl

theorem handlersExclude_handledVideos :
    HandlersExclude handledVideos ∧ Handling handledVideos 1 (runningTask 3600001) ∧
      Handling handledVideos 2 startedOther :=
  ⟨handlersExclude_of_reaches handledVideos_reached, ⟨_, _, _, rfl⟩, ⟨_, _, _, rfl⟩⟩

private def completedVideo : State where
  now := 0
  tasks := ⟨[completedTask], by decide⟩
  queue := []
  lock := none
  issued := 1
  polls := [.finished (.ok ())]
  runs := [⟨⟨.ofNat 7⟩, .finished⟩]

private theorem completedVideo_reached :
    Reaches (step videoDecoders) Orderly (State.initial 0) completedVideo :=
  reaches_of_run (.create videoTask :: cycle 0 ++
    [.pop .none, .fetch 0 .none, .finish 0 (.success none none), .write 0 .none]) rfl

private def completedVideos : State where
  now := 3600001
  tasks := ⟨[completedTask,
    { nextTask with
      status := .completed, startedAt := some 0, completedAt := some 3600001,
      updatedAt := 3600001 }], by decide⟩
  queue := []
  lock := none
  issued := 2
  polls := [.finished (.ok ()), .finished (.ok ())]
  runs := [⟨⟨.ofNat 7⟩, .finished⟩, ⟨⟨.ofNat 8⟩, .finished⟩]

/-- The next task for the video is marked, handled and brought to its end, and stale
recovery runs. -/
private theorem completedVideos_reached :
    Reaches (step videoDecoders) Orderly completedVideo completedVideos :=
  reaches_of_run (.create nextTask :: cycle 1 ++
    [.pop .none, .fetch 1 .none, .advance 3600001, .finish 1 (.success none none),
      .write 1 .none, .resetStale]) rfl

theorem terminal_absorbing_completedVideos :
    completedVideos.tasks.find? ⟨.ofNat 7⟩ = some completedTask :=
  terminal_absorbing completedVideo_reached completedVideos_reached rfl rfl

/-- The poller that lost its lease before the task ran to its end. -/
private def lapsedPoll : PollPhase := .markInProgress ⟨0⟩ 0 [⟨.ofNat 7⟩]

private def lapsedVideo : State where
  now := 30001
  tasks := ⟨[{ runningTask 30001 with
    status := .completed, completedAt := some 30001 }], by decide⟩
  queue := []
  lock := none
  issued := 2
  polls := [lapsedPoll, .finished (.ok ())]
  runs := [⟨⟨.ofNat 7⟩, .finished⟩]

/-- A poller that marks its batch after its lease expired restarts a task that
another poller's cycle has brought to its end. -/
theorem lapsedVideo_restarted :
    Reaches (step videoDecoders) Anything (State.initial 0) lapsedVideo ∧
      (∃ task, lapsedVideo.tasks.find? ⟨.ofNat 7⟩ = some task ∧ task.status = .completed) ∧
      ∃ later, step videoDecoders lapsedVideo (.poll 0 .none) = some later ∧
        ∃ task, later.tasks.find? ⟨.ofNat 7⟩ = some task ∧ task.status = .inProgress :=
  ⟨reaches_of_run ([.create videoTask, .startPoll, .poll 0 .none, .poll 0 .none,
      .poll 0 .none, .advance 30001] ++ cycle 1 ++
      [.pop .none, .fetch 0 .none, .finish 0 (.success none none), .write 0 .none]) rfl,
    ⟨_, rfl, rfl⟩, _, rfl, _, rfl, rfl⟩

end Benri.Worker
