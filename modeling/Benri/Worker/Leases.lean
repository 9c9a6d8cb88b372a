import Benri.Worker.Handling

namespace Benri.Worker

open Benri.Data Benri.Domain Benri.Postgres Benri.Redis Benri.Transition

/-! # What a live lease vouches for

A poll cycle that still holds its lease began less than the lease's time to live
ago, and a row it has started is far from stale.  So stale recovery cannot reset a
task that a poller is about to publish, and leaving alone what is queued or being
processed leaves alone all that is in flight.
-/

variable {decoders : Decoders} {before after state : State} {event : Event}

/-- No lease expires while its holder is at work. -/
def LeasesHold (state : State) : Event → Prop
  | .advance now => LeasesLive state now
  | _ => LeasesLive state state.now

instance (state : State) (event : Event) : Decidable (LeasesHold state event) :=
  match event with
  | .advance now => inferInstanceAs (Decidable (LeasesLive state now))
  | .create _ | .startPoll | .poll _ _ | .crashPoll _ | .pop _ | .fetch _ _ | .finish _ _
  | .timeout _ | .write _ _ | .crashRun _ | .resetStale | .wipeQueue =>
      inferInstanceAs (Decidable (LeasesLive state state.now))

/-- No task is reset while its id is queued or being processed. -/
def ResetsNothingQueued (state : State) : Event → Prop
  | .resetStale => ∀ task ∈ state.tasks.rows, stale state.now task = true →
      task.id ∉ state.queue ∧ ∀ run ∈ state.runs, task.id ∉ run.holding
  | _ => True

instance (state : State) (event : Event) : Decidable (ResetsNothingQueued state event) :=
  match event with
  | .resetStale => inferInstanceAs (Decidable (∀ task ∈ state.tasks.rows,
      stale state.now task = true →
        task.id ∉ state.queue ∧ ∀ run ∈ state.runs, task.id ∉ run.holding))
  | .advance _ | .create _ | .startPoll | .poll _ _ | .crashPoll _ | .pop _ | .fetch _ _
  | .finish _ _ | .timeout _ | .write _ _ | .crashRun _ | .wipeQueue => .isTrue trivial

def Kept (state : State) (event : Event) : Prop :=
  LeasesHold state event ∧ ResetsNothingQueued state event

instance (state : State) (event : Event) : Decidable (Kept state event) :=
  inferInstanceAs (Decidable (_ ∧ _))

theorem LeasesHold.marksUnderLease (hold : LeasesHold state event) : MarksUnderLease state event := by
  cases event with
  | poll index fault => exact LeasesLive.slot hold index
  | _ => trivial

/-! ## Where a lease comes from -/

theorem acquireStep_lock (state : State) (fault : Fault) :
    (acquireStep state fault).1.lock = state.lock ∨ (acquireStep state fault).1.lock =
      (Redis.acquire state.lock ⟨state.issued⟩ LOCK_TTL_SECS state.now).1 := by
  unfold acquireStep
  cases fault with
  | none =>
      right
      simp only [attempt_none]
      cases (Redis.acquire state.lock ⟨state.issued⟩ LOCK_TTL_SECS state.now).2 <;> rfl
  | error applied message => cases applied <;> simp [attempt]

theorem acquireStep_lease {fault : Fault} {lease : Lease}
    (held : holder (acquireStep state fault).1.lock state.now = some lease) :
    holder state.lock state.now = some lease ∨
      lease = ⟨⟨state.issued⟩, state.now + LOCK_TTL_SECS * 1000⟩ := by
  rcases acquireStep_lock state fault with same | same
  · exact .inl (same ▸ held)
  rw [same] at held
  cases previous : holder state.lock state.now with
  | none =>
      rw [acquire_free previous] at held
      exact .inr (Option.some.inj (Option.filter_eq_some_iff.mp held).1).symm
  | some other =>
      simp only [Redis.acquire, previous] at held
      exact .inl (Option.filter_eq_some_iff.mp held).1

/-- A lease was there before, or its token has just been drawn. -/
theorem lease_of_step (stepped : step decoders before event = some after) {lease : Lease}
    (held : holder after.lock after.now = some lease) :
    holder before.lock before.now = some lease ∨
      lease = ⟨⟨before.issued⟩, before.now + LOCK_TTL_SECS * 1000⟩ := by
  cases step_effect stepped with
  | advance now later => exact .inl (holder_earlier later held)
  | poll index fault phase next reached slot effect =>
      have acquiring : phase = .acquire → reached.now = before.now →
          holder before.lock before.now = some lease ∨
            lease = ⟨⟨before.issued⟩, before.now + LOCK_TTL_SECS * 1000⟩ := by
        rintro rfl clock
        have moved : some ((acquireStep before fault).1.setPoll index (acquireStep before fault).2) =
            some (reached.setPoll index next) := by
          rw [← stepped]
          simp [Worker.step, pollEvent, slot, pollStep]
        have lock := congrArg State.lock (Option.some.inj moved)
        have anew : holder (acquireStep before fault).1.lock before.now = some lease := by
          rw [show (acquireStep before fault).1.lock = reached.lock from lock, ← clock]
          exact held
        exact acquireStep_lease anew
      cases effect with
      | acquired | denied => exact acquiring rfl rfl
      | released token lock result freed => exact .inl (freed lease held)
      | clock | nothing | found | marked | markFailed | published => exact .inl held
  | create | startPoll | crashPoll | popped | popFailed | dispatched | skipped | handled |
    written | crashRun | resetStale | wipeQueue => exact .inl held

theorem now_le_of_step (stepped : step decoders before event = some after) :
    before.now ≤ after.now := by
  cases step_effect stepped with
  | advance now later => exact later
  | poll index fault phase next reached slot effect => cases effect <;> exact Int.le_refl _
  | create | startPoll | crashPoll | popped | popFailed | dispatched | skipped | handled |
    written | crashRun | resetStale | wipeQueue => exact Int.le_refl _

/-! ## Young leases and young rows -/

def LOCK_TTL : Int := LOCK_TTL_SECS * 1000

/-- What a poll cycle has read or written is not much older than its lease may get. -/
def PollPhase.Covered (tasks : TaskTable) (expiresAt : Instant) : PollPhase → Prop
  | .findPending _ now | .markInProgress _ now _ => expiresAt ≤ now + LOCK_TTL
  | .publish _ ids => ∀ id ∈ ids, ∀ task, tasks.find? id = some task →
      ∃ startedAt, task.startedAt = some startedAt ∧ expiresAt ≤ startedAt + LOCK_TTL
  | _ => True

structure Brief (state : State) : Prop where
  lock : ∀ lease, holder state.lock state.now = some lease → lease.expiresAt ≤ state.now + LOCK_TTL
  polls : ∀ poll ∈ state.polls, ∀ lease, holder state.lock state.now = some lease →
    lease.token ∈ poll.tokens → poll.Covered state.tasks lease.expiresAt

theorem Brief.initial (now : Instant) : Brief (State.initial now) where
  lock lease held := by simp [State.initial, holder] at held
  polls _ member := absurd member List.not_mem_nil

/-- While a poller publishes a batch, the rows of the batch stay as they are. -/
theorem Exclusive.publishing_kept (exclusive : Exclusive before) (permitted : Orderly before event)
    (effect : Effect decoders before event after) {token : LockToken} {ids : List TaskId}
    (earlier : .publish token ids ∈ before.polls) (later : .publish token ids ∈ after.polls)
    {id : TaskId} (inside : id ∈ ids) {task : Task} (found : after.tasks.find? id = some task) :
    before.tasks.find? id = some task := by
  have flying : ∀ {state : State}, .publish token ids ∈ state.polls → 0 < copies state id := by
    intro state member
    have counted := List.count_pos_iff.mpr (mem_gather.mpr
      ⟨_, member, show id ∈ PollPhase.publishing (.publish token ids) from inside⟩)
    simp only [copies]
    omega
  obtain ⟨row, there, running⟩ := exclusive.started id (flying earlier)
  rcases exclusive.row_step permitted.2 effect there with
    same | ⟨_, gone, _⟩ | ⟨index, fault, other, now, batch, rfl, slot, member, _⟩
  · rw [there, ← same, found]
  · have still := flying later
    omega
  · obtain ⟨waiting, present, pending⟩ := (exclusive.waiting _ (List.mem_of_getElem? slot)
      (MarksUnderLease.leased permitted.1 slot)).2 id member
    rw [there] at present
    cases present
    rw [running] at pending
    cases pending

theorem Brief.step (brief : Brief before) (exclusive : Exclusive before)
    (permitted : Orderly before event) (stepped : Worker.step decoders before event = some after) :
    Brief after := by
  have effect := step_effect stepped
  have later := now_le_of_step stepped
  -- A poll cycle that was there before has its lease from before.
  have older : ∀ poll ∈ before.polls, ∀ lease, holder after.lock after.now = some lease →
      lease.token ∈ poll.tokens → holder before.lock before.now = some lease := by
    intro poll member lease held own
    rcases lease_of_step stepped held with same | rfl
    · exact same
    · exact absurd (exclusive.ordered.apart.drawn _ (mem_gather.mpr ⟨poll, member, own⟩))
        (Nat.lt_irrefl _)
  have kept : ∀ poll ∈ before.polls, poll ∈ after.polls → ∀ lease,
      holder after.lock after.now = some lease → lease.token ∈ poll.tokens →
      poll.Covered after.tasks lease.expiresAt := by
    intro poll member still lease held own
    have covered := brief.polls poll member lease (older poll member lease held own) own
    cases poll with
    | publish token ids =>
        intro id inside task found
        exact covered id inside task
          (exclusive.publishing_kept permitted effect member still inside found)
    | acquire | acquired | findPending | markInProgress | release | finished | crashed =>
        exact covered
  refine ⟨fun lease held => ?_, fun poll member lease held own => ?_⟩
  · rcases lease_of_step stepped held with same | rfl
    · exact Int.le_trans (brief.lock lease same) (Int.add_le_add_right later _)
    · exact Int.add_le_add_right later _
  by_cases still : poll ∈ before.polls
  · exact kept poll still member lease held own
  have fresh : ∀ {slots : List PollPhase} {index : Nat} {next : PollPhase},
      slots = before.polls → poll ∈ slots.set index next → poll = next := by
    rintro slots index next rfl inside
    exact (List.mem_or_eq_of_mem_set inside).resolve_left still
  cases effect with
  | poll index fault phase next reached slot effect =>
      have source := List.mem_of_getElem? slot
      cases effect with
      | acquired lock anew => rw [fresh rfl member]; trivial
      | denied lock result anew => rw [fresh rfl member]; trivial
      | clock token =>
          obtain rfl := fresh rfl member
          exact brief.lock lease held
      | nothing token now result => rw [fresh rfl member]; trivial
      | found token now =>
          obtain rfl := fresh rfl member
          exact brief.polls _ source lease held own
      | marked token now ids =>
          obtain rfl := fresh rfl member
          have covered : lease.expiresAt ≤ now + LOCK_TTL := brief.polls _ source lease held own
          intro id inside task found
          simp only [State.setPoll, find?_markInProgress, if_pos inside] at found
          obtain ⟨row, _, rfl⟩ := Option.map_eq_some_iff.mp found
          exact ⟨now, rfl, covered⟩
      | markFailed token now ids tasks perhaps result => rw [fresh rfl member]; trivial
      | published token ids queue perhaps result => rw [fresh rfl member]; trivial
      | released token lock result freed => rw [fresh rfl member]; trivial
  | startPoll =>
      rcases List.mem_append.mp member with inside | new
      · exact absurd inside still
      · rw [List.mem_singleton.mp new]
        trivial
  | crashPoll index => rw [fresh rfl member]; trivial
  | advance | create | popped | popFailed | dispatched | skipped | handled | written | crashRun |
    resetStale | wipeQueue => exact absurd member still

/-! ## Runs -/

theorem lease_not_stale {now startedAt expiresAt : Int} (live : now < expiresAt)
    (covers : expiresAt ≤ startedAt + LOCK_TTL) : ¬ startedAt < now - STALE_RECOVERY_INTERVAL := by
  simp only [LOCK_TTL, LOCK_TTL_SECS] at covers
  simp only [STALE_RECOVERY_INTERVAL]
  omega

/-- While leases hold, what is in flight is queued, being processed or not stale. -/
theorem Brief.orderly (brief : Brief state) (kept : Kept state event) : Orderly state event := by
  obtain ⟨hold, unqueued⟩ := kept
  refine ⟨hold.marksUnderLease, ?_⟩
  cases event with
  | resetStale =>
      intro task member old
      obtain ⟨queue, runs⟩ := unqueued task member old
      have publishing : task.id ∉ gather PollPhase.publishing state.polls := by
        intro inside
        obtain ⟨poll, pollMember, inside⟩ := mem_gather.mp inside
        cases poll with
        | publish token ids =>
            obtain ⟨lease, held, own⟩ := Option.map_eq_some_iff.mp
              (hold _ pollMember token (List.mem_singleton_self _))
            obtain ⟨startedAt, started, covers⟩ :=
              brief.polls _ pollMember lease held (own ▸ List.mem_singleton_self _) task.id inside
                task (Table.find?_of_mem member)
            have live : state.now < lease.expiresAt :=
              of_decide_eq_true (Option.filter_eq_some_iff.mp held).2
            simp only [stale, started, Option.any_some, Bool.and_eq_true, decide_eq_true_eq] at old
            exact lease_not_stale live covers old.2
        | acquire | acquired | findPending | markInProgress | release | finished | crashed =>
            cases inside
      have holding : task.id ∉ gather Run.holding state.runs := fun inside => by
        obtain ⟨run, runMember, holds⟩ := mem_gather.mp inside
        exact runs run runMember holds
      rw [copies, List.count_eq_zero.mpr publishing, List.count_eq_zero.mpr queue,
        List.count_eq_zero.mpr holding]
  | advance | create | startPoll | poll | crashPoll | pop | fetch | finish | timeout | write |
    crashRun | wipeQueue => trivial

end Benri.Worker
