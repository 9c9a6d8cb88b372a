import Benri.Service.FailureDecision
import Benri.Service.Lifecycle

namespace Benri.Service

open Benri.Data Benri.Domain Benri.Postgres Benri.Transition

/-! # What the sweep takes for stuck

A row bears the time of its initiation and no other, so the sweep cannot see when
a video last made progress.  A watch keeps that time beside the state, and the times
at which executions and sweeps were begun; the steps read none of them.
-/

def statusOf (stores : Stores) (id : VideoId) : Option VideoStatus :=
  (stores.videos.find? id).map Video.status

/-- A state, since when each video has had its status, and when each execution and
each sweep was begun. -/
structure Watch where
  state : State
  since : VideoId → Instant
  started : List Instant
  begun : List Instant

def Watch.initial (now : Instant) : Watch where
  state := .initial now
  since _ := now
  started := []
  begun := []

def Watch.now (watch : Watch) : Instant := watch.state.stores.now

/-- The watch after an event that led to a state. -/
def Watch.follow (watch : Watch) (event : Event) (after : State) : Watch where
  state := after
  since id :=
    if statusOf after.stores id = statusOf watch.state.stores id then watch.since id
    else after.stores.now
  started := match event with
    | .startExecution _ _ => watch.started ++ [watch.now]
    | _ => watch.started
  begun := match event with
    | .startSweep => watch.begun ++ [watch.now]
    | _ => watch.begun

@[simp] theorem Watch.follow_state (watch : Watch) (event : Event) (after : State) :
    (watch.follow event after).state = after := rfl

@[simp] theorem Watch.follow_now (watch : Watch) (event : Event) (after : State) :
    (watch.follow event after).now = after.stores.now := rfl

theorem Watch.since_follow {watch : Watch} {after : State} {id : VideoId} (event : Event)
    (same : statusOf after.stores id = statusOf watch.state.stores id) :
    (watch.follow event after).since id = watch.since id := if_pos same

def watchStep (watch : Watch) (event : Event) : Option Watch :=
  (step watch.state event).map (watch.follow event)

def ExecutionPhase.over : ExecutionPhase → Bool
  | .returned _ | .cut => true
  | _ => false

/-- The handler is under way. -/
def Execution.running (execution : Execution) : Bool := execution.alive && !execution.phase.over

def isRunning (state : State) (id : VideoId) : Bool :=
  state.executions.any fun execution => decide (execution.id = id) && execution.running

/-- The statuses that a video is to leave again. -/
def Waiting (status : VideoStatus) : Prop := status = .uploaded ∨ status = .processing

instance (status : VideoStatus) : Decidable (Waiting status) :=
  inferInstanceAs (Decidable (_ ∨ _))

/-- How long a `ProcessVideo` execution may take. -/
def processingTimeout (id : VideoId) : Int :=
  (TaskMetadata.processingTimeout (ProcessVideoTaskMetadata.mk id)).asMillis

/-- At that time no handler will have been under way for longer than it may be. -/
def inTime (watch : Watch) (now : Instant) : Bool :=
  (watch.state.executions.zip watch.started).all fun entry =>
    !entry.1.running || decide (now ≤ entry.2 + processingTimeout entry.1.id)

/-- The video has had its status since that time, and the executions begun for it
have all had their time. -/
def rested (watch : Watch) (threshold : Instant) (id : VideoId) : Bool :=
  decide (watch.since id ≤ threshold) &&
    (watch.state.executions.zip watch.started).all fun entry =>
      !decide (entry.1.id = id) || decide (entry.2 + processingTimeout id < watch.now)

/-- Every video that is to go on and was initiated before that time has come to rest. -/
def allRested (watch : Watch) (threshold : Instant) : Bool :=
  watch.state.stores.videos.rows.all fun row =>
    !(decide (Waiting row.status) && decide (row.createdAt < threshold)) ||
      rested watch threshold row.id

/-- A sweep has its videos still to find or to mark. -/
def SweepPhase.ahead : SweepPhase → Bool
  | .findStale _ | .findFailed _ _ | .markFailed _ _ => true
  | .schedule _ _ | .returned _ | .cut => false

/-- A sweep that was begun more than a day after the video's initiation has still to
mark what it finds. -/
def sweptUp (watch : Watch) (row : Video) : Bool :=
  (watch.state.sweeps.zip watch.begun).any fun entry =>
    entry.1.ahead && decide (row.createdAt < entry.2 - STALE_VIDEO_AGE)

/-- Whether a row with such a status is about to be swept up. -/
def disturbs (watch : Watch) (id : VideoId) (status : VideoStatus → Prop)
    [DecidablePred status] : Bool :=
  (watch.state.stores.videos.find? id).any fun row => decide (status row.status) &&
    sweptUp watch row

/-- A step at a time at which it does no harm: the executions keep to their timeout, a
sweep is begun when every video older than a day that is to go on has come to rest, and
until it has marked what it finds no such video is completed or processed. -/
def wellTimed (watch : Watch) : Event → Bool
  | .advance now => inTime watch now
  | .startSweep => allRested watch (watch.now - STALE_VIDEO_AGE)
  | .startExecution _ id => !disturbs watch id Waiting
  | .completion index (.transition fault seed) =>
      failureDiscarded watch.state.stores fault seed ||
        (watch.state.completions[index]?).all fun completion =>
          completion.phase.video?.all fun video => !disturbs watch video.id (· = .pendingUpload)
  | _ => true

def WellTimed (watch : Watch) (event : Event) : Prop := wellTimed watch event = true

instance (watch : Watch) (event : Event) : Decidable (WellTimed watch event) :=
  inferInstanceAs (Decidable (_ = true))

variable {stores reached : Stores} {before after : State} {event : Event} {id : VideoId}

/-! ## The executions -/

theorem ExecutionEffect.over {execution next : Execution} {inner : ExecutionEvent}
    (effect : ExecutionEffect stores execution inner reached next)
    (ended : execution.phase.over = true) : next.phase.over = true := by
  have never : ∀ {phase : ExecutionPhase}, execution.phase = phase → phase.over = true :=
    fun same => same ▸ ended
  cases effect with
  | quiet _ advance =>
      cases advance with
      | loaded video phase | probed video hasAudio shareToken phase
        | unspawned video hasAudio result phase | spawned video hasAudio raw phase
        | joined video result upload pipeline phase | ready video phase =>
          cases never phase
      | failing video phase =>
          rcases phase with phase | ⟨result, phase⟩ | phase <;> cases never phase
      | ended | cut | killed => rfl
      | signalled | silenced => exact ended
  | claimed video row _ phase | finalized shareToken video row videos _ phase
    | cleaned video result phase | failed video seed tasks result phase => cases never phase
  | published | uploaded => exact ended

/-- A handler that is under way was so before its step. -/
theorem running_of_step {execution next : Execution} {inner : ExecutionEvent}
    (stepped : executionStep stores execution inner = some (reached, next))
    (running : next.running = true) : next.id = execution.id ∧ execution.running = true := by
  have effect := executionStep_effect stepped
  refine ⟨by cases executionStep_turn stepped <;> rfl, ?_⟩
  rw [Execution.running, executionStep_alive stepped, Bool.true_and]
  cases ended : execution.phase.over with
  | false => rfl
  | true =>
      rw [Execution.running, effect.over ended, Bool.not_true, Bool.and_false] at running
      cases running

theorem isRunning_iff {state : State} :
    isRunning state id = true ↔
      ∃ execution ∈ state.executions, execution.id = id ∧ execution.running = true := by
  simp [isRunning]

/-- A handler is under way that was before, or that has just been started. -/
theorem isRunning_of_step (stepped : step before event = some after)
    (running : isRunning after id = true) :
    isRunning before id = true ∨ ∃ task, event = .startExecution task id := by
  obtain ⟨execution, member, named, holds⟩ := isRunning_iff.mp running
  have older : execution ∈ before.executions → isRunning before id = true := fun inside =>
    isRunning_iff.mpr ⟨execution, inside, named, holds⟩
  cases step_effect stepped with
  | startExecution task owner row found processes =>
      rcases List.mem_append.mp member with inside | new
      · exact .inl (older inside)
      · rw [List.mem_singleton.mp new] at named
        exact .inr ⟨task, by rw [← named]; rfl⟩
  | execution index inner _ _ _ _ _ =>
      obtain ⟨moving, next, slot, advanced, executions⟩ := execution_of_step stepped
      rw [executions] at member
      rcases List.mem_or_eq_of_mem_set member with inside | rfl
      · exact .inl (older inside)
      · have inside := List.mem_of_getElem? slot
        obtain ⟨same, runs⟩ := running_of_step advanced holds
        exact .inl (isRunning_iff.mpr ⟨moving, inside, same.symm.trans named, runs⟩)
  | advance | unborn | born | original | tasks | startCompletion | completion | startSweep | sweep |
    startDeletion | deletion => exact .inl (older member)

/-! ## The sweeps -/

/-- The videos that a sweep takes for stuck and has still to mark. -/
def SweepPhase.stuck : SweepPhase → List VideoId
  | .findFailed _ stale | .markFailed stale _ => collectStuckIds stale
  | _ => []

theorem sweepSchedule_stuck (stale failed : List Video) :
    (sweepSchedule stale failed).stuck = [] := by
  unfold sweepSchedule
  split <;> rfl

/-- A sweep has a video to mark that it had before, or that its first query has found. -/
theorem sweepStep_stuck {phase next : SweepPhase} {inner : SweepEvent}
    (stepped : sweepStep stores phase inner = some (reached, next)) (listed : id ∈ next.stuck) :
    id ∈ phase.stuck ∨ ∃ threshold, phase = .findStale threshold ∧ inner = .call .none ∧
      id ∈ collectStuckIds (findStale stores.videos threshold) := by
  have unscheduled : ∀ stale failed, id ∉ (sweepSchedule stale failed).stuck := by
    intro stale failed
    rw [sweepSchedule_stuck]
    exact List.not_mem_nil
  cases sweepStep_turn stepped with
  | foundStale threshold => exact .inr ⟨threshold, rfl, rfl, listed⟩
  | foundFailed threshold stale => exact .inl listed
  | foundNoneStuck => exact absurd listed (unscheduled _ _)
  | marked stale failed next answered =>
      rcases answered with rfl | ⟨error, rfl⟩
      · exact absurd listed (unscheduled _ _)
      · cases listed
  | scheduled stale failed seeds tasks next enough inserted answered =>
      rcases answered with rfl | ⟨error, rfl⟩ <;> cases listed
  | gaveUp | cut => cases listed

/-! ## Progress -/

/-- Only a claim takes a video from `UPLOADED` to `PROCESSING`. -/
theorem ExecutionEffect.claims {execution next : Execution} {inner : ExecutionEvent}
    (effect : ExecutionEffect stores execution inner reached next) {old row : Video}
    (there : stores.videos.find? id = some old) (uploaded : old.status = .uploaded)
    (found : reached.videos.find? id = some row) (processing : row.status = .processing) :
    ∃ video, execution.phase = .claim video ∧ video.id = id := by
  have unchanged : reached.videos.find? id = some old → False := by
    intro same
    rw [same] at found
    cases found
    rw [uploaded] at processing
    cases processing
  cases effect with
  | quiet | cleaned | uploaded => exact (unchanged there).elim
  | claimed video source _ phase found uploaded answered =>
      by_cases same : video.id = id
      · exact ⟨video, phase, same⟩
      · exact (unchanged (by
          rw [find?_updateStatusIf, there, Option.map_some,
            if_neg fun touched => same touched.1.symm])).elim
  | published shareToken source videos publishing drawn found processing updated =>
      exact (unchanged (by
        rw [find?_updateToken updated, there, Option.map_some,
          if_neg fun touched => by rw [uploaded] at touched; cases touched.2])).elim
  | finalized shareToken video source videos _ phase drawn found processing updated answered =>
      exact (unchanged (by
        rw [find?_updateToken updated, there, Option.map_some,
          if_neg fun touched => by rw [uploaded] at touched; cases touched.2])).elim
  | failed video seed tasks result phase change =>
      exact (unchanged (by
        rw [find?_updateStatusIf, there, Option.map_some,
          if_neg fun touched => by rw [uploaded] at touched; cases touched.2])).elim

theorem claim_of_step (snapshots : Snapshots before) (stepped : step before event = some after)
    (known : id ∈ before.stores.issued) {old row : Video}
    (there : before.stores.videos.find? id = some old) (uploaded : old.status = .uploaded)
    (found : after.stores.videos.find? id = some row) (processing : row.status = .processing) :
    isRunning before id = true := by
  have unchanged : after.stores.videos.find? id = some old → isRunning before id = true := by
    intro same
    rw [same] at found
    cases found
    rw [uploaded] at processing
    cases processing
  cases step_effect stepped with
  | execution index inner _ _ _ _ _ =>
      obtain ⟨execution, next, slot, advanced, _⟩ := execution_of_step stepped
      have member := List.mem_of_getElem? slot
      obtain ⟨video, phase, named⟩ :=
        (executionStep_effect advanced).claims there uploaded found processing
      have keyed := (snapshots.executions execution member).video video (by rw [phase]; rfl)
      refine isRunning_iff.mpr ⟨execution, member, keyed.1.symm.trans named, ?_⟩
      rw [Execution.running, executionStep_alive advanced, phase]
      rfl
  | born new title format videos fresh inserted =>
      have other : new ≠ id := by
        rintro rfl
        exact fresh known
      exact unchanged (by
        dsimp only [State.withStores]
        rw [Table.find?_insert? inserted, newVideo, if_neg other, there])
  | completion index inner completion stores next slot effect =>
      cases effect with
      | quiet | rejected => exact unchanged there
      | uploaded video source seed tasks _ phase found pending change answered =>
          exact unchanged (by
            dsimp only
            rw [find?_updateStatusIf, there, Option.map_some,
              if_neg fun touched => by rw [uploaded] at touched; cases touched.2])
  | sweep index inner phase next stores slot effect =>
      cases effect with
      | quiet | scheduled => exact unchanged there
      | marked stale failed _ origin =>
          dsimp only at found
          rw [find?_bulkMarkFailed, there, Option.map_some] at found
          cases found
          split at processing
          · cases processing
          · rw [uploaded] at processing
            cases processing
  | deletion index inner deletion next stores slot effect =>
      cases effect with
      | found | ended | prefixed | objectDeleted => exact unchanged there
      | rowDeleted video _ phase answered =>
          dsimp only at found
          rw [find?_deleteVideo] at found
          split at found
          · cases found
          · exact unchanged (by dsimp only; rw [find?_deleteVideo, if_neg ‹_›, there])
  | advance | unborn | original | tasks | startCompletion | startExecution | startSweep |
    startDeletion => exact unchanged there

theorem transitionClosure_missed {fault : TxFault} {seed : TaskSeed}
    (ran : transitionClosure fault id seed stores = .ok (reached, true)) :
    fault.hits 2 = false := by
  cases fault with
  | none | begin message | commit applied message => rfl
  | statement index message =>
      refine decide_eq_false fun below => ?_
      have which : index = 0 ∨ index = 1 := by omega
      rcases which with rfl | rfl
      · simp [transitionClosure, updateStatusInTx, TxFault.guard] at ran
      · simp only [transitionClosure, updateStatusInTx, scheduleInTx, TxFault.guard] at ran
        split at ran <;> simp at ran

/-- A transaction that leaves no trace. -/
theorem transitionToUploaded_discarded {fault : TxFault} {seed : TaskSeed} {video : Video}
    (discarded : failureDiscarded stores fault seed = true) :
    (transitionToUploaded stores fault video seed).1 = stores := by
  have ends : (transitionToUploaded stores fault video seed).1 =
      (runTransaction stores fault (transitionClosure fault video.id seed)).1 := by
    unfold transitionToUploaded
    split <;> simp_all
  rw [ends]
  cases closed : transitionClosure fault video.id seed stores with
  | error error => exact runTransaction_of_error closed
  | ok answer =>
      obtain ⟨scope, transitioned⟩ := answer
      rw [runTransaction_of_ok closed]
      rcases transitionClosure_result closed with
        ⟨rfl, _⟩ | ⟨row, tasks, _, _, inserted, rfl, _⟩
      · exact ite_self _
      · have fresh : stores.tasks.find? seed.id = none := (Table.insert?_eq_some inserted).1
        have missed := transitionClosure_missed closed
        rw [if_pos (by simpa [failureDiscarded, missed, fresh] using discarded)]

theorem RowsProceed.pending {before after : Stores} (proceed : RowsProceed before after)
    {old row : Video} (there : before.videos.find? id = some old)
    (found : after.videos.find? id = some row) (pending : old.status = .pendingUpload) :
    row.status = .pendingUpload := by
  obtain ⟨written, rows, _, _, _⟩ := proceed
  obtain ⟨source, present, proceeds⟩ := rows id row found
  rw [there] at present
  cases present
  exact proceeds.pending.mpr pending

/-- Only the transaction of a call takes a video out of `PENDING_UPLOAD`. -/
theorem upload_of_step (stepped : step before event = some after) {old row : Video}
    (there : before.stores.videos.find? id = some old) (pending : old.status = .pendingUpload)
    (found : after.stores.videos.find? id = some row) (left : row.status ≠ .pendingUpload) :
    ∃ index fault seed completion video, event = .completion index (.transition fault seed) ∧
      before.completions[index]? = some completion ∧ completion.phase.video? = some video ∧
      video.id = id ∧ failureDiscarded before.stores fault seed = false := by
  have unchanged : after.stores.videos.find? id = some old → row.status = .pendingUpload := by
    intro same
    rw [same] at found
    cases found
    exact pending
  cases step_effect stepped with
  | completion index inner completion stores next slot effect =>
      cases effect with
      | quiet | rejected => exact absurd (unchanged there) left
      | @uploaded fault video source seed tasks _ phase present _ change answered =>
          refine ⟨index, fault, seed, completion, video, rfl, slot, by rw [phase]; rfl, ?_, ?_⟩
          · by_contra other
            refine left (unchanged ?_)
            dsimp only
            rw [find?_updateStatusIf, there, Option.map_some,
              if_neg fun touched => other touched.1.symm]
          · rw [Bool.eq_false_iff]
            intro discarded
            obtain ⟨⟨reached, slots⟩, moved, same⟩ := Option.map_eq_some_iff.mp stepped
            obtain ⟨moving, _, place, inner, rfl⟩ := slotStep_eq_some moved
            rw [slot] at place
            cases place
            simp only [completionStep, phase, Option.map_some, Option.some.injEq,
              Prod.mk.injEq, transitionToUploaded_discarded discarded] at inner
            refine left (unchanged ?_)
            rw [← same, ← inner.1]
            exact there
  | execution index inner execution next stores slot effect =>
      exact absurd (effect.proceed.pending there found pending) left
  | sweep index inner phase next stores slot effect =>
      exact absurd (effect.proceed.pending there found pending) left
  | deletion index inner deletion next stores slot effect =>
      exact absurd (effect.proceed.pending there found pending) left
  | born new title format videos fresh inserted =>
      have appeared : (if new = id then some (newVideo before.stores new title format)
          else before.stores.videos.find? id) = some row := by
        rw [← found]
        exact (Table.find?_insert? inserted id).symm
      split at appeared
      · cases appeared
        exact absurd rfl left
      · rw [there] at appeared
        cases appeared
        exact absurd pending left
  | advance | unborn | original | tasks | startCompletion | startExecution | startSweep |
    startDeletion => exact absurd (unchanged there) left

/-- The row of a video bears the time of its initiation. -/
theorem RowsEffect.createdAt {before after : Stores} (effect : RowsEffect before after)
    {row : Video} (found : after.videos.find? id = some row) :
    row.createdAt = before.now ∨
      ∃ old, before.videos.find? id = some old ∧ row.createdAt = old.createdAt := by
  cases effect.descends found with
  | born title format fresh same => exact .inl (same ▸ rfl)
  | proceeds old written there tokens proceeds =>
      exact .inr ⟨old, there, by cases proceeds <;> rfl⟩
  | uploaded old there pending same => exact .inr ⟨old, there, same ▸ rfl⟩

/-! ## The videos at rest -/

theorem now_of_step (stepped : step before event = some after) :
    before.stores.now ≤ after.stores.now ∧
      (event = .advance after.stores.now ∨ after.stores.now = before.stores.now) := by
  cases step_effect stepped with
  | advance now later => exact ⟨later, .inl rfl⟩
  | completion index inner completion stores next slot effect =>
      cases effect <;> exact ⟨Int.le_refl _, .inr rfl⟩
  | execution index inner execution next stores slot effect =>
      cases effect <;> exact ⟨Int.le_refl _, .inr rfl⟩
  | sweep index inner phase next stores slot effect =>
      cases effect <;> exact ⟨Int.le_refl _, .inr rfl⟩
  | deletion index inner deletion next stores slot effect =>
      cases effect <;> exact ⟨Int.le_refl _, .inr rfl⟩
  | unborn | born | original | tasks | startCompletion | startExecution | startSweep |
    startDeletion => exact ⟨Int.le_refl _, .inr rfl⟩

variable {watch next : Watch} {threshold : Instant}

/-- Every video that is to go on and was initiated before that time has had its status
since then, and no handler is working on it. -/
def AtRest (watch : Watch) (threshold : Instant) : Prop :=
  ∀ id row, watch.state.stores.videos.find? id = some row → Waiting row.status →
    row.createdAt < threshold → watch.since id ≤ threshold ∧ isRunning watch.state id = false

/-- A sweep with that threshold is still to mark what it finds. -/
def Sweeping (watch : Watch) (threshold : Instant) : Prop :=
  ∀ row : Video, row.createdAt < threshold → sweptUp watch row = true

theorem disturbs_of_sweeping {status : VideoStatus → Prop} [DecidablePred status] {row : Video}
    (sweeping : Sweeping watch threshold)
    (found : watch.state.stores.videos.find? id = some row) (holds : status row.status)
    (aged : row.createdAt < threshold) : disturbs watch id status = true := by
  simp [disturbs, found, holds, sweeping row aged]

/-- While a sweep is ahead of its marking, what is at rest stays so. -/
theorem AtRest.step (rest : AtRest watch threshold) (served : Served watch.state)
    (sweeping : Sweeping watch threshold) (past : threshold ≤ watch.now)
    (timed : WellTimed watch event) (stepped : step watch.state event = some after) :
    AtRest (watch.follow event after) threshold := by
  intro id row found waiting aged
  rcases (step_effect stepped).rows.createdAt found with born | ⟨old, there, same⟩
  · rw [born] at aged
    exact absurd aged (Int.not_lt.mpr past)
  rw [same] at aged
  have known := served.outbox.issued id old there
  have moved := (step_effect stepped).rows.moves there known found
  have status : row.status = old.status := by
    rcases moved with kept | moves
    · exact kept
    · -- It would have been completed now, or claimed by a handler under way.
      exfalso
      generalize earlier : old.status = before at moves
      generalize later : row.status = reached at moves waiting
      cases moves with
      | uploaded =>
          obtain ⟨index, fault, seed, completion, video, rfl, slot, held, rfl, kept⟩ :=
            upload_of_step stepped there earlier found (by rw [later]; decide)
          have disturbed : disturbs watch video.id (· = .pendingUpload) = true :=
            disturbs_of_sweeping sweeping there earlier aged
          simp [WellTimed, wellTimed, kept, slot, held, disturbed] at timed
      | claimed =>
          have running := claim_of_step served.snapshots stepped known there earlier found later
          rw [(rest id old there (.inl earlier) aged).2] at running
          cases running
      | abandoned | processed | failed => rcases waiting with same | same <;> cases same
  obtain ⟨since, unattended⟩ := rest id old there (status ▸ waiting) aged
  constructor
  · rw [Watch.since_follow event]
    · exact since
    · rw [Watch.follow_state] at found
      rw [statusOf, statusOf, found, there, Option.map_some, Option.map_some, status]
  · rw [Bool.eq_false_iff]
    intro running
    rcases isRunning_of_step stepped running with older | ⟨task, rfl⟩
    · rw [unattended] at older
      cases older
    · have disturbed := disturbs_of_sweeping sweeping there (status ▸ waiting) aged
      simp [WellTimed, wellTimed, disturbed] at timed

/-- What a sweep that is begun finds at rest. -/
theorem atRest_of_allRested (marked : watch.state.executions.length = watch.started.length)
    (punctual : inTime watch watch.now = true) (rest : allRested watch threshold = true) :
    AtRest watch threshold := by
  intro id row found waiting aged
  have keyed := Table.key_of_find? found
  have rested := List.all_eq_true.mp rest row (Table.mem_of_find? found)
  simp only [waiting, aged, decide_true, Bool.and_self, Bool.not_true, Bool.false_or,
    Service.rested, Bool.and_eq_true, decide_eq_true_eq, List.all_eq_true, Bool.or_eq_true,
    Bool.not_eq_eq_eq_not, decide_eq_false_iff_not] at rested
  rw [show row.id = id from keyed] at rested
  refine ⟨rested.1, Bool.eq_false_iff.mpr fun running => ?_⟩
  obtain ⟨execution, member, named, runs⟩ := isRunning_iff.mp running
  obtain ⟨started, beside⟩ := exists_mark_of_mem marked member
  have limit := List.all_eq_true.mp punctual _ beside
  rcases rested.2 _ beside with other | late
  · exact other named
  · have within : watch.now ≤ started + processingTimeout id := by
      simpa [runs, named] using limit
    exact Int.not_lt.mpr within late

theorem atRest_of_untouched (rest : AtRest watch threshold)
    (stores : after.stores = watch.state.stores)
    (executions : after.executions = watch.state.executions) :
    AtRest (watch.follow event after) threshold := by
  intro id row found waiting aged
  rw [Watch.follow_state, stores] at found
  rw [Watch.since_follow event (by rw [stores]), Watch.follow_state, isRunning, executions]
  exact rest id row found waiting aged

/-! ## The sweeps and their beginnings -/

/-- What a sweep that was begun at a time knows, and what has come to rest for it. -/
structure Begun (watch : Watch) (phase : SweepPhase) (begun : Instant) : Prop where
  past : begun ≤ watch.now
  asked : ∀ threshold, phase = .findStale threshold → threshold = begun - STALE_VIDEO_AGE
  rest : phase.ahead = true → AtRest watch (begun - STALE_VIDEO_AGE)
  listed : ∀ id ∈ phase.stuck, id ∈ watch.state.stores.issued ∧
    ∀ row, watch.state.stores.videos.find? id = some row →
      row.createdAt < begun - STALE_VIDEO_AGE

/-- A watch of a well-timed run: the executions keep to their time, and every sweep has
begun with the old videos at rest. -/
structure Paced (watch : Watch) : Prop where
  executions : watch.state.executions.length = watch.started.length
  punctual : ∀ execution started, (execution, started) ∈
    watch.state.executions.zip watch.started → execution.running = true →
      watch.now ≤ started + processingTimeout execution.id
  sweeps : watch.state.sweeps.length = watch.begun.length
  begun : ∀ phase begun, (phase, begun) ∈ watch.state.sweeps.zip watch.begun →
    Begun watch phase begun

theorem inTime_iff {now : Instant} : inTime watch now = true ↔
    ∀ execution started, (execution, started) ∈ watch.state.executions.zip watch.started →
      execution.running = true → now ≤ started + processingTimeout execution.id := by
  simp only [inTime, List.all_eq_true, Bool.or_eq_true, Bool.not_eq_eq_eq_not, Bool.not_true,
    decide_eq_true_eq, Prod.forall]
  grind

theorem sweeping_of_mem {phase : SweepPhase} {begun : Instant}
    (member : (phase, begun) ∈ watch.state.sweeps.zip watch.begun) (ahead : phase.ahead = true) :
    Sweeping watch (begun - STALE_VIDEO_AGE) := by
  intro row aged
  exact List.any_eq_true.mpr ⟨_, member, by simp [ahead, aged]⟩

/-- What a sweep has listed was old when it began, and stays old. -/
theorem listed_step (stepped : step watch.state event = some after)
    {begun : Instant} (known : id ∈ watch.state.stores.issued)
    (old : ∀ row, watch.state.stores.videos.find? id = some row →
      row.createdAt < begun - STALE_VIDEO_AGE) :
    id ∈ after.stores.issued ∧ ∀ row, after.stores.videos.find? id = some row →
      row.createdAt < begun - STALE_VIDEO_AGE := by
  have effect := (step_effect stepped).rows
  refine ⟨effect.issued_subset known, fun row found => ?_⟩
  cases effect.descends found with
  | born title format fresh => exact absurd known fresh
  | proceeds source written there tokens proceeds =>
      have same : row.createdAt = source.createdAt := by cases proceeds <;> rfl
      rw [same]
      exact old source there
  | uploaded source there pending same =>
      subst same
      exact old source there

/-- A sweep that does not move goes on as it was. -/
theorem Begun.step {phase : SweepPhase} {begun : Instant} (before : Begun watch phase begun)
    (member : (phase, begun) ∈ watch.state.sweeps.zip watch.begun) (served : Served watch.state)
    (timed : WellTimed watch event) (stepped : step watch.state event = some after) :
    Begun (watch.follow event after) phase begun where
  past := Int.le_trans before.past (now_of_step stepped).1
  asked := before.asked
  rest ahead := by
    have earlier : begun - STALE_VIDEO_AGE ≤ watch.now :=
      Int.le_trans (Int.sub_le_self _ (by decide)) before.past
    exact (before.rest ahead).step served (sweeping_of_mem member ahead) earlier timed stepped
  listed id inside :=
    listed_step stepped (before.listed id inside).1 (before.listed id inside).2

theorem sweepSchedule_ahead (stale failed : List Video) :
    (sweepSchedule stale failed).ahead = false := by
  unfold sweepSchedule
  split <;> rfl

/-- A sweep that has still to mark had so before, and does not ask its first query again. -/
theorem sweepStep_ahead {phase next : SweepPhase} {inner : SweepEvent}
    (stepped : sweepStep stores phase inner = some (reached, next)) (ahead : next.ahead = true) :
    phase.ahead = true ∧ ∀ threshold, next ≠ .findStale threshold := by
  cases sweepStep_turn stepped with
  | foundStale | foundFailed => exact ⟨rfl, fun _ same => by cases same⟩
  | foundNoneStuck => rw [sweepSchedule_ahead] at ahead; cases ahead
  | marked stale failed next answered =>
      rcases answered with rfl | ⟨error, rfl⟩
      · rw [sweepSchedule_ahead] at ahead
        cases ahead
      · cases ahead
  | scheduled stale failed seeds tasks next enough inserted answered =>
      rcases answered with rfl | ⟨error, rfl⟩ <;> cases ahead
  | gaveUp | cut => cases ahead

theorem sweep_of_step {index : Nat} {inner : SweepEvent}
    (stepped : step before (.sweep index inner) = some after) :
    ∃ phase next, before.sweeps[index]? = some phase ∧
      sweepStep before.stores phase inner = some (after.stores, next) ∧
      after.sweeps = before.sweeps.set index next := by
  obtain ⟨⟨stores, slots⟩, moved, rfl⟩ := Option.map_eq_some_iff.mp stepped
  obtain ⟨phase, next, slot, advanced, rfl⟩ := slotStep_eq_some moved
  exact ⟨phase, next, slot, advanced, rfl⟩

/-- What the first query of a sweep finds was initiated before its threshold. -/
theorem aged_of_found {videos : VideoTable} {row : Video}
    (listed : id ∈ collectStuckIds (findStale videos threshold))
    (found : videos.find? id = some row) : row.createdAt < threshold := by
  obtain ⟨source, selected, rfl⟩ := List.mem_map.mp listed
  obtain ⟨present, selects⟩ := List.mem_filter.mp (List.mem_filter.mp selected).1
  rw [Table.find?_of_mem present] at found
  cases found
  exact of_decide_eq_true (Bool.and_eq_true_iff.mp selects).2

/-- A sweep moves on. -/
theorem Begun.moved {phase next : SweepPhase} {inner : SweepEvent} {index : Nat}
    {begun : Instant} (before : Begun watch phase begun)
    (member : (phase, begun) ∈ watch.state.sweeps.zip watch.begun) (served : Served watch.state)
    (timed : WellTimed watch (.sweep index inner))
    (stepped : Service.step watch.state (.sweep index inner) = some after)
    (advanced : sweepStep watch.state.stores phase inner = some (after.stores, next)) :
    Begun (watch.follow (.sweep index inner) after) next begun := by
  have kept := before.step member served timed stepped
  refine ⟨kept.past, fun threshold same => ?_, fun ahead => ?_, fun id inside => ?_⟩
  · exact absurd same ((sweepStep_ahead advanced (same ▸ rfl)).2 threshold)
  · exact kept.rest (sweepStep_ahead advanced ahead).1
  · rcases sweepStep_stuck advanced inside with older | ⟨threshold, rfl, rfl, found⟩
    · exact kept.listed id older
    · have known : id ∈ watch.state.stores.issued := by
        obtain ⟨source, selected, rfl⟩ := List.mem_map.mp found
        have present := (List.mem_filter.mp (List.mem_filter.mp selected).1).1
        exact served.outbox.issued _ source (Table.find?_of_mem present)
      refine listed_step stepped known fun row there => ?_
      rw [← before.asked threshold rfl]
      exact aged_of_found found there

theorem Paced.initial (now : Instant) : Paced (.initial now) where
  executions := rfl
  punctual _ _ member := by cases member
  sweeps := rfl
  begun _ _ member := by cases member

theorem Paced.step (paced : Paced watch) (served : Served watch.state)
    (timed : WellTimed watch event) (stepped : step watch.state event = some after) :
    Paced (watch.follow event after) := by
  have still := fun phase begun member =>
    (paced.begun phase begun member).step member served timed stepped
  have clock : (∀ now, event ≠ .advance now) → after.stores.now = watch.now := fun other =>
    (now_of_step stepped).2.resolve_left (other _)
  have same : (∀ now, event ≠ .advance now) → after.executions = watch.state.executions →
      (watch.follow event after).started = watch.started →
      after.sweeps = watch.state.sweeps → (watch.follow event after).begun = watch.begun →
      Paced (watch.follow event after) := by
    intro other executions started sweeps begun
    refine ⟨?_, ?_, ?_, ?_⟩
    · rw [Watch.follow_state, executions, started]
      exact paced.executions
    · rw [Watch.follow_state, executions, started, Watch.follow_now, clock other]
      exact paced.punctual
    · rw [Watch.follow_state, sweeps, begun]
      exact paced.sweeps
    · rw [Watch.follow_state, sweeps, begun]
      exact still
  cases step_effect stepped with
  | advance now later => exact ⟨paced.executions, inTime_iff.mp timed, paced.sweeps, still⟩
  | startExecution task id row found named =>
      refine ⟨by simp [Watch.follow, paced.executions], fun execution started member runs => ?_,
        paced.sweeps, still⟩
      rcases mem_zip_snoc paced.executions member with older | ⟨rfl, rfl⟩
      · exact paced.punctual execution started older runs
      · exact Int.le_add_of_nonneg_right (Int.natCast_nonneg _)
  | execution index inner _ _ _ _ _ =>
      obtain ⟨execution, next, slot, advanced, executions⟩ := execution_of_step stepped
      refine ⟨?_, fun later started member runs => ?_, paced.sweeps, still⟩
      · simpa [Watch.follow] using paced.executions
      · rw [Watch.follow_now, clock fun _ same => by cases same]
        rw [Watch.follow_state, executions] at member
        rcases mem_zip_set slot member with older | ⟨rfl, older⟩
        · exact paced.punctual later started older runs
        · obtain ⟨named, ran⟩ := running_of_step advanced runs
          rw [named]
          exact paced.punctual execution started older ran
  | startSweep =>
      refine ⟨paced.executions, paced.punctual, by simp [Watch.follow, paced.sweeps],
        fun phase begun member => ?_⟩
      rcases mem_zip_snoc paced.sweeps member with older | ⟨rfl, rfl⟩
      · exact still phase begun older
      · refine ⟨Int.le_refl _, fun threshold same => by cases same; rfl, fun _ => ?_,
          fun id inside => by cases inside⟩
        have rest := atRest_of_allRested paced.executions (inTime_iff.mpr paced.punctual) timed
        exact atRest_of_untouched rest rfl rfl
  | sweep index inner _ _ _ _ _ =>
      obtain ⟨phase, next, slot, advanced, sweeps⟩ := sweep_of_step stepped
      refine ⟨paced.executions, ?_, by simpa [Watch.follow] using paced.sweeps,
        fun later begun member => ?_⟩
      · rw [Watch.follow_now, clock fun _ same => by cases same]
        exact paced.punctual
      · rw [Watch.follow_state, sweeps] at member
        rcases mem_zip_set slot member with older | ⟨rfl, older⟩
        · exact still later begun older
        · exact (paced.begun phase begun older).moved older served timed stepped advanced
  | unborn | born | original | tasks | startCompletion | completion | startDeletion | deletion =>
      exact same (fun _ different => by cases different) rfl rfl rfl rfl

theorem watchStep_eq_some (stepped : watchStep watch event = some next) :
    ∃ after, step watch.state event = some after ∧ next = watch.follow event after := by
  obtain ⟨after, moved, rfl⟩ := Option.map_eq_some_iff.mp stepped
  exact ⟨after, moved, rfl⟩

theorem paced_of_reaches {now : Instant}
    (reached : Reaches watchStep WellTimed (.initial now) watch) :
    Served watch.state ∧ Paced watch := by
  refine reached.preserves (fun watch => Served watch.state ∧ Paced watch)
    ⟨.initial now, .initial now⟩ fun holds timed stepped => ?_
  obtain ⟨after, moved, rfl⟩ := watchStep_eq_some stepped
  exact ⟨holds.1.step (step_effect moved), holds.2.step holds.1 timed moved⟩

/-- In every well-timed run, a video that a sweep turns from `UPLOADED` or
`PROCESSING` to `FAILED` has no handler under way and has had its status for at
least a day. -/
theorem sweep_spares_live_work {now : Instant}
    (reached : Reaches watchStep WellTimed (.initial now) watch) {index : Nat}
    {inner : SweepEvent} (stepped : step watch.state (.sweep index inner) = some after)
    {row later : Video} (found : watch.state.stores.videos.find? id = some row)
    (waiting : Waiting row.status) (there : after.stores.videos.find? id = some later)
    (failed : later.status = .failed) :
    (∀ execution ∈ watch.state.executions, execution.id = id → execution.running = false) ∧
    watch.since id + STALE_VIDEO_AGE ≤ watch.state.stores.now := by
  have paced := (paced_of_reaches reached).2
  have changed : later ≠ row := by
    rintro rfl
    rw [failed] at waiting
    rcases waiting with same | same <;> cases same
  obtain ⟨phase, next, slot, advanced, _⟩ := sweep_of_step stepped
  obtain ⟨begun, member⟩ := exists_mark_of_mem paced.sweeps (List.mem_of_getElem? slot)
  have known := paced.begun phase begun member
  have effect := sweepStep_effect advanced
  generalize after.stores = stores at effect there
  cases effect with
  | quiet | scheduled =>
      rw [found] at there
      exact absurd (Option.some.inj there).symm changed
  | marked stale old _ origin =>
      rw [find?_bulkMarkFailed, found, Option.map_some] at there
      split at there
      · rename_i touched
        subst origin
        have aged := (known.listed id touched.1).2 row found
        obtain ⟨since, unattended⟩ := known.rest rfl id row found waiting aged
        refine ⟨fun execution inside named => ?_, ?_⟩
        · rw [Bool.eq_false_iff]
          intro running
          rw [isRunning_iff.mpr ⟨execution, inside, named, running⟩] at unattended
          cases unattended
        · exact Int.le_trans (Int.add_le_of_le_sub_right since) known.past
      · exact absurd (Option.some.inj there).symm changed

/-- A sweep that has run its two queries. -/
def queriedSweep : List Event := [.startSweep, .sweep 0 (.call .none), .sweep 0 (.call .none)]

/-- Whether the sweep's next call turns the waiting row into a failed one, and what a
test says of the watch. -/
def sweepFails (watch : Watch) (id : VideoId) (check : Watch → Bool) : Bool :=
  (watch.state.stores.videos.find? id).any fun row =>
    (decide (row.status = .uploaded) || decide (row.status = .processing)) &&
    ((step watch.state (.sweep 0 (.call .none))).any fun after =>
      (after.stores.videos.find? id).any fun later => decide (later.status = .failed)) &&
    check watch

theorem sweepFails_iff {check : Watch → Bool} :
    sweepFails watch id check = true ↔ ∃ row after later,
      watch.state.stores.videos.find? id = some row ∧ Waiting row.status ∧
      step watch.state (.sweep 0 (.call .none)) = some after ∧
      after.stores.videos.find? id = some later ∧ later.status = .failed ∧ check watch = true := by
  simp only [sweepFails, Option.any_eq_true, Bool.and_eq_true, Bool.or_eq_true,
    decide_eq_true_eq, Waiting]
  grind

/-- A video whose handler went with its process is swept up two days later. -/
def strandedVideo (id : VideoId) (task : TaskId) : List Event :=
  claimedVideo id task ++ [.execution 0 .kill, .advance (2 * STALE_VIDEO_AGE)] ++ queriedSweep

theorem sweep_spares_live_work_strandedVideo : ∃ watch,
    Reaches watchStep WellTimed (.initial 0) watch ∧
    watch.state.executions.map Execution.id = [⟨.ofNat 7⟩] ∧
    (∀ execution ∈ watch.state.executions, execution.id = ⟨.ofNat 7⟩ →
      execution.running = false) ∧
    watch.since ⟨.ofNat 7⟩ + STALE_VIDEO_AGE ≤ watch.state.stores.now := by
  have passed : ((run watchStep WellTimed (.initial 0)
      (strandedVideo ⟨.ofNat 7⟩ ⟨.ofNat 8⟩)).map fun watch =>
        sweepFails watch ⟨.ofNat 7⟩ fun watch =>
          decide (watch.state.executions.map Execution.id = [⟨.ofNat 7⟩])) = some true := by
    decide +kernel
  obtain ⟨watch, reached, passed⟩ := reaches_of_check _ passed
  obtain ⟨row, after, later, found, waiting, stepped, there, failed, named⟩ :=
    sweepFails_iff.mp passed
  exact ⟨watch, reached, of_decide_eq_true named,
    sweep_spares_live_work reached stepped found waiting there failed⟩

/-- The upload is completed a second short of a day after the initiation, and a
handler claims the video and probes it when the sweep comes. -/
def lateUpload (id : VideoId) (task : TaskId) : List Event :=
  [.initiate id "a title" .mkv true, .putOriginal id .mkv "video/x-matroska" matroska,
    .advance (STALE_VIDEO_AGE - 1000), .startCompletion id, .completion 0 (.call .none),
    .completion 0 (.call .none), .completion 0 (.call .none),
    .completion 0 (.transition .none ⟨task, none⟩), .startExecution task id,
    .execution 0 (.call .none), .execution 0 (.call .none), .advance (STALE_VIDEO_AGE + 1)] ++
  queriedSweep

theorem lateUpload_failed : ∃ watch row after later execution,
    Reaches watchStep Anything (.initial 0) watch ∧
    watch.state.stores.videos.find? ⟨.ofNat 7⟩ = some row ∧ Waiting row.status ∧
    step watch.state (.sweep 0 (.call .none)) = some after ∧
    after.stores.videos.find? ⟨.ofNat 7⟩ = some later ∧ later.status = .failed ∧
    execution ∈ watch.state.executions ∧ execution.id = ⟨.ofNat 7⟩ ∧ execution.running = true ∧
    watch.state.stores.now < watch.since ⟨.ofNat 7⟩ + STALE_VIDEO_AGE := by
  have passed : ((run watchStep Anything (.initial 0)
      (lateUpload ⟨.ofNat 7⟩ ⟨.ofNat 8⟩)).map fun watch =>
        sweepFails watch ⟨.ofNat 7⟩ fun watch => isRunning watch.state ⟨.ofNat 7⟩ &&
          decide (watch.state.stores.now < watch.since ⟨.ofNat 7⟩ + STALE_VIDEO_AGE)) =
      some true := by decide +kernel
  obtain ⟨watch, reached, passed⟩ := reaches_of_check _ passed
  obtain ⟨row, after, later, found, waiting, stepped, there, failed, both⟩ :=
    sweepFails_iff.mp passed
  obtain ⟨running, recent⟩ := Bool.and_eq_true_iff.mp both
  obtain ⟨execution, member, named, holds⟩ := isRunning_iff.mp running
  exact ⟨watch, row, after, later, execution, reached, found, waiting, stepped, there, failed,
    member, named, holds, of_decide_eq_true recent⟩

end Benri.Service
