import Benri.Worker.Effect

namespace Benri.Worker

open Benri.Data Benri.Domain Benri.Postgres Benri.Redis Benri.Transition

/-! # One task in progress per ordering key

`find_pending` and `mark_in_progress` are two statements.  What carries the
guarantee from the first to the second is that no row of a batch's keys starts
in between: only `mark_in_progress` starts rows, and while leases hold there is
one poller that may call it.
-/

variable {decoders : Decoders} {before after state : State} {event : Event}

/-! ## Tables -/

def InProgress (tasks : TaskTable) (task : Task) : Prop :=
  tasks.find? task.id = some task ∧ task.status = .inProgress

/-- Rows in progress have different ordering keys, unless they have none. -/
def SolePerKey (tasks : TaskTable) : Prop :=
  ∀ left right, InProgress tasks left → InProgress tasks right → left.orderingKey ≠ none →
    left.orderingKey = right.orderingKey → left.id = right.id

/-- The tasks a poller may start: they exist, nothing in progress has their
keys, and they do not share keys among themselves. -/
structure Startable (tasks : TaskTable) (ids : List TaskId) : Prop where
  present : ∀ id ∈ ids, ∃ task, tasks.find? id = some task
  unblocked : ∀ id ∈ ids, ∀ task, tasks.find? id = some task → ∀ other, InProgress tasks other →
    other.orderingKey ≠ none → other.orderingKey ≠ task.orderingKey
  apart : ∀ left ∈ ids, ∀ right ∈ ids, ∀ leftTask rightTask, tasks.find? left = some leftTask →
    tasks.find? right = some rightTask → leftTask.orderingKey ≠ none →
    leftTask.orderingKey = rightTask.orderingKey → left = right

/-- A change of the table that keeps every ordering key and starts nothing. -/
structure StartsNothing (before after : TaskTable) : Prop where
  kept : ∀ id task, before.find? id = some task → ∃ next, after.find? id = some next
  traced : ∀ id next, after.find? id = some next →
    (∃ task, before.find? id = some task ∧ next.orderingKey = task.orderingKey ∧
      (next.status = .inProgress → task.status = .inProgress)) ∨
    (before.find? id = none ∧ next.status ≠ .inProgress)

theorem StartsNothing.of_map {old new : TaskTable} (change : Task → Task)
    (rows : ∀ id, new.find? id = (old.find? id).map change)
    (keys : ∀ task, (change task).orderingKey = task.orderingKey)
    (starts : ∀ task, (change task).status = .inProgress → task.status = .inProgress) :
    StartsNothing old new where
  kept id task found := ⟨change task, by rw [rows, found]; rfl⟩
  traced id next found := by
    rw [rows] at found
    obtain ⟨task, row, rfl⟩ := Option.map_eq_some_iff.mp found
    exact .inl ⟨task, row, keys task, starts task⟩

theorem StartsNothing.refl (tasks : TaskTable) : StartsNothing tasks tasks :=
  .of_map id (fun id => by simp) (fun _ => rfl) fun _ running => running

theorem StartsNothing.insert {tasks next : TaskTable} {task : Task} (fresh : task.isNew = true)
    (inserted : tasks.insert? task = some next) : StartsNothing tasks next where
  kept id row found := by
    rw [Table.find?_insert? inserted]
    split
    · exact ⟨task, rfl⟩
    · exact ⟨row, found⟩
  traced id row found := by
    rw [Table.find?_insert? inserted] at found
    split at found
    · rename_i same
      obtain rfl := Option.some.inj found
      refine .inr ⟨same ▸ (Table.insert?_eq_some inserted).1, ?_⟩
      simp only [Task.isNew, Bool.and_eq_true, decide_eq_true_eq] at fresh
      simp [fresh.1.1.1.1]
    · exact .inl ⟨row, found, rfl, fun running => running⟩

theorem StartsNothing.batchUpdate (tasks : TaskTable) {update : TaskUpdate}
    (stopping : update.status ≠ .inProgress) :
    StartsNothing tasks (batchUpdate tasks [update]) where
  kept id task found := ⟨_, by rw [find?_batchUpdate_single, found]; rfl⟩
  traced id next found := by
    rw [find?_batchUpdate_single] at found
    obtain ⟨task, row, rfl⟩ := Option.map_eq_some_iff.mp found
    refine .inl ⟨task, row, ?_, ?_⟩
    · split <;> rfl
    · split
      · exact fun running => absurd running stopping
      · exact fun running => running

theorem StartsNothing.resetStale (tasks : TaskTable) (now : Instant) :
    StartsNothing tasks (resetStale tasks now) := by
  refine .of_map _ (find?_resetStale tasks now) (fun task => ?_) fun task => ?_
  · split <;> rfl
  · split <;> simp

theorem StartsNothing.inProgress {old new : TaskTable} (change : StartsNothing old new)
    {task : Task} (running : InProgress new task) :
    ∃ source, InProgress old source ∧ source.id = task.id ∧
      source.orderingKey = task.orderingKey := by
  rcases change.traced task.id task running.1 with ⟨source, row, key, started⟩ | ⟨_, idle⟩
  · have same := Table.key_of_find? row
    exact ⟨source, ⟨same ▸ row, started running.2⟩, same, key.symm⟩
  · exact absurd running.2 idle

theorem SolePerKey.startsNothing {old new : TaskTable} (sole : SolePerKey old)
    (change : StartsNothing old new) : SolePerKey new := by
  intro left right leftRunning rightRunning keyed same
  obtain ⟨leftSource, leftOld, leftId, leftKey⟩ := change.inProgress leftRunning
  obtain ⟨rightSource, rightOld, rightId, rightKey⟩ := change.inProgress rightRunning
  rw [← leftId, ← rightId]
  exact sole leftSource rightSource leftOld rightOld (leftKey ▸ keyed)
    (by rw [leftKey, rightKey, same])

theorem Startable.startsNothing {old new : TaskTable} {ids : List TaskId}
    (startable : Startable old ids) (change : StartsNothing old new) : Startable new ids := by
  have source : ∀ id ∈ ids, ∀ next, new.find? id = some next →
      ∃ task, old.find? id = some task ∧ next.orderingKey = task.orderingKey := by
    intro id member next found
    obtain ⟨task, row⟩ := startable.present id member
    rcases change.traced id next found with ⟨task, row, key, _⟩ | ⟨absent, _⟩
    · exact ⟨task, row, key⟩
    · rw [row] at absent; contradiction
  refine ⟨fun id member => ?_, fun id member next found other running keyed => ?_, ?_⟩
  · obtain ⟨task, row⟩ := startable.present id member
    exact change.kept id task row
  · obtain ⟨task, row, key⟩ := source id member next found
    obtain ⟨otherSource, otherOld, _, otherKey⟩ := change.inProgress running
    rw [key, ← otherKey]
    exact startable.unblocked id member task row otherSource otherOld (otherKey ▸ keyed)
  · intro left leftMember right rightMember leftNext rightNext leftFound rightFound keyed same
    obtain ⟨leftTask, leftRow, leftKey⟩ := source left leftMember leftNext leftFound
    obtain ⟨rightTask, rightRow, rightKey⟩ := source right rightMember rightNext rightFound
    exact startable.apart left leftMember right rightMember leftTask rightTask leftRow rightRow
      (leftKey ▸ keyed) (by rw [← leftKey, ← rightKey, same])

/-- What `find_pending` returns may be started. -/
theorem startable_findPending (tasks : TaskTable) (limit : Nat) (now : Instant) :
    Startable tasks ((findPending tasks limit now).map Task.id) := by
  have member : ∀ id ∈ (findPending tasks limit now).map Task.id, ∀ task,
      tasks.find? id = some task → task ∈ findPending tasks limit now := by
    intro id member task found
    obtain ⟨source, inside, rfl⟩ := List.mem_map.mp member
    rw [(mem_findPending inside).row] at found
    exact Option.some.inj found ▸ inside
  refine ⟨fun id inside => ?_, fun id inside task found other running keyed => ?_, ?_⟩
  · obtain ⟨task, batch, rfl⟩ := List.mem_map.mp inside
    exact ⟨task, (mem_findPending batch).row⟩
  · exact (mem_findPending (member id inside task found)).unblocked other running.1 running.2 keyed
  · intro left leftInside right rightInside leftTask rightTask leftFound rightFound keyed same
    by_contra different
    have leftMember := member left leftInside leftTask leftFound
    have rightMember := member right rightInside rightTask rightFound
    have distinct : leftTask ≠ rightTask := by
      rintro rfl
      exact different ((Table.key_of_find? leftFound).symm.trans (Table.key_of_find? rightFound))
    exact keyed (findPending_keys leftMember rightMember distinct same)

/-- A row in progress after `mark_in_progress` was named by it or was so before. -/
theorem inProgress_markInProgress {tasks : TaskTable} {ids : List TaskId} {now : Instant}
    {task : Task} (running : InProgress (markInProgress tasks ids now) task) :
    (task.id ∈ ids ∧ ∃ source, tasks.find? task.id = some source ∧
      source.orderingKey = task.orderingKey) ∨ InProgress tasks task := by
  obtain ⟨found, status⟩ := running
  rw [find?_markInProgress] at found
  obtain ⟨source, row, same⟩ := Option.map_eq_some_iff.mp found
  by_cases member : task.id ∈ ids
  · rw [if_pos member] at same
    exact .inl ⟨member, source, row, by rw [← same]⟩
  · rw [if_neg member] at same
    exact .inr ⟨same ▸ row, status⟩

/-- Starting a startable batch keeps the rows in progress apart. -/
theorem SolePerKey.markInProgress {tasks : TaskTable} {ids : List TaskId} (sole : SolePerKey tasks)
    (startable : Startable tasks ids) (now : Instant) :
    SolePerKey (markInProgress tasks ids now) := by
  intro left right leftRunning rightRunning keyed same
  rcases inProgress_markInProgress leftRunning with
      ⟨leftIn, leftTask, leftRow, leftKey⟩ | leftOld <;>
    rcases inProgress_markInProgress rightRunning with
      ⟨rightIn, rightTask, rightRow, rightKey⟩ | rightOld
  · exact startable.apart _ leftIn _ rightIn leftTask rightTask leftRow rightRow
      (leftKey ▸ keyed) (by rw [leftKey, rightKey, same])
  · exact absurd (by rw [leftKey, same]) (startable.unblocked _ leftIn leftTask leftRow right
      rightOld (same ▸ keyed))
  · exact absurd (by rw [rightKey, same]) (startable.unblocked _ rightIn rightTask rightRow left
      leftOld keyed)
  · exact sole left right leftOld rightOld keyed same

/-! ## Lock tokens -/

/-- The token a poll cycle works under, from `acquire` to `release`. -/
def PollPhase.tokens : PollPhase → List LockToken
  | .acquired token | .findPending token _ | .markInProgress token _ _ | .publish token _
  | .release token _ => [token]
  | .acquire | .finished _ | .crashed => []

/-- No two poll cycles work under one token. -/
structure TokensApart (state : State) : Prop where
  drawn : ∀ token ∈ gather PollPhase.tokens state.polls, token.serial < state.issued
  distinct : (gather PollPhase.tokens state.polls).Nodup

theorem TokensApart.fewer (apart : TokensApart before) (issued : before.issued ≤ after.issued)
    (fewer : (gather PollPhase.tokens after.polls).Subperm
      (gather PollPhase.tokens before.polls)) : TokensApart after where
  drawn token member := Nat.lt_of_lt_of_le (apart.drawn token (fewer.subset member)) issued
  distinct := Subperm.nodup fewer apart.distinct

theorem TokensApart.drawNew (apart : TokensApart before) {index : Nat} {token : LockToken}
    (slot : before.polls[index]? = some .acquire) (serial : token.serial = before.issued)
    (issued : after.issued = before.issued + 1)
    (polls : after.polls = before.polls.set index (.acquired token)) : TokensApart after := by
  have old := gather_perm PollPhase.tokens slot
  have new := gather_set_perm PollPhase.tokens (.acquired token) slot
  rw [← polls] at new
  simp only [PollPhase.tokens, List.nil_append, List.singleton_append] at old new
  constructor
  · intro other member
    rcases List.mem_cons.mp (new.mem_iff.mp member) with rfl | member
    · omega
    · have := apart.drawn other (old.mem_iff.mpr member)
      omega
  · refine new.nodup_iff.mpr
      (List.nodup_cons.mpr ⟨fun member => ?_, old.nodup_iff.mp apart.distinct⟩)
    have := apart.drawn token (old.mem_iff.mpr member)
    omega

theorem TokensApart.pollEffect (apart : TokensApart before) {index : Nat}
    {phase next : PollPhase} {reached : State} (slot : before.polls[index]? = some phase)
    (effect : PollEffect before phase reached next) :
    TokensApart (reached.setPoll index next) := by
  cases effect with
  | acquired lock anew => exact apart.drawNew slot rfl rfl rfl
  | denied lock result anew =>
      exact apart.fewer (Nat.le_succ _) (gather_set_subperm slot (List.Sublist.refl _))
  | released token lock result freed =>
      exact apart.fewer (Nat.le_refl _) (gather_set_subperm slot (List.nil_sublist _))
  | clock | nothing | found | marked | markFailed | published =>
      exact apart.fewer (Nat.le_refl _) (gather_set_subperm slot (List.Sublist.refl _))

theorem TokensApart.step (apart : TokensApart before)
    (effect : Effect decoders before event after) : TokensApart after := by
  cases effect with
  | poll index fault phase next reached slot effect => exact apart.pollEffect slot effect
  | startPoll =>
      refine apart.fewer (Nat.le_refl _) ?_
      simpa [PollPhase.tokens] using List.Subperm.refl _
  | crashPoll index =>
      cases slot : before.polls[index]? with
      | none =>
          rw [State.setPoll, set_missing slot]
          exact apart
      | some phase =>
          exact apart.fewer (Nat.le_refl _) (gather_set_subperm slot (List.nil_sublist _))
  | advance | create | popped | popFailed | dispatched | skipped | handled | written | crashRun
  | resetStale | wipeQueue => exact ⟨apart.drawn, apart.distinct⟩

/-! ## Batches and outcomes -/

/-- A run's outcome is addressed to its own task and never starts it. -/
def Run.Addressed (run : Run) : Prop :=
  match run.phase with
  | .handling task _ _ => task.id = run.taskId
  | .write outcome => outcome.update.taskId = run.taskId ∧ outcome.update.status ≠ .inProgress
  | .fetch | .finished | .crashed => True

theorem addressed_step (addressed : ∀ run ∈ before.runs, run.Addressed)
    (effect : Effect decoders before event after) : ∀ run ∈ after.runs, run.Addressed := by
  cases effect with
  | popped fault id rest head => exact forall_mem_snoc addressed trivial
  | dispatched index fault id task phase slot row running routed =>
      have same : task.id = id := Table.key_of_find? row
      refine forall_mem_set addressed ?_
      cases outcome : route decoders task with
      | ok metadata =>
          rw [outcome] at routed
          exact routed ▸ same
      | error error =>
          rw [outcome] at routed
          exact routed ▸ ⟨same, by simp [deadLetterOutcome]⟩
  | handled index event id task metadata since result slot ending =>
      have same : task.id = id := addressed _ (List.mem_of_getElem? slot)
      have shape := metadata.computeUpdate_shape task result before.now
      exact forall_mem_set addressed ⟨shape.1.trans same, shape.2⟩
  | skipped | written | crashRun => exact forall_mem_set addressed trivial
  | poll index fault phase next reached slot effect =>
      cases effect <;> exact addressed
  | advance | create | startPoll | crashPoll | popFailed | resetStale | wipeQueue =>
      exact addressed

def PollPhase.Batched (tasks : TaskTable) : PollPhase → Prop
  | .markInProgress _ _ ids => Startable tasks ids
  | _ => True

def PollPhase.marking : PollPhase → Bool
  | .markInProgress _ _ _ => true
  | _ => false

theorem PollPhase.batched_of_not_marking {tasks : TaskTable} {phase : PollPhase}
    (idle : phase.marking = false) : phase.Batched tasks := by
  cases phase with
  | markInProgress token now ids => cases idle
  | _ => trivial

theorem PollPhase.Batched.startsNothing {old new : TaskTable} {phase : PollPhase}
    (batched : phase.Batched old) (change : StartsNothing old new) : phase.Batched new := by
  cases phase with
  | markInProgress token now ids => exact Startable.startsNothing batched change
  | _ => trivial

/-- A poller between `find_pending` and `mark_in_progress` holds a live lease. -/
def PollPhase.Leased (state : State) : PollPhase → Prop
  | .markInProgress token _ _ => (holder state.lock state.now).map Lease.token = some token
  | _ => True

instance (state : State) (poll : PollPhase) : Decidable (poll.Leased state) :=
  match poll with
  | .markInProgress token _ _ =>
      inferInstanceAs (Decidable ((holder state.lock state.now).map Lease.token = some token))
  | .acquire | .acquired _ | .findPending _ _ | .publish _ _ | .release _ _ | .finished _
  | .crashed => inferInstanceAs (Decidable True)

def LeasedSlot (state : State) : Option PollPhase → Prop
  | some poll => poll.Leased state
  | none => True

instance (state : State) (slot : Option PollPhase) : Decidable (LeasedSlot state slot) :=
  match slot with
  | some poll => inferInstanceAs (Decidable (poll.Leased state))
  | none => .isTrue trivial

/-- Every `mark_in_progress` runs while the poller's lease is live: no lease
expires while its holder is between `find_pending` and `mark_in_progress`. -/
def MarksUnderLease (state : State) : Event → Prop
  | .poll index _ => LeasedSlot state state.polls[index]?
  | _ => True

instance (state : State) (event : Event) : Decidable (MarksUnderLease state event) :=
  match event with
  | .poll index _ => inferInstanceAs (Decidable (LeasedSlot state state.polls[index]?))
  | .advance _ | .create _ | .startPoll | .crashPoll _ | .pop _ | .fetch _ _ | .finish _ _
  | .timeout _ | .write _ _ | .crashRun _ | .resetStale | .wipeQueue => .isTrue trivial

theorem MarksUnderLease.leased {index : Nat} {fault : Fault} {phase : PollPhase}
    (permitted : MarksUnderLease state (.poll index fault))
    (slot : state.polls[index]? = some phase) : phase.Leased state := by
  simpa only [MarksUnderLease, slot, LeasedSlot] using permitted

/-- While one poller may start rows, no other one may. -/
theorem TokensApart.alone (apart : TokensApart state) {index : Nat} {token : LockToken}
    {now : Instant} {ids : List TaskId}
    (slot : state.polls[index]? = some (.markInProgress token now ids))
    (leased : (PollPhase.markInProgress token now ids).Leased state) :
    ∀ poll ∈ state.polls.eraseIdx index, poll.Leased state → poll.marking = false := by
  intro poll member otherLeased
  cases poll with
  | markInProgress otherToken otherNow otherIds =>
      have same : some token = some otherToken := Eq.trans (Eq.symm leased) otherLeased
      cases same
      have distinct := (gather_perm PollPhase.tokens slot).nodup_iff.mp
        apart.distinct
      exact absurd (mem_gather.mpr ⟨_, member, List.mem_singleton_self _⟩)
        (List.nodup_cons.mp distinct).1
  | _ => rfl

/-- A lease that was lost does not come back. -/
theorem TokensApart.leasedBefore (apart : TokensApart before)
    (effect : Effect decoders before event after) {poll : PollPhase}
    (member : poll ∈ before.polls) (leased : poll.Leased after) : poll.Leased before := by
  cases poll with
  | markInProgress token now ids =>
      obtain ⟨lease, held, own⟩ := Option.map_eq_some_iff.mp leased
      have drawn : token.serial < before.issued :=
        apart.drawn token (mem_gather.mpr ⟨_, member, List.mem_singleton_self _⟩)
      have kept : holder before.lock before.now = some lease → (holder before.lock before.now).map
          Lease.token = some token := fun same => by rw [same, ← own]; rfl
      have fresh : lease.token ≠ ⟨before.issued⟩ := by
        rintro same
        rw [← own, same] at drawn
        exact Nat.lt_irrefl _ drawn
      cases effect with
      | advance now later => exact kept (holder_earlier later held)
      | poll index fault phase next reached slot effect =>
          cases effect with
          | acquired lock anew => exact kept ((anew lease held).resolve_right fresh)
          | denied lock result anew => exact kept ((anew lease held).resolve_right fresh)
          | released token lock result freed => exact kept (freed lease held)
          | clock | nothing | found | marked | markFailed | published => exact kept held
      | _ => exact kept held
  | _ => trivial

/-! ## The invariant -/

structure Ordered (state : State) : Prop where
  apart : TokensApart state
  addressed : ∀ run ∈ state.runs, run.Addressed
  batched : ∀ poll ∈ state.polls, poll.Leased state → poll.Batched state.tasks
  sole : SolePerKey state.tasks

theorem Ordered.initial (now : Instant) : Ordered (State.initial now) where
  apart := ⟨by simp [State.initial, gather], by simp [State.initial, gather]⟩
  addressed := by simp [State.initial]
  batched := by simp [State.initial]
  sole left right running := by simp [InProgress, State.initial] at running

/-- The pollers that were there keep what they know when nothing starts. -/
theorem Ordered.batchedBefore (ordered : Ordered before)
    (effect : Effect decoders before event after)
    (change : StartsNothing before.tasks after.tasks) :
    ∀ poll ∈ before.polls, poll.Leased after → poll.Batched after.tasks := by
  intro poll member leased
  exact (ordered.batched poll member
    (ordered.apart.leasedBefore effect member leased)).startsNothing change

theorem Ordered.startsNothing (ordered : Ordered before)
    (effect : Effect decoders before event after)
    (change : StartsNothing before.tasks after.tasks)
    (batched : ∀ poll ∈ after.polls, poll.Leased after → poll.Batched after.tasks) :
    Ordered after where
  apart := ordered.apart.step effect
  addressed := addressed_step ordered.addressed effect
  batched := batched
  sole := ordered.sole.startsNothing change

theorem Ordered.step (ordered : Ordered before) (permitted : MarksUnderLease before event)
    (effect : Effect decoders before event after) : Ordered after := by
  have whole := effect
  have unstarted : before.tasks = after.tasks → StartsNothing before.tasks after.tasks :=
    fun same => same ▸ .refl _
  cases effect with
  | create task tasks fresh inserted =>
      have change : StartsNothing before.tasks tasks := .insert fresh inserted
      exact ordered.startsNothing whole change (ordered.batchedBefore whole change)
  | written index fault id outcome tasks slot perhaps =>
      have shape := ordered.addressed _ (List.mem_of_getElem? slot)
      have change : StartsNothing before.tasks tasks := by
        rcases perhaps with rfl | rfl
        · exact .refl _
        · exact .batchUpdate _ shape.2
      exact ordered.startsNothing whole change (ordered.batchedBefore whole change)
  | resetStale =>
      have change := StartsNothing.resetStale before.tasks before.now
      exact ordered.startsNothing whole change (ordered.batchedBefore whole change)
  | startPoll =>
      exact ordered.startsNothing whole (unstarted rfl)
        (forall_mem_snoc (ordered.batchedBefore whole (unstarted rfl)) fun _ => trivial)
  | crashPoll index =>
      exact ordered.startsNothing whole (unstarted rfl)
        (forall_mem_set (ordered.batchedBefore whole (unstarted rfl)) fun _ => trivial)
  | advance | popped | popFailed | dispatched | skipped | handled | crashRun | wipeQueue =>
      exact ordered.startsNothing whole (unstarted rfl)
        (ordered.batchedBefore whole (unstarted rfl))
  | poll index fault phase next reached slot effect =>
      have leased := permitted.leased slot
      have others : ∀ token now ids, phase = .markInProgress token now ids →
          ∀ poll ∈ before.polls.eraseIdx index, poll.Leased (reached.setPoll index next) →
            poll.Batched (reached.setPoll index next).tasks := by
        rintro token now ids rfl poll member later
        have earlier := ordered.apart.leasedBefore whole (List.mem_of_mem_eraseIdx member) later
        exact PollPhase.batched_of_not_marking
          (ordered.apart.alone slot leased poll member earlier)
      cases effect with
      | found token now =>
          exact ordered.startsNothing whole (unstarted rfl)
            (forall_mem_set (ordered.batchedBefore whole (unstarted rfl))
              fun _ => startable_findPending _ _ _)
      | marked token now ids =>
          have startable : Startable before.tasks ids :=
            ordered.batched _ (List.mem_of_getElem? slot) leased
          exact ⟨ordered.apart.step whole, ordered.addressed,
            forall_mem_set_others slot (others token now ids rfl) fun _ => trivial,
            ordered.sole.markInProgress startable now⟩
      | markFailed token now ids tasks perhaps result =>
          have startable : Startable before.tasks ids :=
            ordered.batched _ (List.mem_of_getElem? slot) leased
          refine ⟨ordered.apart.step whole, ordered.addressed,
            forall_mem_set_others slot (others token now ids rfl) fun _ => trivial, ?_⟩
          rcases perhaps with rfl | rfl
          · exact ordered.sole
          · exact ordered.sole.markInProgress startable now
      | acquired | denied | clock | nothing | published | released =>
          exact ordered.startsNothing whole (unstarted rfl)
            (forall_mem_set (ordered.batchedBefore whole (unstarted rfl)) fun _ => trivial)

theorem ordered_of_reaches {now : Instant}
    (reached : Reaches (step decoders) MarksUnderLease (State.initial now) state) :
    Ordered state :=
  reached.preserves Ordered (.initial now) fun ordered permitted stepped =>
    ordered.step permitted (step_effect stepped)

/-- Two rows in progress never share an ordering key. -/
theorem inProgress_orderingKeys_differ {now : Instant} {left right : Task}
    (reached : Reaches (step decoders) MarksUnderLease (State.initial now) state)
    (leftRow : left ∈ state.tasks.rows) (rightRow : right ∈ state.tasks.rows)
    (leftRunning : left.status = .inProgress) (rightRunning : right.status = .inProgress)
    (keyed : left.orderingKey ≠ none) (same : left.orderingKey = right.orderingKey) :
    left = right := by
  have ids := (ordered_of_reaches reached).sole left right ⟨Table.find?_of_mem leftRow, leftRunning⟩
    ⟨Table.find?_of_mem rightRow, rightRunning⟩ keyed same
  exact List.inj_on_of_nodup_map state.tasks.unique leftRow rightRow ids

/-- One sweep task, created and taken through a poll cycle up to its publish. -/
private def sweepTask : Task :=
  buildPendingTask (CleanupStaleVideosTaskMetadata.mk) none ⟨.ofNat 7⟩ none 0

private def noDecoders : Decoders := ⟨fun _ => .error "", fun _ => .error "", fun _ => .error ""⟩

private def startedSweep : State where
  now := 0
  tasks := ⟨[{ sweepTask with status := .inProgress, startedAt := some 0 }], by decide⟩
  queue := []
  lock := some ⟨⟨0⟩, 30000⟩
  issued := 1
  polls := [.publish ⟨0⟩ [⟨.ofNat 7⟩]]
  runs := []

private theorem startedSweep_reached :
    Reaches (step noDecoders) MarksUnderLease (State.initial 0) startedSweep :=
  reaches_of_run [.create sweepTask, .startPoll, .poll 0 .none, .poll 0 .none, .poll 0 .none,
    .poll 0 .none] rfl

theorem inProgress_orderingKeys_differ_startedSweep :
    ({ sweepTask with status := .inProgress, startedAt := some 0 } : Task) =
      { sweepTask with status := .inProgress, startedAt := some 0 } :=
  inProgress_orderingKeys_differ startedSweep_reached (List.mem_singleton_self _)
    (List.mem_singleton_self _) rfl rfl (by decide) rfl

end Benri.Worker
