import Benri.Postgres.Pending
import Benri.Transition.History

namespace Benri.Postgres

open Benri.Data Benri.Domain Benri.Transition

/-! # The backlog under repeated polls

One round of the poller takes the first tasks on offer off the backlog.  Rounds
at one moment page through the offer; and between whatever else happens to the
table, a task that nothing new comes before is taken after as many rounds as the
rows before it fill.
-/

/-- The statements of `do_poll`: what `find_pending` returns is marked in progress. -/
def pollRound (tasks : TaskTable) (limit : Nat) (now : Instant) : TaskTable :=
  markInProgress tasks ((findPending tasks limit now).map Task.id) now

/-- The batches of so many rounds, and the table they leave. -/
def pollRounds (limit : Nat) (now : Instant) : Nat → TaskTable → List (List Task) × TaskTable
  | 0, tasks => ([], tasks)
  | rounds + 1, tasks =>
      let later := pollRounds limit now rounds (pollRound tasks limit now)
      (findPending tasks limit now :: later.1, later.2)

variable {tasks : TaskTable} {limit : Nat} {now : Instant} {task other : Task}

/-! ## One round -/

instance (left right : Task) : Decidable (Sooner left right) :=
  inferInstanceAs (Decidable (_ ∨ _))

theorem Sooner.trans {left middle right : Task} (first : Sooner left middle)
    (second : Sooner middle right) : Sooner left right := by
  simp only [Sooner] at first second ⊢
  rcases first with early | ⟨same, early⟩
  · rcases second with late | ⟨equal, _⟩
    · exact .inl (lt_trans early late)
    · exact .inl (equal ▸ early)
  · rcases second with late | ⟨equal, late⟩
    · exact .inl (same ▸ late)
    · exact .inr ⟨same.trans equal, lt_trans early late⟩

theorem Sooner.asymm {left right : Task} (sooner : Sooner left right) : ¬Sooner right left :=
  fun back => Sooner.irrefl left (sooner.trans back)

theorem findPending_subset : findPending tasks limit now ⊆ offers tasks now := by
  rw [findPending_eq_take]
  exact List.take_subset _ _

theorem offered_of_found (found : task ∈ findPending tasks limit now) : Offered tasks now task :=
  mem_offers.mp (findPending_subset found)

/-- A row is marked when it was found; its id says so. -/
theorem found_iff (row : tasks.find? task.id = some task) :
    task.id ∈ (findPending tasks limit now).map Task.id ↔ task ∈ findPending tasks limit now := by
  constructor
  · intro named
    obtain ⟨found, member, same⟩ := List.mem_map.mp named
    have there := (offered_of_found member).row
    rw [same, row] at there
    exact Option.some.inj there ▸ member
  · exact List.mem_map_of_mem

/-- The row that a round marks. -/
def started (task : Task) (now : Instant) : Task :=
  { task with status := .inProgress, startedAt := some now, updatedAt := now }

theorem find?_pollRound_found (found : task ∈ findPending tasks limit now) :
    (pollRound tasks limit now).find? task.id = some (started task now) := by
  rw [pollRound, find?_markInProgress, (offered_of_found found).row, Option.map_some,
    if_pos (List.mem_map_of_mem found)]
  rfl

theorem find?_pollRound_unfound (row : tasks.find? task.id = some task)
    (unfound : task ∉ findPending tasks limit now) :
    (pollRound tasks limit now).find? task.id = some task := by
  rw [pollRound, find?_markInProgress, row, Option.map_some, if_neg]
  rwa [found_iff row]

/-- What is still pending was pending, and was not found. -/
theorem pending_pollRound (row : (pollRound tasks limit now).find? task.id = some task)
    (pending : task.status = .pending) :
    tasks.find? task.id = some task ∧ task ∉ findPending tasks limit now := by
  have shown := row
  rw [pollRound, find?_markInProgress] at shown
  obtain ⟨old, before, same⟩ := Option.map_eq_some_iff.mp shown
  split at same
  · rw [← same] at pending
    cases pending
  · subst same
    refine ⟨before, fun found => ?_⟩
    rw [find?_pollRound_found found] at row
    have marked := congrArg Task.status (Option.some.inj row)
    rw [pending] at marked
    cases marked

/-- Two tasks on offer share an ordering key only when they have none. -/
theorem offered_keys (first : Offered tasks now task) (second : Offered tasks now other)
    (same : task.orderingKey = other.orderingKey) (keyed : task.orderingKey ≠ none) :
    task = other := by
  have whole : ∀ {any}, Offered tasks now any →
      any ∈ findPending tasks (offers tasks now).length now := by
    intro any offered
    rw [findPending_eq_take, List.take_length]
    exact mem_offers.mpr offered
  by_contra different
  exact keyed (findPending_keys (whole first) (whole second) different same)

theorem offered_pollRound :
    Offered (pollRound tasks limit now) now task ↔
      Offered tasks now task ∧ task ∉ findPending tasks limit now := by
  constructor
  · intro offered
    obtain ⟨row, unfound⟩ := pending_pollRound offered.row offered.pending
    refine ⟨⟨row, offered.pending, offered.due, ?_⟩, unfound⟩
    rcases offered.heads with unkeyed | ⟨free, first⟩
    · exact .inl unkeyed
    · -- a row of the key that was found is running now, which the key forbids
      have kept : ∀ {rival}, tasks.find? rival.id = some rival →
          rival.orderingKey = task.orderingKey →
          (pollRound tasks limit now).find? rival.id = some rival := by
        intro rival there same
        by_cases found : rival ∈ findPending tasks limit now
        · have marked := find?_pollRound_found found
          exact absurd same (free (started rival now) marked rfl)
        · exact find?_pollRound_unfound there found
      refine .inr ⟨fun rival there running same => ?_, fun rival there waiting due same => ?_⟩
      · exact free rival (kept there same) running same
      · exact first rival (kept there same) waiting due same
  · rintro ⟨offered, unfound⟩
    refine ⟨?_, offered.pending, offered.due, ?_⟩
    · exact find?_pollRound_unfound offered.row unfound
    · by_cases keyed : task.orderingKey = none
      · exact .inl keyed
      obtain ⟨free, first⟩ := offered.heads.resolve_left keyed
      refine .inr ⟨fun rival there running same => ?_, fun rival there waiting due same => ?_⟩
      · have shown := there
        rw [pollRound, find?_markInProgress] at shown
        obtain ⟨old, before, rewritten⟩ := Option.map_eq_some_iff.mp shown
        have origin : old.id = rival.id := Table.key_of_find? before
        rw [← origin] at before
        split at rewritten
        · rename_i named
          rw [← origin, found_iff before] at named
          have key : old.orderingKey = task.orderingKey := by rw [← same, ← rewritten]
          have equal := offered_keys (offered_of_found named) offered key (key ▸ keyed)
          exact unfound (equal ▸ named)
        · subst rewritten
          exact free old before running same
      · exact first rival (pending_pollRound there waiting).1 waiting due same

theorem offers_nodup (tasks : TaskTable) (now : Instant) : (offers tasks now).Nodup := by
  refine (offers_sooner tasks now).imp fun {left right} sooner same => ?_
  exact Sooner.irrefl right (same ▸ sooner)

/-- A round takes the first tasks off the offer and puts no new one on it. -/
theorem offers_pollRound (tasks : TaskTable) (limit : Nat) (now : Instant) :
    offers (pollRound tasks limit now) now = (offers tasks now).drop limit := by
  have behind : ((offers tasks now).drop limit).Pairwise Sooner :=
    (offers_sooner tasks now).sublist (List.drop_sublist _ _)
  have members : ∀ any, any ∈ offers (pollRound tasks limit now) now ↔
      any ∈ (offers tasks now).drop limit := by
    intro any
    rw [mem_offers, offered_pollRound, ← mem_offers, findPending_eq_take]
    have split := List.take_append_drop limit (offers tasks now)
    have apart := offers_nodup tasks now
    rw [← split] at apart
    constructor
    · rintro ⟨member, early⟩
      rw [← split] at member
      exact (List.mem_append.mp member).resolve_left early
    · intro late
      refine ⟨List.mem_of_mem_drop late, fun early => ?_⟩
      exact (List.nodup_append.mp apart).2.2 any early any late rfl
  have perm := (List.perm_ext_iff_of_nodup (offers_nodup _ now)
    (List.Nodup.sublist (List.drop_sublist _ _) (offers_nodup tasks now))).mpr members
  exact perm.eq_of_pairwise (fun _ _ _ _ first second => absurd second first.asymm)
    (offers_sooner _ now) behind

/-! ## Rounds at one moment -/

theorem offers_pollRounds (tasks : TaskTable) (limit : Nat) (now : Instant) (rounds : Nat) :
    offers (pollRounds limit now rounds tasks).2 now =
      (offers tasks now).drop (rounds * limit) := by
  induction rounds generalizing tasks with
  | zero => simp [pollRounds]
  | succ rounds ih =>
      rw [pollRounds, ih, offers_pollRound, List.drop_drop, Nat.succ_mul, Nat.add_comm]

theorem pollRounds_batches (tasks : TaskTable) (limit : Nat) (now : Instant) (rounds : Nat) :
    (pollRounds limit now rounds tasks).1 = (List.range rounds).map fun round =>
      ((offers tasks now).drop (round * limit)).take limit := by
  induction rounds generalizing tasks with
  | zero => rfl
  | succ rounds ih =>
      rw [pollRounds, ih, List.range_succ_eq_map, List.map_cons, List.map_map,
        findPending_eq_take, offers_pollRound]
      simp [Function.comp_def, List.drop_drop, Nat.succ_mul, Nat.add_comm]

theorem find?_pollRound (tasks : TaskTable) (limit : Nat) (now : Instant) (id : TaskId) :
    (pollRound tasks limit now).find? id = (tasks.find? id).map fun row =>
      if id ∈ (findPending tasks limit now).map Task.id then started row now else row :=
  find?_markInProgress tasks _ now id

theorem started_started (task : Task) (now : Instant) :
    started (started task now) now = started task now := rfl

/-- The rows that the rounds found are marked, and every other row is as it was. -/
theorem find?_pollRounds (tasks : TaskTable) (limit : Nat) (now : Instant) (rounds : Nat)
    (id : TaskId) :
    (pollRounds limit now rounds tasks).2.find? id = (tasks.find? id).map fun row =>
      if id ∈ (pollRounds limit now rounds tasks).1.flatten.map Task.id then started row now
      else row := by
  induction rounds generalizing tasks with
  | zero => simp [pollRounds]
  | succ rounds ih =>
      simp only [pollRounds, ih, find?_pollRound, Option.map_map, List.flatten_cons,
        List.map_append, List.mem_append]
      refine Option.map_congr fun row _ => ?_
      by_cases first : id ∈ (findPending tasks limit now).map Task.id
      · simp only [Function.comp_apply, first, true_or, if_true, started_started, ite_self]
      · simp only [Function.comp_apply, first, false_or, if_false]

/-- The rounds at one moment page through the tasks that were on offer: each is found
by exactly one of them, in its turn, until nothing is left.  They mark what they found
and leave the other rows alone. -/
theorem pollRounds_pages (tasks : TaskTable) (limit : Nat) (now : Instant) (rounds : Nat) :
    (pollRounds limit now rounds tasks).1 = (List.range rounds).map (fun round =>
        ((offers tasks now).drop (round * limit)).take limit) ∧
      (pollRounds limit now rounds tasks).1.flatten = (offers tasks now).take (rounds * limit) ∧
      (pollRounds limit now rounds tasks).1.flatten.Pairwise Sooner ∧
      (findPending (pollRounds limit now rounds tasks).2 limit now = [] ↔
        limit = 0 ∨ (pollRounds limit now rounds tasks).1.flatten = offers tasks now) ∧
      ∀ id, (pollRounds limit now rounds tasks).2.find? id = (tasks.find? id).map fun row =>
        if id ∈ (pollRounds limit now rounds tasks).1.flatten.map Task.id then started row now
        else row := by
  have pages : (pollRounds limit now rounds tasks).1.flatten =
      (offers tasks now).take (rounds * limit) := by
    induction rounds generalizing tasks with
    | zero => simp [pollRounds]
    | succ rounds ih =>
        rw [pollRounds, List.flatten_cons, ih, offers_pollRound, findPending_eq_take,
          Nat.succ_mul, Nat.add_comm, List.take_add]
  refine ⟨pollRounds_batches tasks limit now rounds, pages, ?_, ?_,
    find?_pollRounds tasks limit now rounds⟩
  · rw [pages]
    exact (offers_sooner tasks now).sublist (List.take_sublist _ _)
  · rw [findPending_eq_take, offers_pollRounds, pages, List.take_eq_nil_iff,
      List.drop_eq_nil_iff]
    exact or_congr_right ⟨List.take_of_length_le, fun whole => by
      rw [← whole, List.length_take]
      exact Nat.min_le_left _ _⟩

/-! ## Between the rounds -/

/-- A statement that changes the table. -/
inductive Statement where
  | poll (limit : Nat) (now : Instant)
  | create (task : Task)
  | batchUpdate (updates : List TaskUpdate)
  | resetStale (now : Instant)

def Statement.apply (tasks : TaskTable) : Statement → Option TaskTable
  | .poll limit now => some (pollRound tasks limit now)
  | .create task => tasks.insert? task
  | .batchUpdate updates => some (Postgres.batchUpdate tasks updates)
  | .resetStale now => some (Postgres.resetStale tasks now)

/-- The statement puts no row before `task` that was not there, and does not write `task`;
its rounds are made when `task` is due. -/
def Behind (task : Task) (limit : Nat) (tasks : TaskTable) : Statement → Prop
  | .poll found now => found = limit ∧ task.nextRunAt ≤ now
  | .create added => added.isNew = true ∧ ¬Sooner added task
  | .batchUpdate updates => ∀ update ∈ updates, update.taskId ≠ task.id ∧
      update.status ≠ .inProgress ∧
      (update.status = .pending → ∃ next, update.nextRunAt = some next ∧ task.nextRunAt < next)
  | .resetStale now => ∀ row, tasks.find? row.id = some row → stale now row = true →
      ¬Sooner row task

/-- The pending rows before `task`, by their ids. -/
def ahead (tasks : TaskTable) (task : Task) : List TaskId :=
  (tasks.select fun row => decide (row.status = .pending ∧ Sooner row task)).map Task.id

/-- How many rounds there were, and whether one of them found `task`. -/
def countRounds (task : Task) (tasks : TaskTable) (statement : Statement)
    (recalled : Nat × Bool) : Nat × Bool :=
  match statement with
  | .poll limit now => (recalled.1 + 1,
      recalled.2 || ((findPending tasks limit now).map Task.id).contains task.id)
  | _ => recalled

theorem mem_ahead {id : TaskId} :
    id ∈ ahead tasks task ↔
      ∃ row, tasks.find? id = some row ∧ row.status = .pending ∧ Sooner row task := by
  simp only [ahead, List.mem_map, Table.select, List.mem_filter, decide_eq_true_eq,
    Table.mem_iff_find?]
  constructor
  · rintro ⟨row, ⟨found, holds⟩, rfl⟩
    exact ⟨row, found, holds⟩
  · rintro ⟨row, found, holds⟩
    obtain rfl := Table.key_of_find? found
    exact ⟨row, ⟨found, holds⟩, rfl⟩

theorem ahead_nodup (tasks : TaskTable) (task : Task) : (ahead tasks task).Nodup :=
  (List.filter_sublist.map Task.id).nodup tasks.unique

/-- Whether a due task is on offer does not depend on the hour. -/
theorem Offered.at (offered : Offered tasks now task) {later : Instant}
    (due : task.nextRunAt ≤ later) : Offered tasks later task := by
  refine ⟨offered.row, offered.pending, due, offered.heads.imp_right ?_⟩
  rintro ⟨free, first⟩
  refine ⟨free, fun other row pending _ same sooner => ?_⟩
  have early : other.nextRunAt ≤ task.nextRunAt := by
    rcases sooner with earlier | ⟨equal, _⟩
    · exact earlier.le
    · exact equal.le
  exact first other row pending (early.trans offered.due) same sooner

/-- What a statement must leave as it was for `task` to keep its place. -/
structure Undisturbed (task : Task) (before after : TaskTable) : Prop where
  kept : before.find? task.id = some task → after.find? task.id = some task
  behind : ∀ row, after.find? row.id = some row → row.status = .pending → Sooner row task →
    ∃ old, before.find? row.id = some old ∧ old.status = .pending ∧ Sooner old task ∧
      old.orderingKey = row.orderingKey
  free : ∀ row, after.find? row.id = some row → row.status = .inProgress →
    ∃ old, before.find? row.id = some old ∧ old.status = .inProgress ∧
      old.orderingKey = row.orderingKey

theorem Undisturbed.offered {after : TaskTable} (undisturbed : Undisturbed task tasks after)
    (offered : Offered tasks now task) : Offered after now task := by
  refine ⟨undisturbed.kept offered.row, offered.pending, offered.due, offered.heads.imp_right ?_⟩
  rintro ⟨free, first⟩
  refine ⟨fun other row running same => ?_, fun other row pending _ same sooner => ?_⟩
  · obtain ⟨old, there, ran, key⟩ := undisturbed.free other row running
    have origin : old.id = other.id := Table.key_of_find? there
    exact free old (origin ▸ there) ran (key.trans same)
  · obtain ⟨old, there, waited, early, key⟩ := undisturbed.behind other row pending sooner
    have origin : old.id = other.id := Table.key_of_find? there
    have due : old.nextRunAt ≤ now := by
      rcases early with earlier | ⟨equal, _⟩
      · exact earlier.le.trans offered.due
      · exact equal.le.trans offered.due
    exact first old (origin ▸ there) waited due (key.trans same) early

theorem Undisturbed.ahead_le {after : TaskTable} (undisturbed : Undisturbed task tasks after) :
    (ahead after task).length ≤ (ahead tasks task).length := by
  refine (List.subperm_of_subset (ahead_nodup after task) fun id member => ?_).length_le
  obtain ⟨row, there, pending, sooner⟩ := mem_ahead.mp member
  obtain rfl := Table.key_of_find? there
  obtain ⟨old, before, waited, early, _⟩ := undisturbed.behind row there pending sooner
  exact mem_ahead.mpr ⟨old, before, waited, early⟩

theorem undisturbed_create {after : TaskTable} (fresh : other.isNew = true)
    (behind : ¬Sooner other task) (inserted : tasks.insert? other = some after) :
    Undisturbed task tasks after := by
  have pending : other.status = .pending := by
    simp only [Task.isNew, Bool.and_eq_true, decide_eq_true_eq] at fresh
    exact fresh.1.1.1.1
  have shown : ∀ {row : Task}, after.find? row.id = some row →
      row = other ∨ tasks.find? row.id = some row := by
    intro row there
    rw [Table.find?_insert? inserted] at there
    split at there
    · exact .inl (Option.some.inj there).symm
    · exact .inr there
  refine ⟨fun row => ?_, fun row there waiting sooner => ?_, fun row there running => ?_⟩
  · rw [Table.find?_insert? inserted, if_neg]
    · exact row
    · intro same
      have absent := (Table.insert?_eq_some inserted).1
      rw [same, row] at absent
      cases absent
  · rcases shown there with rfl | before
    · exact absurd sooner behind
    · exact ⟨row, before, waiting, sooner, rfl⟩
  · rcases shown there with rfl | before
    · rw [pending] at running
      cases running
    · exact ⟨row, before, running, rfl⟩

theorem undisturbed_batchUpdate {updates : List TaskUpdate}
    (behind : ∀ update ∈ updates, update.taskId ≠ task.id ∧ update.status ≠ .inProgress ∧
      (update.status = .pending →
        ∃ next, update.nextRunAt = some next ∧ task.nextRunAt < next)) :
    Undisturbed task tasks (batchUpdate tasks updates) := by
  -- a row after the statement is the old one, or carries one of the updates
  have shown : ∀ {row : Task}, (batchUpdate tasks updates).find? row.id = some row →
      tasks.find? row.id = some row ∨
        ∃ update ∈ updates, ∃ old, row = TaskUpdate.assign update old := by
    intro row there
    rw [batchUpdate, Table.find?_update] at there
    obtain ⟨old, before, assigned⟩ := Option.map_eq_some_iff.mp there
    simp only [if_true] at assigned
    split at assigned
    · rename_i update found
      exact .inr ⟨update, List.mem_of_find?_eq_some found, old, assigned.symm⟩
    · exact .inl (assigned ▸ before)
  refine ⟨fun row => ?_, fun row there waiting sooner => ?_, fun row there running => ?_⟩
  · rw [batchUpdate, Table.find?_update, row, Option.map_some]
    have unnamed : updates.find? (fun update => decide (update.taskId = task.id)) = none :=
      List.find?_eq_none.mpr fun update member => by simpa using (behind update member).1
    simp only [if_true, unnamed]
  · rcases shown there with before | ⟨update, member, old, rfl⟩
    · exact ⟨row, before, waiting, sooner, rfl⟩
    · obtain ⟨next, scheduled, late⟩ := (behind update member).2.2 waiting
      simp only [Sooner, TaskUpdate.assign, scheduled, Option.getD_some] at sooner
      rcases sooner with early | ⟨same, _⟩
      · exact absurd early (not_lt.mpr late.le)
      · exact absurd same late.ne'
  · rcases shown there with before | ⟨update, member, old, rfl⟩
    · exact ⟨row, before, running, rfl⟩
    · exact absurd running (behind update member).2.1

theorem undisturbed_resetStale (pending : task.status = .pending)
    (behind : ∀ row, tasks.find? row.id = some row → stale now row = true → ¬Sooner row task) :
    Undisturbed task tasks (resetStale tasks now) := by
  have shown : ∀ {row : Task}, (resetStale tasks now).find? row.id = some row →
      tasks.find? row.id = some row ∨ row.status = .pending ∧ ¬Sooner row task := by
    intro row there
    rw [find?_resetStale] at there
    obtain ⟨old, before, reset⟩ := Option.map_eq_some_iff.mp there
    split at reset
    · rename_i expired
      subst reset
      exact .inr ⟨rfl, behind old before expired⟩
    · exact .inl (reset ▸ before)
  refine ⟨fun row => ?_, fun row there waiting sooner => ?_, fun row there running => ?_⟩
  · have fresh : stale now task = false := by simp [stale, pending]
    simp [find?_resetStale, row, fresh]
  · rcases shown there with before | ⟨_, late⟩
    · exact ⟨row, before, waiting, sooner, rfl⟩
    · exact absurd sooner late
  · rcases shown there with before | ⟨waiting, _⟩
    · exact ⟨row, before, running, rfl⟩
    · rw [waiting] at running
      cases running

/-- A round that does not find the task finds as many rows that come before it. -/
theorem ahead_pollRound (offered : Offered tasks now task)
    (unfound : task ∉ findPending tasks limit now) :
    (ahead (pollRound tasks limit now) task).length + limit ≤ (ahead tasks task).length := by
  have behind : task ∈ (offers tasks now).drop limit := by
    have member := mem_offers.mpr offered
    rw [← List.take_append_drop limit (offers tasks now), ← findPending_eq_take] at member
    exact (List.mem_append.mp member).resolve_left unfound
  have full : (findPending tasks limit now).length = limit := by
    have beyond := List.length_pos_of_mem behind
    rw [List.length_drop] at beyond
    rw [findPending_eq_take, List.length_take]
    omega
  have sooner : ∀ found ∈ findPending tasks limit now, Sooner found task := by
    intro found member
    have sorted := offers_sooner tasks now
    rw [← List.take_append_drop limit (offers tasks now), ← findPending_eq_take] at sorted
    exact (List.pairwise_append.mp sorted).2.2 found member task behind
  have apart : (ahead (pollRound tasks limit now) task ++
      (findPending tasks limit now).map Task.id).Nodup := by
    refine List.nodup_append.mpr
      ⟨ahead_nodup _ task, findPending_ids tasks limit now, fun id early other named same => ?_⟩
    subst same
    obtain ⟨row, there, pending, _⟩ := mem_ahead.mp early
    obtain rfl := Table.key_of_find? there
    obtain ⟨before, missed⟩ := pending_pollRound there pending
    exact missed ((found_iff before).mp named)
  have within : ahead (pollRound tasks limit now) task ++
      (findPending tasks limit now).map Task.id ⊆ ahead tasks task := by
    intro id member
    rcases List.mem_append.mp member with early | named
    · obtain ⟨row, there, pending, first⟩ := mem_ahead.mp early
      obtain rfl := Table.key_of_find? there
      exact mem_ahead.mpr ⟨row, (pending_pollRound there pending).1, pending, first⟩
    · obtain ⟨found, inside, rfl⟩ := List.mem_map.mp named
      have taken := offered_of_found inside
      exact mem_ahead.mpr ⟨found, taken.row, taken.pending, sooner found inside⟩
  have fits := (List.subperm_of_subset apart within).length_le
  rwa [List.length_append, List.length_map, full] at fits

theorem undisturbed_of_behind {after : TaskTable} {statement : Statement}
    (offered : Offered tasks now task) (behind : Behind task limit tasks statement)
    (applied : statement.apply tasks = some after) :
    (∃ moment, task.nextRunAt ≤ moment ∧ statement = .poll limit moment) ∨
      Undisturbed task tasks after ∧ ∀ recalled,
        countRounds task tasks statement recalled = recalled := by
  cases statement with
  | poll found moment =>
      obtain ⟨rfl, due⟩ := behind
      exact .inl ⟨moment, due, rfl⟩
  | create added =>
      exact .inr ⟨undisturbed_create behind.1 behind.2 applied, fun _ => rfl⟩
  | batchUpdate updates =>
      cases applied
      exact .inr ⟨undisturbed_batchUpdate behind, fun _ => rfl⟩
  | resetStale moment =>
      cases applied
      exact .inr ⟨undisturbed_resetStale offered.pending behind, fun _ => rfl⟩

/-- In every run of statements that let nothing new before a task on offer and do not write
it, it is on offer until a round finds it, and the rounds that did not are paid for by the
rows that were before it: one more than they fill finds it. -/
theorem offered_found {finish : TaskTable} {rounds : Nat} {found : Bool}
    (offered : Offered tasks now task)
    (recalls : Recalls Statement.apply (Behind task limit) (countRounds task) (tasks, (0, false))
      finish (rounds, found)) :
    (found = false → Offered finish now task ∧
        rounds * limit + (ahead finish task).length ≤ (ahead tasks task).length) ∧
      ((ahead tasks task).length < rounds * limit → found = true) := by
  have waited : found = false → Offered finish now task ∧
      rounds * limit + (ahead finish task).length ≤ (ahead tasks task).length := by
    refine recalls.preserves (fun table recalled => recalled.2 = false →
      Offered table now task ∧
        recalled.1 * limit + (ahead table task).length ≤ (ahead tasks task).length)
      (fun _ => ⟨offered, by omega⟩) ?_
    intro before after statement recalled holds permitted stepped missed
    have earlier : recalled.2 = false := by
      cases statement <;> simp_all [countRounds]
    obtain ⟨waiting, paid⟩ := holds earlier
    rcases undisturbed_of_behind waiting permitted stepped with ⟨moment, due, rfl⟩ | ⟨kept, same⟩
    · cases stepped
      have unfound : task ∉ findPending before limit moment := by
        intro member
        simp [countRounds, List.mem_map_of_mem member] at missed
      have there := waiting.at due
      refine ⟨(offered_pollRound.mpr ⟨there, unfound⟩).at waiting.due, ?_⟩
      have fewer := ahead_pollRound there unfound
      simp only [countRounds, Nat.succ_mul]
      omega
    · rw [same]
      exact ⟨kept.offered waiting, (Nat.add_le_add_left kept.ahead_le _).trans paid⟩
  refine ⟨waited, fun many => ?_⟩
  cases found with
  | true => rfl
  | false =>
      obtain ⟨_, paid⟩ := waited rfl
      omega

/-- The row of a task without an ordering key. -/
def unkeyedTask (serial : Nat) (due : Instant) : Task where
  id := ⟨.ofNat serial⟩
  metadataType := CleanupStaleVideosTaskMetadata.METADATA_TYPE
  metadata := .null
  status := .pending
  orderingKey := none
  traceId := none
  attemptCount := 0
  nextRunAt := due
  error := none
  startedAt := none
  completedAt := none
  createdAt := due
  updatedAt := due

/-- Two rounds of one row each reach the second of two tasks, though a third comes in
between. -/
theorem offered_found_second : ∃ start finish found,
    Offered start 9 (unkeyedTask 2 8) ∧
      Recalls Statement.apply (Behind (unkeyedTask 2 8) 1) (countRounds (unkeyedTask 2 8))
        (start, (0, false)) finish (2, found) ∧ found = true := by
  let start : TaskTable := ⟨[unkeyedTask 1 7, unkeyedTask 2 8], by decide⟩
  have offered : Offered start 9 (unkeyedTask 2 8) := ⟨rfl, rfl, by decide, .inl rfl⟩
  obtain ⟨middle, added⟩ : ∃ middle, (pollRound start 1 9).insert? (unkeyedTask 3 8) = some middle :=
    Table.insert?_of_absent rfl
  have polled : ∀ {table : TaskTable} {rounds : Nat} {found : Bool},
      Recalls Statement.apply (Behind (unkeyedTask 2 8) 1) (countRounds (unkeyedTask 2 8))
        (start, (0, false)) table (rounds, found) →
      ∃ later, Recalls Statement.apply (Behind (unkeyedTask 2 8) 1)
        (countRounds (unkeyedTask 2 8)) (start, (0, false)) (pollRound table 1 9)
        (rounds + 1, later) := by
    intro table rounds found recalls
    exact ⟨_, Reaches.andThen recalls (.poll 1 9) ⟨rfl, by decide⟩
      (recalling_eq_some.mpr ⟨rfl, rfl⟩)⟩
  obtain ⟨before, first⟩ := polled .refl
  have second : Recalls Statement.apply (Behind (unkeyedTask 2 8) 1)
      (countRounds (unkeyedTask 2 8)) (start, (0, false)) middle (1, before) :=
    Reaches.andThen first (.create (unkeyedTask 3 8)) ⟨rfl, by decide⟩
      (recalling_eq_some.mpr ⟨added, rfl⟩)
  obtain ⟨later, third⟩ := polled second
  exact ⟨start, _, later, offered, third, (offered_found offered third).2 (by decide)⟩

end Benri.Postgres
