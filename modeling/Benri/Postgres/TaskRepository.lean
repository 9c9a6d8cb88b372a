import Benri.Data.Table
import Benri.Data.Select
import Benri.Domain.Task
import Mathlib.Data.List.Dedup
import Mathlib.Data.List.Pairwise
import Mathlib.Data.List.Perm.Subperm

namespace Benri.Postgres

open Benri.Data Benri.Domain

/-! # The `tasks` table

One definition for each statement of `PostgresTaskRepository`.  Errors are added
where the statements are called; here is what a statement does when it runs.
-/

def databaseError (message : String) : String := "database error: " ++ message

def duplicateKey : String := databaseError "duplicate key value violates unique constraint"

abbrev TaskTable := Table TaskId Task Task.id

/-! ## `find_pending`, stage by stage -/

/-- The columns the common table expressions carry. -/
structure Candidate where
  id : TaskId
  nextRunAt : Instant
  orderingKey : Option String

def Candidate.ofTask (task : Task) : Candidate := ⟨task.id, task.nextRunAt, task.orderingKey⟩

/-- `next_run_at ASC, id ASC`. -/
def Candidate.dueBefore (left right : Candidate) : Bool :=
  decide (left.nextRunAt < right.nextRunAt) ||
    (decide (left.nextRunAt = right.nextRunAt) && decide (left.id.uuid ≤ right.id.uuid))

/-- `ordering_key, next_run_at ASC, id ASC`. -/
def Candidate.keyedBefore (left right : Candidate) : Bool :=
  decide (left.orderingKey.getD "" < right.orderingKey.getD "") ||
    (decide (left.orderingKey.getD "" = right.orderingKey.getD "") && left.dueBefore right)

def blockedKeys (tasks : TaskTable) : List String :=
  ((tasks.select fun task => decide (task.status = .inProgress)).filterMap
    Task.orderingKey).dedup

def eligible (tasks : TaskTable) (before : Instant) : List Candidate :=
  (tasks.select fun task =>
    decide (task.status = .pending) && decide (task.nextRunAt ≤ before) &&
      task.orderingKey.all fun key => !(blockedKeys tasks).contains key).map Candidate.ofTask

def keyedDedup (candidates : List Candidate) : List Candidate :=
  distinctOn Candidate.orderingKey
    (orderBy Candidate.keyedBefore (candidates.filter fun row => row.orderingKey.isSome))

def selected (candidates : List Candidate) : List Candidate :=
  keyedDedup candidates ++ candidates.filter fun row => row.orderingKey.isNone

/-- `FROM tasks t JOIN selected s ON s.id = t.id`. -/
def joined (tasks : TaskTable) (candidates : List Candidate) : List (Task × Candidate) :=
  candidates.flatMap fun row =>
    (tasks.select fun task => decide (task.id = row.id)).map fun task => (task, row)

def findPending (tasks : TaskTable) (limit : Nat) (before : Instant) : List Task :=
  ((orderBy (fun left right => left.2.dueBefore right.2)
    (joined tasks (selected (eligible tasks before)))).take limit).map Prod.fst

/-! ## The other statements -/

def markInProgress (tasks : TaskTable) (ids : List TaskId) (startedAt : Instant) : TaskTable :=
  tasks.update (fun task => ids.contains task.id)
    (fun task => { task with
      status := .inProgress, startedAt := some startedAt, updatedAt := startedAt })
    fun _ => rfl

/-- The assignments of one `UNNEST` row; a missing `next_run_at` keeps the old one. -/
def TaskUpdate.assign (update : TaskUpdate) (task : Task) : Task :=
  { task with
    status := update.status, attemptCount := update.attemptCount,
    nextRunAt := update.nextRunAt.getD task.nextRunAt, error := update.error,
    completedAt := update.completedAt, updatedAt := update.updatedAt }

/-- The consumer passes one update; a list with a repeated id would let
PostgreSQL pick any of the matching rows, and the first stands for it. -/
def batchUpdate (tasks : TaskTable) (updates : List TaskUpdate) : TaskTable :=
  tasks.update (fun _ => true)
    (fun task => match updates.find? fun update => decide (update.taskId = task.id) with
      | some update => TaskUpdate.assign update task
      | none => task)
    fun task => by split <;> rfl

/-- `STALE_RECOVERY_INTERVAL`, "1 hour", in milliseconds. -/
def STALE_RECOVERY_INTERVAL : Int := 60 * 60 * 1000

def stale (now : Instant) (task : Task) : Bool :=
  decide (task.status = .inProgress) &&
    task.startedAt.any fun startedAt => decide (startedAt < now - STALE_RECOVERY_INTERVAL)

def resetStale (tasks : TaskTable) (now : Instant) : TaskTable :=
  tasks.update (stale now)
    (fun task => { task with status := .pending, startedAt := none, updatedAt := now })
    fun _ => rfl

/-- `metadata_type = $1 AND status IN ('PENDING', 'IN_PROGRESS')`. -/
def activeOfType (metadataType : String) (task : Task) : Bool :=
  decide (task.metadataType = metadataType) &&
    (decide (task.status = .pending) || decide (task.status = .inProgress))

def countActiveByType (tasks : TaskTable) (metadataType : String) : Nat :=
  (tasks.select (activeOfType metadataType)).length

/-! ## What the statements do to one row -/

theorem find?_markInProgress (tasks : TaskTable) (ids : List TaskId) (startedAt : Instant)
    (id : TaskId) :
    (markInProgress tasks ids startedAt).find? id =
      (tasks.find? id).map fun task =>
        if id ∈ ids then
          { task with
            status := .inProgress, startedAt := some startedAt, updatedAt := startedAt }
        else task := by
  rw [markInProgress, Table.find?_update]
  refine Option.map_congr fun task found => ?_
  rw [Table.key_of_find? found]
  simp

theorem find?_batchUpdate_single (tasks : TaskTable) (update : TaskUpdate) (id : TaskId) :
    (batchUpdate tasks [update]).find? id =
      (tasks.find? id).map fun task =>
        if update.taskId = id then TaskUpdate.assign update task else task := by
  rw [batchUpdate, Table.find?_update]
  refine Option.map_congr fun task found => ?_
  have same : task.id = id := Table.key_of_find? found
  by_cases addressed : update.taskId = id <;> simp [same, addressed]

@[simp] theorem find?_resetStale (tasks : TaskTable) (now : Instant) (id : TaskId) :
    (resetStale tasks now).find? id =
      (tasks.find? id).map fun task =>
        if stale now task then { task with status := .pending, startedAt := none, updatedAt := now }
        else task := by
  rw [resetStale, Table.find?_update]

/-! ## What `find_pending` returns -/

/-- Two selected rows never compete: equal ordering keys are both absent, and
then the rows differ. -/
def Apart (left right : Candidate) : Prop :=
  left.orderingKey = right.orderingKey → left.orderingKey = none ∧ left.id ≠ right.id

theorem Apart.symm {left right : Candidate} (apart : Apart left right) : Apart right left := by
  intro same
  obtain ⟨absent, different⟩ := apart same.symm
  exact ⟨same ▸ absent, different.symm⟩

/-- The condition under which a row is a candidate. -/
structure Eligible (tasks : TaskTable) (before : Instant) (task : Task) : Prop where
  row : tasks.find? task.id = some task
  pending : task.status = .pending
  due : task.nextRunAt ≤ before
  unblocked : ∀ other, tasks.find? other.id = some other → other.status = .inProgress →
    other.orderingKey ≠ none → other.orderingKey ≠ task.orderingKey

theorem mem_blockedKeys {tasks : TaskTable} {key : String} :
    key ∈ blockedKeys tasks ↔
      ∃ task, tasks.find? task.id = some task ∧ task.status = .inProgress ∧
        task.orderingKey = some key := by
  simp only [blockedKeys, List.mem_dedup, List.mem_filterMap, Table.select, List.mem_filter,
    decide_eq_true_eq, Table.mem_iff_find?]
  constructor
  · rintro ⟨task, ⟨row, status⟩, present⟩
    exact ⟨task, row, status, present⟩
  · rintro ⟨task, row, status, present⟩
    exact ⟨task, ⟨row, status⟩, present⟩

theorem mem_eligible {tasks : TaskTable} {before : Instant} {candidate : Candidate} :
    candidate ∈ eligible tasks before ↔
      ∃ task, Eligible tasks before task ∧ Candidate.ofTask task = candidate := by
  simp only [eligible, List.mem_map, Table.select, List.mem_filter, Bool.and_eq_true,
    decide_eq_true_eq, Table.mem_iff_find?, Option.all_eq_true, List.contains_eq_mem,
    Bool.not_eq_true', decide_eq_false_iff_not]
  constructor
  · rintro ⟨task, ⟨row, ⟨pending, due⟩, free⟩, same⟩
    refine ⟨task, ⟨row, pending, due, fun other otherRow running keyed clash => ?_⟩, same⟩
    obtain ⟨key, present⟩ := Option.ne_none_iff_exists'.mp keyed
    exact free key (by rw [← clash, present])
      (mem_blockedKeys.mpr ⟨other, otherRow, running, present⟩)
  · rintro ⟨task, ⟨row, pending, due, unblocked⟩, same⟩
    refine ⟨task, ⟨row, ⟨pending, due⟩, fun key present blocked => ?_⟩, same⟩
    obtain ⟨other, otherRow, running, clash⟩ := mem_blockedKeys.mp blocked
    exact unblocked other otherRow running (by simp [clash]) (by rw [clash, present])

theorem mem_keyedDedup {candidates : List Candidate} {candidate : Candidate}
    (member : candidate ∈ keyedDedup candidates) :
    candidate ∈ candidates ∧ candidate.orderingKey ≠ none := by
  have inside := (mem_orderBy _).mp (mem_of_mem_distinctOn member)
  simpa [Option.isSome_iff_ne_none] using inside

theorem mem_of_mem_selected {candidates : List Candidate} {candidate : Candidate}
    (member : candidate ∈ selected candidates) : candidate ∈ candidates := by
  rcases List.mem_append.mp member with keyed | unkeyed
  · exact (mem_keyedDedup keyed).1
  · exact (List.mem_filter.mp unkeyed).1

theorem eligible_ids (tasks : TaskTable) (before : Instant) :
    (eligible tasks before).Pairwise fun left right => left.id ≠ right.id := by
  have rows := List.pairwise_map.mp table_ids
  exact List.pairwise_map.mpr (rows.filter _)
where
  table_ids : (tasks.rows.map Task.id).Pairwise (· ≠ ·) := tasks.unique

theorem selected_apart (tasks : TaskTable) (before : Instant) :
    (selected (eligible tasks before)).Pairwise Apart := by
  refine List.pairwise_append.mpr ⟨?_, ?_, ?_⟩
  · exact (distinctOn_pairwise _).imp fun different same => absurd same different
  · refine ((eligible_ids tasks before).filter _).imp_of_mem fun left _ different _ => ?_
    exact ⟨by simpa using (List.mem_filter.mp left).2, different⟩
  · intro left keyed right unkeyed same
    have absent : right.orderingKey = none := by simpa using (List.mem_filter.mp unkeyed).2
    exact absurd (same.trans absent) (mem_keyedDedup keyed).2

/-- The join gives each candidate its own row back. -/
theorem joined_eq (tasks : TaskTable) (candidates : List Candidate) :
    joined tasks candidates =
      candidates.filterMap fun row => (tasks.find? row.id).map fun task => (task, row) := by
  induction candidates with
  | nil => rfl
  | cons row rest ih =>
      have first := tasks.select_key row.id
      simp only [joined, List.flatMap_cons, List.filterMap_cons] at ih ⊢
      rw [ih, first]
      cases tasks.find? row.id <;> rfl

theorem mem_joined {tasks : TaskTable} {before : Instant} {pair : Task × Candidate}
    (member : pair ∈ joined tasks (selected (eligible tasks before))) :
    Eligible tasks before pair.1 ∧ pair.2 = Candidate.ofTask pair.1 ∧
      pair.2 ∈ selected (eligible tasks before) := by
  rw [joined_eq] at member
  obtain ⟨row, inside, found⟩ := List.mem_filterMap.mp member
  obtain ⟨task, lookup, same⟩ := Option.map_eq_some_iff.mp found
  obtain ⟨source, fits, origin⟩ := mem_eligible.mp (mem_of_mem_selected inside)
  have identifier : row.id = source.id := by rw [← origin]; rfl
  rw [identifier, fits.row] at lookup
  cases lookup
  subst same
  exact ⟨fits, origin.symm, inside⟩

theorem mem_findPending {tasks : TaskTable} {limit : Nat} {before : Instant} {task : Task}
    (member : task ∈ findPending tasks limit before) : Eligible tasks before task := by
  obtain ⟨pair, inside, rfl⟩ := List.mem_map.mp member
  exact (mem_joined ((mem_orderBy _).mp (List.mem_of_mem_take inside))).1

/-- A batch holds at most one task of each ordering key and no task twice. -/
theorem findPending_apart (tasks : TaskTable) (limit : Nat) (before : Instant) :
    (findPending tasks limit before).Pairwise fun left right =>
      left.orderingKey = right.orderingKey → left.orderingKey = none ∧ left.id ≠ right.id := by
  have source : (joined tasks (selected (eligible tasks before))).Pairwise
      fun left right => Apart left.2 right.2 := by
    rw [joined_eq]
    refine (selected_apart tasks before).filterMap _ fun left right apart => ?_
    intro leftPair leftFound rightPair rightFound
    obtain ⟨_, _, rfl⟩ := Option.map_eq_some_iff.mp leftFound
    obtain ⟨_, _, rfl⟩ := Option.map_eq_some_iff.mp rightFound
    exact apart
  have sorted := (orderBy_perm (fun left right : Task × Candidate => left.2.dueBefore right.2)
    (joined tasks (selected (eligible tasks before)))).symm.pairwise source fun apart => apart.symm
  refine List.pairwise_map.mpr ((sorted.sublist (List.take_sublist _ _)).imp_of_mem ?_)
  intro left right leftMember rightMember apart
  have leftRow := (mem_joined ((mem_orderBy _).mp (List.mem_of_mem_take leftMember))).2.1
  have rightRow := (mem_joined ((mem_orderBy _).mp (List.mem_of_mem_take rightMember))).2.1
  rw [leftRow, rightRow] at apart
  exact apart

/-- Two tasks of one batch share an ordering key only when they have none. -/
theorem findPending_keys {tasks : TaskTable} {limit : Nat} {before : Instant} {left right : Task}
    (leftMember : left ∈ findPending tasks limit before)
    (rightMember : right ∈ findPending tasks limit before) (different : left ≠ right)
    (same : left.orderingKey = right.orderingKey) : left.orderingKey = none := by
  have : Std.Symm fun left right : Task =>
      left.orderingKey = right.orderingKey → left.orderingKey = none :=
    ⟨fun left right apart same => by rw [same, apart same.symm]⟩
  have pairwise := (findPending_apart tasks limit before).imp
    (S := fun left right : Task => left.orderingKey = right.orderingKey → left.orderingKey = none)
    fun apart same => (apart same).1
  exact pairwise.forall leftMember rightMember different same

theorem findPending_ids (tasks : TaskTable) (limit : Nat) (before : Instant) :
    ((findPending tasks limit before).map Task.id).Nodup := by
  refine List.pairwise_map.mpr ((findPending_apart tasks limit before).imp_of_mem ?_)
  intro left right leftMember rightMember apart same
  have leftRow := (mem_findPending leftMember).row
  rw [same, (mem_findPending rightMember).row] at leftRow
  obtain rfl := Option.some.inj leftRow
  exact (apart rfl).2 rfl

/-- When nothing is in progress, a due task makes the batch non-empty: either
it is selected itself or an older task of its key is. -/
theorem findPending_ne_nil {tasks : TaskTable} {limit : Nat} {before : Instant} {task : Task}
    (row : tasks.find? task.id = some task) (pending : task.status = .pending)
    (due : task.nextRunAt ≤ before) (room : 0 < limit)
    (idle : ∀ other, tasks.find? other.id = some other → other.status ≠ .inProgress) :
    findPending tasks limit before ≠ [] := by
  have fits : Eligible tasks before task :=
    ⟨row, pending, due, fun other found running => absurd running (idle other found)⟩
  have candidate : Candidate.ofTask task ∈ eligible tasks before :=
    mem_eligible.mpr ⟨task, fits, rfl⟩
  obtain ⟨chosen, inside⟩ : ∃ chosen, chosen ∈ selected (eligible tasks before) := by
    cases keyed : task.orderingKey with
    | none =>
        exact ⟨_, List.mem_append_right _ (List.mem_filter.mpr
          ⟨candidate, by simp [Candidate.ofTask, keyed]⟩)⟩
    | some key =>
        obtain ⟨chosen, inside, _⟩ := distinctOn_represents Candidate.orderingKey
          ((mem_orderBy Candidate.keyedBefore).mpr
            (List.mem_filter (p := fun row => row.orderingKey.isSome).mpr
              ⟨candidate, by simp [Candidate.ofTask, keyed]⟩))
        exact ⟨chosen, List.mem_append_left _ inside⟩
  obtain ⟨source, fits, origin⟩ := mem_eligible.mp (mem_of_mem_selected inside)
  have paired : (source, chosen) ∈ joined tasks (selected (eligible tasks before)) := by
    rw [joined_eq]
    exact List.mem_filterMap.mpr
      ⟨chosen, inside, by rw [← origin]; simp [Candidate.ofTask, fits.row]⟩
  intro empty
  have sorted := (mem_orderBy fun left right : Task × Candidate =>
    left.2.dueBefore right.2).mpr paired
  have taken := List.map_eq_nil_iff.mp empty
  rcases List.take_eq_nil_iff.mp taken with zero | none
  · omega
  · rw [none] at sorted
    cases sorted

/-! ## How many tasks of a type are active -/

/-- Where every active row was one before, there are no more of them. -/
theorem countActiveByType_le {before after : TaskTable} {metadataType : String}
    (source : ∀ id row, after.find? id = some row → activeOfType metadataType row = true →
      ∃ old, before.find? id = some old ∧ activeOfType metadataType old = true) :
    countActiveByType after metadataType ≤ countActiveByType before metadataType := by
  have ids : ∀ tasks : TaskTable,
      ((tasks.select (activeOfType metadataType)).map Task.id).Nodup := fun tasks =>
    tasks.unique.sublist (List.filter_sublist.map Task.id)
  have subset : (after.select (activeOfType metadataType)).map Task.id ⊆
      (before.select (activeOfType metadataType)).map Task.id := by
    intro id member
    obtain ⟨row, selected, rfl⟩ := List.mem_map.mp member
    obtain ⟨inside, active⟩ := List.mem_filter.mp selected
    obtain ⟨old, found, oldActive⟩ := source row.id row (Table.find?_of_mem inside) active
    exact List.mem_map.mpr
      ⟨old, List.mem_filter.mpr ⟨Table.mem_of_find? found, oldActive⟩, Table.key_of_find? found⟩
  have fewer := (List.subperm_of_subset (ids after) subset).length_le
  rwa [List.length_map, List.length_map] at fewer

theorem countActiveByType_insert {tasks after : TaskTable} {task : Task} {metadataType : String}
    (inserted : tasks.insert? task = some after) (active : activeOfType metadataType task = true) :
    countActiveByType after metadataType = countActiveByType tasks metadataType + 1 := by
  rw [countActiveByType, Table.select, (Table.insert?_eq_some inserted).2, List.filter_append,
    List.length_append, List.filter_singleton, active]
  rfl

end Benri.Postgres
