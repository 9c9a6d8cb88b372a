import Benri.Postgres.TaskRepository

namespace Benri.Postgres

open Benri.Data Benri.Domain

/-! # `find_pending` against its declarative reading

The query is a pipeline of five stages.  What it returns is said here without
them: the tasks on offer, in the order of `(next_run_at, id)`, up to the limit.
-/

/-- Smaller in `(next_run_at, id)`. -/
def Sooner (left right : Task) : Prop :=
  left.nextRunAt < right.nextRunAt ∨
    left.nextRunAt = right.nextRunAt ∧ left.id.uuid < right.id.uuid

theorem Sooner.irrefl (task : Task) : ¬Sooner task task := by
  rintro (later | ⟨_, later⟩)
  · exact lt_irrefl _ later
  · exact lt_irrefl _ later

/-- A due `PENDING` row without an ordering key, or the first due one of a key
that is not running. -/
structure Offered (tasks : TaskTable) (before : Instant) (task : Task) : Prop where
  row : tasks.find? task.id = some task
  pending : task.status = .pending
  due : task.nextRunAt ≤ before
  heads : task.orderingKey = none ∨
    (∀ other, tasks.find? other.id = some other → other.status = .inProgress →
      other.orderingKey ≠ task.orderingKey) ∧
    ∀ other, tasks.find? other.id = some other → other.status = .pending →
      other.nextRunAt ≤ before → other.orderingKey = task.orderingKey → ¬Sooner other task

/-! ## The two sort orders -/

theorem Candidate.dueBefore_iff {left right : Candidate} :
    left.dueBefore right = true ↔ left.nextRunAt < right.nextRunAt ∨
      left.nextRunAt = right.nextRunAt ∧ left.id.uuid ≤ right.id.uuid := by
  simp [dueBefore]

theorem Candidate.dueBefore_total (left right : Candidate) :
    left.dueBefore right = true ∨ right.dueBefore left = true := by
  simp only [dueBefore_iff]
  apply lexicographic_total nextRunAt fun left right => left.id.uuid ≤ right.id.uuid
  exact fun left right => le_total left.id.uuid right.id.uuid

theorem Candidate.dueBefore_trans {left middle right : Candidate}
    (first : left.dueBefore middle = true) (second : middle.dueBefore right = true) :
    left.dueBefore right = true := by
  simp only [dueBefore_iff] at first second ⊢
  exact lexicographic_trans nextRunAt (fun left right => left.id.uuid ≤ right.id.uuid) le_trans
    first second

theorem Candidate.dueBefore_ofTask {left right : Task} :
    (ofTask left).dueBefore (ofTask right) = true ↔ ¬Sooner right left := by
  rw [dueBefore_iff]
  simp only [ofTask, Sooner, not_or, not_and, not_lt]
  constructor
  · rintro (sooner | ⟨same, below⟩)
    · exact ⟨sooner.le, fun clash => absurd clash.symm sooner.ne⟩
    · exact ⟨same.le, fun _ => below⟩
  · rintro ⟨early, below⟩
    exact early.lt_or_eq.imp_right fun same => ⟨same, below same.symm⟩

theorem Candidate.keyedBefore_iff {left right : Candidate} :
    left.keyedBefore right = true ↔
      left.orderingKey.getD "" < right.orderingKey.getD "" ∨
        left.orderingKey.getD "" = right.orderingKey.getD "" ∧ left.dueBefore right = true := by
  simp [keyedBefore]

theorem Candidate.keyedBefore_total (left right : Candidate) :
    left.keyedBefore right = true ∨ right.keyedBefore left = true := by
  simp only [keyedBefore_iff]
  exact lexicographic_total (fun row : Candidate => row.orderingKey.getD "")
    (fun left right => left.dueBefore right = true) dueBefore_total left right

theorem Candidate.keyedBefore_trans {left middle right : Candidate}
    (first : left.keyedBefore middle = true) (second : middle.keyedBefore right = true) :
    left.keyedBefore right = true := by
  simp only [keyedBefore_iff] at first second ⊢
  exact lexicographic_trans (fun row : Candidate => row.orderingKey.getD "")
    (fun left right => left.dueBefore right = true) dueBefore_trans first second

/-! ## The stages -/

section Stages

variable {tasks : TaskTable} {before : Instant} {limit : Nat}

theorem Offered.eligible {task : Task} (offered : Offered tasks before task) :
    Eligible tasks before task := by
  refine ⟨offered.row, offered.pending, offered.due, fun other found running keyed => ?_⟩
  rcases offered.heads with unkeyed | ⟨free, _⟩
  · rwa [unkeyed]
  · exact free other found running

/-- `keyed_dedup` keeps the first candidate of each key. -/
theorem keyedDedup_first {candidates : List Candidate} {chosen other : Candidate}
    (chose : chosen ∈ keyedDedup candidates) (member : other ∈ candidates)
    (same : other.orderingKey = chosen.orderingKey) : chosen.dueBefore other = true := by
  have keyed := (mem_keyedDedup chose).2
  have sorted := orderBy_pairwise Candidate.keyedBefore_total Candidate.keyedBefore_trans
    (candidates.filter fun row => row.orderingKey.isSome)
  have inside : other ∈ orderBy Candidate.keyedBefore
      (candidates.filter fun row => row.orderingKey.isSome) := by
    rw [mem_orderBy, List.mem_filter, same]
    exact ⟨member, Option.isSome_iff_ne_none.mpr keyed⟩
  rcases distinctOn_first sorted chose inside same with rfl | ahead
  · exact (Candidate.dueBefore_total other other).elim id id
  · rcases Candidate.keyedBefore_iff.mp ahead with below | ⟨_, due⟩
    · rw [same] at below
      exact absurd below (lt_irrefl _)
    · exact due

theorem mem_selected {candidate : Candidate} :
    candidate ∈ selected (eligible tasks before) ↔
      ∃ task, Offered tasks before task ∧ Candidate.ofTask task = candidate := by
  constructor
  · intro member
    obtain ⟨task, fits, rfl⟩ := mem_eligible.mp (mem_of_mem_selected member)
    refine ⟨task, ⟨fits.row, fits.pending, fits.due, ?_⟩, rfl⟩
    rcases List.mem_append.mp member with chose | unkeyed
    · have keyed : task.orderingKey ≠ none := (mem_keyedDedup chose).2
      refine .inr ⟨fun other found running clash => ?_, fun other found pending due same => ?_⟩
      · exact fits.unblocked other found running (by rwa [clash]) clash
      · have rival : Eligible tasks before other :=
          ⟨found, pending, due, fun running => by rw [same]; exact fits.unblocked running⟩
        exact Candidate.dueBefore_ofTask.mp
          (keyedDedup_first chose (mem_eligible.mpr ⟨other, rival, rfl⟩) same)
    · exact .inl (by simpa [Candidate.ofTask] using (List.mem_filter.mp unkeyed).2)
  · rintro ⟨task, offered, rfl⟩
    have member := mem_eligible.mpr ⟨task, offered.eligible, rfl⟩
    cases keyed : task.orderingKey with
    | none =>
        refine List.mem_append_right _ (List.mem_filter.mpr ⟨member, ?_⟩)
        simp [Candidate.ofTask, keyed]
    | some key =>
        -- the key is represented by some row, and no other row comes before this one
        obtain ⟨chosen, chose, same⟩ := distinctOn_represents Candidate.orderingKey
          ((mem_orderBy Candidate.keyedBefore).mpr
            (List.mem_filter (p := fun row => row.orderingKey.isSome).mpr
              ⟨member, by simp [Candidate.ofTask, keyed]⟩))
        obtain ⟨rival, fits, rfl⟩ := mem_eligible.mp (mem_keyedDedup chose).1
        have ahead := Candidate.dueBefore_ofTask.mp
          (keyedDedup_first chose member same.symm)
        have behind : ¬Sooner rival task := by
          rcases offered.heads with unkeyed | ⟨_, first⟩
          · rw [keyed] at unkeyed
            cases unkeyed
          · exact first rival fits.row fits.pending fits.due same
        obtain rfl := eq_of_not_sooner fits.row offered.row behind ahead
        exact List.mem_append_left _ chose
where
  eq_of_not_sooner {left right : Task} (leftRow : tasks.find? left.id = some left)
      (rightRow : tasks.find? right.id = some right) (notLeft : ¬Sooner left right)
      (notRight : ¬Sooner right left) : left = right := by
    simp only [Sooner, not_or, not_and, not_lt] at notLeft notRight
    have time : left.nextRunAt = right.nextRunAt := le_antisymm notRight.1 notLeft.1
    have uuid : left.id = right.id :=
      congrArg TaskId.mk (le_antisymm (notRight.2 time.symm) (notLeft.2 time))
    rw [uuid, rightRow] at leftRow
    exact (Option.some.inj leftRow).symm

theorem mem_joined_iff {pair : Task × Candidate} :
    pair ∈ joined tasks (selected (eligible tasks before)) ↔
      Offered tasks before pair.1 ∧ pair.2 = Candidate.ofTask pair.1 := by
  constructor
  · intro member
    obtain ⟨fits, origin, inside⟩ := mem_joined member
    obtain ⟨task, offered, same⟩ := mem_selected.mp inside
    have row := offered.row
    rw [show task.id = pair.1.id from congrArg Candidate.id (same.trans origin), fits.row] at row
    exact ⟨Option.some.inj row ▸ offered, origin⟩
  · rintro ⟨offered, origin⟩
    rw [joined_eq]
    refine List.mem_filterMap.mpr ⟨pair.2, mem_selected.mpr ⟨pair.1, offered, origin.symm⟩, ?_⟩
    rw [origin, Candidate.ofTask, offered.row, Option.map_some, ← Candidate.ofTask, ← origin]

/-! ## The whole query -/

/-- Every task on offer, in the order of the query. -/
def offers (tasks : TaskTable) (before : Instant) : List Task :=
  (orderBy (fun left right => left.2.dueBefore right.2)
    (joined tasks (selected (eligible tasks before)))).map Prod.fst

theorem findPending_eq_take : findPending tasks limit before = (offers tasks before).take limit :=
  List.map_take ..

theorem mem_offers {task : Task} : task ∈ offers tasks before ↔ Offered tasks before task := by
  constructor
  · intro member
    obtain ⟨pair, inside, rfl⟩ := List.mem_map.mp member
    exact (mem_joined_iff.mp ((mem_orderBy _).mp inside)).1
  · intro offered
    exact List.mem_map.mpr ⟨(task, Candidate.ofTask task),
      (mem_orderBy _).mpr (mem_joined_iff.mpr ⟨offered, rfl⟩), rfl⟩

theorem offers_sooner (tasks : TaskTable) (before : Instant) :
    (offers tasks before).Pairwise Sooner := by
  have ids : (offers tasks before).Pairwise fun left right => left.id ≠ right.id := by
    have all := findPending_ids tasks (offers tasks before).length before
    rw [findPending_eq_take, List.take_length] at all
    exact List.pairwise_map.mp all
  have sorted : (offers tasks before).Pairwise fun left right => ¬Sooner right left := by
    refine List.pairwise_map.mpr ((orderBy_pairwise
      (fun left right : Task × Candidate => Candidate.dueBefore_total left.2 right.2)
      Candidate.dueBefore_trans _).imp_of_mem fun {left right} inside other due => ?_)
    rw [(mem_joined_iff.mp ((mem_orderBy _).mp inside)).2,
      (mem_joined_iff.mp ((mem_orderBy _).mp other)).2] at due
    exact Candidate.dueBefore_ofTask.mp due
  refine (ids.and sorted).imp fun {left right} ⟨different, notSooner⟩ => ?_
  simp only [Sooner, not_or, not_and, not_lt] at notSooner ⊢
  refine notSooner.1.lt_or_eq.imp_right fun same => ⟨same, ?_⟩
  exact lt_of_le_of_ne (notSooner.2 same.symm) fun equal => different (congrArg TaskId.mk equal)

/-- The query returns the first `limit` of the tasks on offer. -/
theorem findPending_first (tasks : TaskTable) (limit : Nat) (before : Instant) :
    ∃ ready : List Task, ready.Pairwise Sooner ∧
      (∀ task, task ∈ ready ↔ Offered tasks before task) ∧
      findPending tasks limit before = ready.take limit ∧
      (findPending tasks limit before).Pairwise Sooner ∧
      (findPending tasks limit before).Nodup ∧
      (findPending tasks limit before).length ≤ limit := by
  have sorted : (findPending tasks limit before).Pairwise Sooner := by
    rw [findPending_eq_take]
    exact (offers_sooner tasks before).sublist (List.take_sublist _ _)
  refine ⟨offers tasks before, offers_sooner tasks before, fun task => mem_offers,
    findPending_eq_take, sorted, ?_, ?_⟩
  · refine sorted.imp fun {left right} sooner same => ?_
    exact Sooner.irrefl right (same ▸ sooner)
  · rw [findPending_eq_take]
    exact List.length_take_le _ _

end Stages

end Benri.Postgres
