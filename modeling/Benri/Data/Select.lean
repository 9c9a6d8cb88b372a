import Mathlib.Data.List.Sort
import Mathlib.Data.List.Nodup

namespace Benri.Data

/-! # The list half of a query: `ORDER BY`, `DISTINCT ON`, `LIMIT` -/

variable {Row Key : Type}

/-- `ORDER BY`, stable; `before` is the comparison of the sort columns. -/
def orderBy (before : Row → Row → Bool) (rows : List Row) : List Row :=
  rows.insertionSort fun left right => before left right = true

/-- `DISTINCT ON`: the first row of every key, in list order. -/
def distinctOn [DecidableEq Key] (key : Row → Key) : List Row → List Row
  | [] => []
  | row :: rest => row :: (distinctOn key rest).filter fun other => decide (key other ≠ key row)

@[simp] theorem mem_orderBy (before : Row → Row → Bool) {rows : List Row} {row : Row} :
    row ∈ orderBy before rows ↔ row ∈ rows :=
  (List.perm_insertionSort _ rows).mem_iff

theorem orderBy_perm (before : Row → Row → Bool) (rows : List Row) :
    (orderBy before rows).Perm rows :=
  List.perm_insertionSort _ rows

/-- Ordering by a total preorder sorts. -/
theorem orderBy_pairwise {before : Row → Row → Bool}
    (total : ∀ left right, before left right = true ∨ before right left = true)
    (trans : ∀ {left middle right}, before left middle = true → before middle right = true →
      before left right = true) (rows : List Row) :
    (orderBy before rows).Pairwise fun left right => before left right = true := by
  have : Std.Total fun left right : Row => before left right = true := ⟨total⟩
  have : IsTrans Row fun left right => before left right = true := ⟨fun _ _ _ => trans⟩
  exact List.pairwise_insertionSort _ rows

section Lexicographic

variable {Column : Type} [LinearOrder Column] (column : Row → Column) (ties : Row → Row → Prop)

/-- A sort column, and a comparison of the rows that agree on it. -/
theorem lexicographic_total (total : ∀ left right, ties left right ∨ ties right left)
    (left right : Row) :
    (column left < column right ∨ column left = column right ∧ ties left right) ∨
      (column right < column left ∨ column right = column left ∧ ties right left) := by
  rcases lt_trichotomy (column left) (column right) with below | same | above
  · exact .inl (.inl below)
  · exact (total left right).imp (fun before => .inr ⟨same, before⟩)
      fun before => .inr ⟨same.symm, before⟩
  · exact .inr (.inl above)

theorem lexicographic_trans
    (trans : ∀ {left middle right}, ties left middle → ties middle right → ties left right)
    {left middle right : Row}
    (first : column left < column middle ∨ column left = column middle ∧ ties left middle)
    (second : column middle < column right ∨ column middle = column right ∧ ties middle right) :
    column left < column right ∨ column left = column right ∧ ties left right := by
  rcases first with first | ⟨first, early⟩
  · refine .inl (first.trans_le ?_)
    rcases second with second | ⟨second, _⟩
    · exact second.le
    · exact second.le
  · rw [first]
    exact second.imp_right fun ⟨same, late⟩ => ⟨same, trans early late⟩

end Lexicographic

section DistinctOn

variable [DecidableEq Key] {key : Row → Key}

theorem distinctOn_sublist (rows : List Row) : (distinctOn key rows).Sublist rows := by
  induction rows with
  | nil => exact .slnil
  | cons row rest ih => exact (List.filter_sublist.trans ih).cons_cons row

theorem mem_of_mem_distinctOn {rows : List Row} {row : Row}
    (member : row ∈ distinctOn key rows) : row ∈ rows :=
  (distinctOn_sublist rows).subset member

/-- No key is selected twice. -/
theorem distinctOn_pairwise (rows : List Row) :
    (distinctOn key rows).Pairwise fun left right => key left ≠ key right := by
  induction rows with
  | nil => exact .nil
  | cons row rest ih =>
      refine .cons (fun other member => ?_) (ih.filter _)
      have different := (List.mem_filter.mp member).2
      simp only [decide_eq_true_eq] at different
      exact different.symm

/-- Every key of the input is represented. -/
theorem distinctOn_represents (key : Row → Key) {rows : List Row} {row : Row}
    (member : row ∈ rows) : ∃ chosen ∈ distinctOn key rows, key chosen = key row := by
  induction rows with
  | nil => cases member
  | cons first rest ih =>
      rcases List.mem_cons.mp member with rfl | member
      · exact ⟨row, List.mem_cons_self, rfl⟩
      · obtain ⟨chosen, inside, same⟩ := ih member
        by_cases shadowed : key chosen = key first
        · exact ⟨first, List.mem_cons_self, by rw [← shadowed, same]⟩
        · refine ⟨chosen, List.mem_cons_of_mem _ (List.mem_filter.mpr ⟨inside, ?_⟩), same⟩
          simpa using shadowed

/-- The chosen row of a key comes before the rows of the key that are dropped. -/
theorem distinctOn_first {before : Row → Row → Prop} {rows : List Row}
    (sorted : rows.Pairwise before) {chosen other : Row} (chose : chosen ∈ distinctOn key rows)
    (member : other ∈ rows) (same : key other = key chosen) :
    other = chosen ∨ before chosen other := by
  induction rows with
  | nil => cases member
  | cons first rest ih =>
      obtain ⟨firsts, others⟩ := List.pairwise_cons.mp sorted
      rcases List.mem_cons.mp chose with rfl | chose
      · rcases List.mem_cons.mp member with rfl | member
        · exact .inl rfl
        · exact .inr (firsts other member)
      · obtain ⟨inside, different⟩ := List.mem_filter.mp chose
        rcases List.mem_cons.mp member with rfl | member
        · simp [same] at different
        · exact ih others inside member

end DistinctOn

end Benri.Data
