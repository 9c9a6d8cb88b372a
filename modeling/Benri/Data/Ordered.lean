import Mathlib.Data.List.Sort
import Mathlib.Algebra.Order.Ring.Nat

namespace Benri.Data

/-! # Lists in order

Numbers written with equally many digits compare as texts the way they compare
as numbers.  And a sorted list that holds everything a longer one has from some
point on holds it as its own end.
-/

section Digits

theorem toNat_of_isDigit {char : Char} (digit : char.isDigit = true) :
    48 ≤ char.toNat ∧ char.toNat ≤ 57 := by
  simp only [Char.isDigit, Bool.and_eq_true, decide_eq_true_eq] at digit
  exact digit

theorem ofDigitChars_cons_zero (first : Char) (rest : List Char) :
    Nat.ofDigitChars 10 (first :: rest) 0 =
      10 ^ rest.length * (first.toNat - 48) + Nat.ofDigitChars 10 rest 0 := by
  have zero : '0'.toNat = 48 := rfl
  rw [Nat.ofDigitChars_cons, Nat.ofDigitChars_eq_ofDigitChars_zero, zero, Nat.mul_zero,
    Nat.zero_add]

theorem ofDigitChars_lt {digits : List Char} (numeric : ∀ char ∈ digits, char.isDigit = true) :
    Nat.ofDigitChars 10 digits 0 < 10 ^ digits.length := by
  induction digits with
  | nil => simp
  | cons char rest ih =>
      have below := ih fun other member => numeric other (List.mem_cons_of_mem _ member)
      have high := (toNat_of_isDigit (numeric char List.mem_cons_self)).2
      rw [ofDigitChars_cons_zero, List.length_cons, Nat.pow_succ]
      have scaled : 10 ^ rest.length * (char.toNat - 48) ≤ 10 ^ rest.length * 9 :=
        Nat.mul_le_mul_left _ (by omega)
      omega

/-- Texts of equally many digits are in the order of the numbers. -/
theorem lt_of_ofDigitChars_lt {left right : List Char}
    (numericLeft : ∀ char ∈ left, char.isDigit = true)
    (numericRight : ∀ char ∈ right, char.isDigit = true) (same : left.length = right.length)
    (less : Nat.ofDigitChars 10 left 0 < Nat.ofDigitChars 10 right 0) : left < right := by
  induction left generalizing right with
  | nil =>
      rw [List.length_nil] at same
      rw [List.length_eq_zero_iff.mp same.symm] at less
      exact absurd less (Nat.lt_irrefl _)
  | cons first rest ih =>
      cases right with
      | nil => cases same
      | cons other others =>
          have lengths : rest.length = others.length := Nat.succ.inj same
          have boundLeft := ofDigitChars_lt fun char member =>
            numericLeft char (List.mem_cons_of_mem _ member)
          have boundRight := ofDigitChars_lt fun char member =>
            numericRight char (List.mem_cons_of_mem _ member)
          rw [ofDigitChars_cons_zero, ofDigitChars_cons_zero, lengths] at less
          rw [lengths] at boundLeft
          have low := (toNat_of_isDigit (numericRight other List.mem_cons_self)).1
          rw [List.cons_lt_cons_iff]
          rcases Nat.lt_trichotomy first.toNat other.toNat with smaller | equal | greater
          · exact .inl smaller
          · obtain rfl := Char.toNat_inj.mp equal
            refine .inr ⟨rfl, ih ?_ ?_ lengths (by omega)⟩
            · exact fun char member => numericLeft char (List.mem_cons_of_mem _ member)
            · exact fun char member => numericRight char (List.mem_cons_of_mem _ member)
          · -- A larger leading digit outweighs all that follows.
            have scaled : 10 ^ others.length * (other.toNat - 48) + 10 ^ others.length ≤
                10 ^ others.length * (first.toNat - 48) := by
              rw [← Nat.mul_succ]
              exact Nat.mul_le_mul_left _ (by omega)
            omega

/-- What follows two texts of one length does not change their order. -/
theorem append_lt_append {Item : Type} [LT Item] {left right : List Item}
    (same : left.length = right.length) (less : left < right) (front ending other : List Item) :
    front ++ (left ++ ending) < front ++ (right ++ other) := by
  refine List.append_left_lt ?_
  induction left generalizing right with
  | nil =>
      rw [List.length_eq_zero_iff.mp same.symm] at less
      cases less
  | cons first rest ih =>
      cases right with
      | nil => cases same
      | cons next others =>
          rw [List.cons_append, List.cons_append, List.cons_lt_cons_iff]
          exact (List.cons_lt_cons_iff.mp less).imp_right fun ⟨equal, later⟩ =>
            ⟨equal, ih (Nat.succ.inj same) later⟩

end Digits

section Sorted

variable {Item : Type} [LinearOrder Item] {found all : List Item} {count : Nat}

/-- What a sorted list holds besides the first part of a longer one. -/
theorem filter_notMem_take (ascending : all.Pairwise (· < ·)) (sorted : found.Pairwise (· ≤ ·))
    (distinct : found.Nodup) (within : found ⊆ all) (complete : all.drop count ⊆ found) :
    found.filter (fun item => decide (item ∉ all.take count)) = all.drop count := by
  have whole : (all.take count ++ all.drop count).Pairwise (· < ·) := by
    rwa [List.take_append_drop]
  obtain ⟨_, later, apart⟩ := List.pairwise_append.mp whole
  have members : ∀ item, item ∈ found.filter (fun item => decide (item ∉ all.take count)) ↔
      item ∈ all.drop count := by
    intro item
    rw [List.mem_filter, decide_eq_true_eq]
    constructor
    · rintro ⟨member, fresh⟩
      have known := within member
      rw [← List.take_append_drop count all] at known
      exact (List.mem_append.mp known).resolve_left fresh
    · exact fun member => ⟨complete member, fun early => lt_irrefl _ (apart item early item member)⟩
  refine List.Perm.eq_of_pairwise' (sorted.filter _) (later.imp le_of_lt) ?_
  exact (List.perm_ext_iff_of_nodup (distinct.filter _) (later.imp ne_of_lt)).mpr members

/-- The same for all but the last of it. -/
theorem filter_dropLast (ascending : all.Pairwise (· < ·)) (sorted : found.Pairwise (· ≤ ·))
    (distinct : found.Nodup) (within : found ⊆ all) (complete : all.drop count ⊆ found) :
    found.dropLast.filter (fun item => decide (item ∉ all.take count)) =
      (all.drop count).dropLast := by
  have filtered := filter_notMem_take ascending sorted distinct within complete
  rcases List.eq_nil_or_concat found with rfl | ⟨front, last, rfl⟩
  · rw [← filtered]
    rfl
  rw [List.concat_eq_append] at *
  rw [List.filter_append] at filtered
  rw [List.dropLast_concat]
  by_cases early : last ∈ all.take count
  · -- Everything found is at most `last`, so nothing is left beyond the first part.
    have none : all.drop count = [] := by
      refine List.eq_nil_iff_forall_not_mem.mpr fun item member => ?_
      have whole : (all.take count ++ all.drop count).Pairwise (· < ·) := by
        rwa [List.take_append_drop]
      have above := (List.pairwise_append.mp whole).2.2 last early item member
      rcases List.mem_append.mp (complete member) with before | same
      · exact absurd above (not_lt.mpr
          ((List.pairwise_append.mp sorted).2.2 item before last (List.mem_singleton_self _)))
      · rw [List.mem_singleton.mp same] at above
        exact lt_irrefl _ above
    rw [none] at filtered ⊢
    exact (List.append_eq_nil_iff.mp filtered).1
  · have kept : [last].filter (fun item => decide (item ∉ all.take count)) = [last] := by
      simp [early]
    rw [← filtered, kept, List.dropLast_concat]

end Sorted

end Benri.Data
