import Mathlib.Data.List.Basic

namespace Benri.Data

/-! # Lines of text -/

/-- The lines of a text; a newline at the end does not begin another line. -/
def lines : List Char → List (List Char)
  | [] => []
  | '\n' :: rest => [] :: lines rest
  | char :: rest =>
      match lines rest with
      | [] => [[char]]
      | first :: others => (char :: first) :: others

/-- The text whose lines these are, each ended by a newline. -/
def unlines (texts : List (List Char)) : List Char :=
  texts.flatMap fun text => text ++ ['\n']

@[simp] theorem unlines_nil : unlines [] = [] := rfl

@[simp] theorem unlines_cons (text : List Char) (rest : List (List Char)) :
    unlines (text :: rest) = text ++ '\n' :: unlines rest := by
  simp [unlines]

@[simp] theorem unlines_append (front back : List (List Char)) :
    unlines (front ++ back) = unlines front ++ unlines back := by
  simp [unlines]

theorem lines_append_newline {text : List Char} (single : '\n' ∉ text) (rest : List Char) :
    lines (text ++ '\n' :: rest) = text :: lines rest := by
  induction text with
  | nil => rfl
  | cons char tail ih =>
      have different : char ≠ '\n' := fun same => single (same ▸ List.mem_cons_self)
      have inner := ih fun member => single (List.mem_cons_of_mem _ member)
      rw [List.cons_append, lines, inner]
      exact different

theorem lines_unlines {texts : List (List Char)} (single : ∀ text ∈ texts, '\n' ∉ text) :
    lines (unlines texts) = texts := by
  induction texts with
  | nil => rfl
  | cons text rest ih =>
      rw [unlines_cons, lines_append_newline (single text List.mem_cons_self),
        ih fun other member => single other (List.mem_cons_of_mem _ member)]

end Benri.Data
