import Mathlib.Logic.Basic

namespace Benri.Data

/-! # Results of fallible steps

`Yields blames post result` is a postcondition for steps in `Except`: a value meets
`post`, and an error is one that `blames` allows.  A sequence of steps is gone through
with `Yields.bind`.
-/

variable {Error Value Next : Type} {blames : Error → Prop} {post stronger : Value → Prop}
  {after : Next → Prop}

def Yields (blames : Error → Prop) (post : Value → Prop) : Except Error Value → Prop
  | .ok value => post value
  | .error error => blames error

@[simp] theorem yields_ok {value : Value} : Yields blames post (.ok value) ↔ post value := Iff.rfl

@[simp] theorem yields_error {error : Error} :
    Yields blames post (.error error) ↔ blames error := Iff.rfl

theorem Yields.bind {result : Except Error Value} {next : Value → Except Error Next}
    (first : Yields blames post result)
    (second : ∀ value, post value → Yields blames after (next value)) :
    Yields blames after (result >>= next) := by
  cases result with
  | ok value => exact second value first
  | error error => exact first

theorem Yields.map {result : Except Error Value} {change : Value → Next}
    (yields : Yields blames (fun value => after (change value)) result) :
    Yields blames after (result.map change) := by
  cases result with
  | ok value => exact yields
  | error error => exact yields

theorem Yields.mono {result : Except Error Value} (yields : Yields blames stronger result)
    (weaker : ∀ value, stronger value → post value) : Yields blames post result := by
  cases result with
  | ok value => exact weaker value yields
  | error error => exact yields

/-- A step that nothing is to blame for succeeds. -/
theorem Yields.exists_ok {result : Except Error Value} (yields : Yields blames post result)
    (blameless : ∀ error, ¬ blames error) : ∃ value, result = .ok value ∧ post value := by
  cases result with
  | ok value => exact ⟨value, rfl, yields⟩
  | error error => exact absurd yields (blameless error)

end Benri.Data
