import Mathlib.Logic.Basic

namespace Benri.Transition

/-! # Runs of a partial step function

`Reaches step allowed start state` says that some finite sequence of steps leads
from `start` to `state`, each step defined in, and allowed in, the state it is
taken from.  A restriction on the environment ("no lease expires while held")
is an `allowed` predicate; the unrestricted system allows everything.
-/

variable {State Event : Type}

inductive Reaches (step : State → Event → Option State)
    (allowed : State → Event → Prop) (start : State) : State → Prop where
  | refl : Reaches step allowed start start
  | tail {before after : State} {event : Event}
      (reached : Reaches step allowed start before)
      (permitted : allowed before event)
      (stepped : step before event = some after) :
      Reaches step allowed start after

/-- The restriction that restricts nothing. -/
def Anything (_ : State) (_ : Event) : Prop := True

instance (state : State) (event : Event) : Decidable (Anything state event) :=
  inferInstanceAs (Decidable True)

variable {step : State → Event → Option State} {allowed stricter : State → Event → Prop}
  {start middle finish : State}

theorem Reaches.trans (first : Reaches step allowed start middle)
    (second : Reaches step allowed middle finish) : Reaches step allowed start finish := by
  induction second with
  | refl => exact first
  | tail _ permitted stepped ih => exact .tail ih permitted stepped

/-- A run, and one more step. -/
theorem Reaches.andThen (reached : Reaches step allowed start middle) (event : Event)
    (permitted : allowed middle event) (stepped : step middle event = some finish) :
    Reaches step allowed start finish :=
  .tail reached permitted stepped

theorem Reaches.single (event : Event) (permitted : allowed start event)
    (stepped : step start event = some finish) : Reaches step allowed start finish :=
  .tail .refl permitted stepped

theorem Reaches.mono (weaker : ∀ state event, stricter state event → allowed state event)
    (reached : Reaches step stricter start finish) : Reaches step allowed start finish := by
  induction reached with
  | refl => exact .refl
  | tail _ permitted stepped ih => exact .tail ih (weaker _ _ permitted) stepped

/-- A property of the first state that every allowed step preserves holds in
every state a run reaches. -/
theorem Reaches.preserves (invariant : State → Prop)
    (reached : Reaches step allowed start finish) (initially : invariant start)
    (preserved : ∀ {before after event}, invariant before → allowed before event →
      step before event = some after → invariant after) : invariant finish := by
  induction reached with
  | refl => exact initially
  | tail _ permitted stepped ih => exact preserved ih permitted stepped

/-- The executable reading of a run: `none` as soon as a step is undefined or
not allowed. -/
def run (step : State → Event → Option State) (allowed : State → Event → Prop)
    [∀ state event, Decidable (allowed state event)] : State → List Event → Option State
  | state, [] => some state
  | state, event :: rest =>
      if allowed state event then
        (step state event).bind fun next => run step allowed next rest
      else none

theorem reaches_of_run [∀ state event, Decidable (allowed state event)] (events : List Event)
    (ran : run step allowed start events = some finish) : Reaches step allowed start finish := by
  induction events generalizing start with
  | nil => cases ran; exact .refl
  | cons event rest ih =>
      simp only [run] at ran
      split at ran
      · rename_i permitted
        obtain ⟨next, stepped, remaining⟩ := Option.bind_eq_some_iff.mp ran
        exact (Reaches.single event permitted stepped).trans (ih remaining)
      · contradiction

/-- A run whose last state passes a test. -/
theorem reaches_of_check [∀ state event, Decidable (allowed state event)] {check : State → Bool}
    (events : List Event)
    (passed : (run step allowed start events).map check = some true) :
    ∃ finish, Reaches step allowed start finish ∧ check finish = true := by
  obtain ⟨finish, ran, checked⟩ := Option.map_eq_some_iff.mp passed
  exact ⟨finish, reaches_of_run events ran, checked⟩

/-! ## Calls that may fail

A remote call either reports its result or reports an error.  An error says
nothing about whether the call took effect. -/

inductive Fault where
  | none
  | error (applied : Bool) (message : String)
deriving DecidableEq, Repr

variable {Failure Result : Type}

/-- Whether a call takes effect. -/
def Fault.applies : Fault → Bool
  | .none => true
  | .error applied _ => applied

/-- A call that takes `before` to `after` and answers `result`, under a fault. -/
def attempt (fault : Fault) (failure : String → Failure) (before after : State)
    (result : Result) : State × Except Failure Result :=
  match fault with
  | .none => (after, .ok result)
  | .error applied message => (if applied then after else before, .error (failure message))

@[simp] theorem attempt_none (failure : String → Failure) (before after : State)
    (result : Result) : attempt .none failure before after result = (after, .ok result) := rfl

/-- Whatever a call reports, it took effect as a whole or not at all. -/
theorem attempt_state (fault : Fault) (failure : String → Failure) (before after : State)
    (result : Result) :
    (attempt fault failure before after result).1 = before ∨
      (attempt fault failure before after result).1 = after := by
  cases fault with
  | none => exact .inr rfl
  | error applied message => cases applied <;> simp [attempt]

theorem attempt_kept (property : State → Prop) {fault : Fault} {failure : String → Failure}
    {before after : State} {result : Result} (undone : property before) (done : property after) :
    property (attempt fault failure before after result).1 := by
  rcases attempt_state fault failure before after result with same | same
  · rw [same]
    exact undone
  · rw [same]
    exact done

end Benri.Transition
