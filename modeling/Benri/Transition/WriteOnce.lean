import Benri.Transition.Run

namespace Benri.Transition

/-! # Values that are written once

`look` reads one value of a state, which may be missing.  Steps write it while it is
open, and a value that is there is closed: it can go away, but neither change nor come
back.  Whoever read such a value, at any time of a run, has read the same.
-/

variable {State Event Value : Type}

/-- What a step does to the value, in the states of an invariant. -/
structure WriteOnce (step : State → Event → Option State) (allowed : State → Event → Prop)
    (invariant closed : State → Prop) (look : State → Option Value) : Prop where
  keeps : ∀ {before after : State} {event : Event}, invariant before → allowed before event →
    step before event = some after → invariant after
  closes : ∀ {state : State} {value : Value}, invariant state → look state = some value →
    closed state
  lasts : ∀ {before after : State} {event : Event}, invariant before → closed before →
    allowed before event → step before event = some after → closed after
  fades : ∀ {before after : State} {event : Event}, invariant before → closed before →
    allowed before event → step before event = some after →
    look after = look before ∨ look after = none

variable {step : State → Event → Option State} {allowed : State → Event → Prop}
  {invariant closed : State → Prop} {look : State → Option Value}
  {state middle later : State}

/-- A closed value stays what it is until it is gone. -/
theorem WriteOnce.stays (once : WriteOnce step allowed invariant closed look)
    (holds : invariant state) (shut : closed state) (reached : Reaches step allowed state later) :
    (invariant later ∧ closed later) ∧ (look later = look state ∨ look later = none) := by
  refine reached.preserves (fun later => (invariant later ∧ closed later) ∧
    (look later = look state ∨ look later = none)) ⟨⟨holds, shut⟩, .inl rfl⟩ ?_
  rintro before after event ⟨⟨holds, shut⟩, same⟩ permitted stepped
  refine ⟨⟨once.keeps holds permitted stepped, once.lasts holds shut permitted stepped⟩, ?_⟩
  rcases once.fades holds shut permitted stepped with kept | gone
  · rwa [kept]
  · exact .inr gone

/-- A value that is there is never replaced, and does not come back. -/
theorem WriteOnce.immutable (once : WriteOnce step allowed invariant closed look)
    (holds : invariant state) {value : Value} (there : look state = some value)
    (first : Reaches step allowed state middle) (second : Reaches step allowed middle later) :
    (look middle = some value ∨ look middle = none) ∧ (look middle = none → look later = none) := by
  obtain ⟨⟨holds, shut⟩, same⟩ := once.stays holds (once.closes holds there) first
  refine ⟨there ▸ same, fun gone => ?_⟩
  have after := (once.stays holds shut second).2
  rwa [gone, or_self] at after

/-- What has been read of the value, by whomever. -/
structure Agreement (closed : State → Prop) (look : State → Option Value) (state : State)
    (known : Value → Prop) : Prop where
  shut : ∀ value, known value → closed state
  current : ∀ value, known value → look state = some value ∨ look state = none
  unique : ∀ value other, known value → known other → value = other

variable {known heard : Value → Prop}

theorem Agreement.ofNobody (nobody : ∀ value, ¬ known value) :
    Agreement closed look state known where
  shut value holds := absurd holds (nobody value)
  current value holds := absurd holds (nobody value)
  unique value _ holds := absurd holds (nobody value)

/-- A step of the machine changes nothing about what has been read. -/
theorem Agreement.kept (agreement : Agreement closed look state known)
    (once : WriteOnce step allowed invariant closed look) (holds : invariant state) {event : Event}
    (permitted : allowed state event) (stepped : step state event = some later) :
    Agreement closed look later known where
  shut value told := once.lasts holds (agreement.shut value told) permitted stepped
  current value told := by
    have shut := agreement.shut value told
    rcases once.fades holds shut permitted stepped with kept | gone
    · rw [kept]
      exact agreement.current value told
    · exact .inr gone
  unique := agreement.unique

/-- What is passed on is read from the machine, or was read before. -/
theorem Agreement.read (agreement : Agreement closed look state known)
    (once : WriteOnce step allowed invariant closed look) (holds : invariant state)
    (origin : ∀ value, heard value → known value ∨ look state = some value) :
    Agreement closed look state heard where
  shut value told := by
    rcases origin value told with older | there
    · exact agreement.shut value older
    · exact once.closes holds there
  current value told := (origin value told).elim (agreement.current value) .inl
  unique value other told otherTold := by
    have same : ∀ {older now : Value}, known older → look state = some now → older = now := by
      intro older now told there
      rcases agreement.current older told with found | gone
      · exact Option.some.inj (found.symm.trans there)
      · rw [gone] at there
        cases there
    rcases origin value told with older | there <;> rcases origin other otherTold with
      otherOlder | otherThere
    · exact agreement.unique value other older otherOlder
    · exact same older otherThere
    · exact (same otherOlder there).symm
    · exact Option.some.inj (there.symm.trans otherThere)

end Benri.Transition
