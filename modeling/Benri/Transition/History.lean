import Benri.Transition.Run

namespace Benri.Transition

/-! # Runs that remember

What a run has done cannot always be read off the state it leads to.
`recalling step note` is the machine `step` with a memory beside its state, and `note`
is what the memory makes of an event.  The memory does not steer the machine: without
it a run is a run of `step`, and every run of `step` leaves some memory behind.
-/

variable {State Event Memory : Type}

def recalling (step : State → Event → Option State) (note : State → Event → Memory → Memory)
    (world : State × Memory) (event : Event) : Option (State × Memory) :=
  (step world.1 event).map fun after => (after, note world.1 event world.2)

/-- A restriction that does not look at the memory. -/
def permitting (allowed : State → Event → Prop) (world : State × Memory) (event : Event) : Prop :=
  allowed world.1 event

instance (allowed : State → Event → Prop) [∀ state event, Decidable (allowed state event)]
    (world : State × Memory) (event : Event) : Decidable (permitting allowed world event) :=
  inferInstanceAs (Decidable (allowed world.1 event))

/-- Some run from `start` leads to `finish` and leaves `memory`. -/
def Recalls (step : State → Event → Option State) (allowed : State → Event → Prop)
    (note : State → Event → Memory → Memory) (start : State × Memory) (finish : State)
    (memory : Memory) : Prop :=
  Reaches (recalling step note) (permitting allowed) start (finish, memory)

variable {step : State → Event → Option State} {allowed : State → Event → Prop}
  {note : State → Event → Memory → Memory} {start finish : State} {initially memory : Memory}

theorem recalling_eq_some {before after : State × Memory} {event : Event} :
    recalling step note before event = some after ↔
      step before.1 event = some after.1 ∧ after.2 = note before.1 event before.2 := by
  obtain ⟨state, recalled⟩ := after
  simp only [recalling, Option.map_eq_some_iff, Prod.mk.injEq]
  constructor
  · rintro ⟨next, stepped, rfl, rfl⟩
    exact ⟨stepped, rfl⟩
  · rintro ⟨stepped, rfl⟩
    exact ⟨state, stepped, rfl, rfl⟩

/-- A property that every step preserves, whatever it makes the memory. -/
theorem Recalls.preserves (invariant : State → Memory → Prop)
    (recalls : Recalls step allowed note (start, initially) finish memory)
    (first : invariant start initially)
    (preserved : ∀ {before after event recalled}, invariant before recalled →
      allowed before event → step before event = some after →
      invariant after (note before event recalled)) : invariant finish memory := by
  refine Reaches.preserves (fun world => invariant world.1 world.2) recalls first ?_
  intro before after event holds permitted stepped
  obtain ⟨moved, noted⟩ := recalling_eq_some.mp stepped
  rw [noted]
  exact preserved holds permitted moved

/-- The memory left out. -/
theorem Recalls.forget (recalls : Recalls step allowed note (start, initially) finish memory) :
    Reaches step allowed start finish :=
  recalls.preserves (fun state _ => Reaches step allowed start state) .refl
    fun reached permitted stepped => reached.andThen _ permitted stepped

/-- Every run leaves some memory. -/
theorem Reaches.recall (reached : Reaches step allowed start finish)
    (note : State → Event → Memory → Memory) (initially : Memory) :
    ∃ memory, Recalls step allowed note (start, initially) finish memory := by
  induction reached with
  | refl => exact ⟨initially, .refl⟩
  | tail _ permitted stepped ih =>
      obtain ⟨recalled, recalls⟩ := ih
      exact ⟨_, .tail recalls permitted (recalling_eq_some.mpr ⟨stepped, rfl⟩)⟩

end Benri.Transition
