import Mathlib.Order.Basic

namespace Benri.Transition

/-! # Periodic loops that can be told to stop

A loop reads a flag at its head, makes one cycle, and sleeps until the flag is raised or
a timer runs out.  A cycle is not part of the loop: it is started in a state that other
loops share, and the loop waits until it is over there.  A cycle that panics takes its
loop with it.
-/

inductive CycleStatus where
  | running
  | done
  | panicked
deriving DecidableEq

/-- The cycles of one kind of loop, by number, and the loop's pause in milliseconds. -/
structure Cycles (Shared : Type) where
  interval : Int
  status : Shared → Nat → Option CycleStatus
  /-- The number of the next cycle, and the state in which it has started. -/
  start : Shared → Nat × Shared

inductive LoopPhase where
  | checking
  | cycling (cycle : Nat)
  | waiting (due : Int)
  | returned
  | panicked
deriving DecidableEq

inductive LoopEvent where
  | check
  | settle
  | wake
  | interrupt
deriving DecidableEq

variable {Shared : Type} {cycles : Cycles Shared} {flag : Bool} {now : Int}
  {before after : Shared} {phase next : LoopPhase} {event : LoopEvent}

def loopStep (cycles : Cycles Shared) (flag : Bool) (now : Int) (shared : Shared) :
    LoopPhase → LoopEvent → Option (Shared × LoopPhase)
  | .checking, .check =>
      if flag then some (shared, .returned)
      else some ((cycles.start shared).2, .cycling (cycles.start shared).1)
  | .cycling cycle, .settle =>
      match cycles.status shared cycle with
      | some .done => some (shared, .waiting (now + cycles.interval))
      | some .panicked => some (shared, .panicked)
      | some .running | none => none
  | .waiting due, .wake => if due ≤ now then some (shared, .checking) else none
  | .waiting _, .interrupt => if flag then some (shared, .returned) else none
  | _, _ => none

/-- The loop will do nothing more. -/
def LoopPhase.ended : LoopPhase → Bool
  | .returned | .panicked => true
  | .checking | .cycling _ | .waiting _ => false

/-- How many steps a loop has left at most once its flag is up. -/
def LoopPhase.weight : LoopPhase → Nat
  | .cycling _ => 3
  | .waiting _ => 2
  | .checking => 1
  | .returned | .panicked => 0

/-- What a step of a loop can be. -/
inductive LoopEffect (cycles : Cycles Shared) (flag : Bool) (before : Shared) :
    LoopPhase → Shared → LoopPhase → Prop where
  | stopped (raised : flag = true) : LoopEffect cycles flag before .checking before .returned
  | started (lowered : flag = false) :
      LoopEffect cycles flag before .checking (cycles.start before).2
        (.cycling (cycles.start before).1)
  | settled (cycle : Nat) (due : Int) (past : cycles.status before cycle = some .done) :
      LoopEffect cycles flag before (.cycling cycle) before (.waiting due)
  | died (cycle : Nat) (dead : cycles.status before cycle = some .panicked) :
      LoopEffect cycles flag before (.cycling cycle) before .panicked
  | woke (due : Int) : LoopEffect cycles flag before (.waiting due) before .checking
  | interrupted (due : Int) (raised : flag = true) :
      LoopEffect cycles flag before (.waiting due) before .returned

theorem loopStep_effect
    (stepped : loopStep cycles flag now before phase event = some (after, next)) :
    LoopEffect cycles flag before phase after next := by
  cases phase <;> cases event <;> simp only [loopStep, reduceCtorEq] at stepped
  case checking.check =>
    split at stepped
    · cases stepped; exact .stopped ‹_›
    · cases stepped; exact .started (Bool.eq_false_iff.mpr ‹_›)
  case cycling.settle cycle =>
    split at stepped
    · cases stepped; exact .settled cycle _ ‹_›
    · cases stepped; exact .died cycle ‹_›
    · contradiction
    · contradiction
  case waiting.wake due =>
    split at stepped
    · cases stepped; exact .woke due
    · contradiction
  case waiting.interrupt due =>
    split at stepped
    · cases stepped; exact .interrupted due ‹_›
    · contradiction

/-- Once the flag is up no cycle is started, and every step brings the end closer. -/
theorem LoopEffect.stopping (effect : LoopEffect cycles true before phase after next) :
    after = before ∧ next.weight < phase.weight := by
  cases effect <;> simp_all [LoopPhase.weight]

/-- A loop that is told to stop and has not, waits for its cycle or can take a step. -/
theorem loopStep_progress (cycles : Cycles Shared) (now : Int) (shared : Shared)
    (phase : LoopPhase) (known : ∀ cycle, phase = .cycling cycle →
      cycles.status shared cycle ≠ none) :
    phase.ended = true ∨
      (∃ cycle, phase = .cycling cycle ∧ cycles.status shared cycle = some .running) ∨
      ∃ event after, loopStep cycles true now shared phase event = some after := by
  cases phase with
  | checking => exact .inr (.inr ⟨.check, _, rfl⟩)
  | cycling cycle =>
      cases status : cycles.status shared cycle with
      | none => exact absurd status (known cycle rfl)
      | some reached =>
          cases reached with
          | running => exact .inr (.inl ⟨cycle, rfl, status⟩)
          | done => exact .inr (.inr ⟨.settle, _, by simp only [loopStep, status]; rfl⟩)
          | panicked => exact .inr (.inr ⟨.settle, _, by simp only [loopStep, status]; rfl⟩)
  | waiting due => exact .inr (.inr ⟨.interrupt, _, rfl⟩)
  | returned => exact .inl rfl
  | panicked => exact .inl rfl

end Benri.Transition
