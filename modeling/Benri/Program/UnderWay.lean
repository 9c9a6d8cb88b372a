import Benri.Program.Refinement
import Benri.Service.Orphans
import Benri.Service.Staleness

namespace Benri.Program

open Benri.Data Benri.Domain Benri.Postgres Benri.Service Benri.Transition
open Benri.Worker (Cluster ClusterEvent Decoders RegisteredMetadata Serde clusterStep)

/-! # What is under way

A use case is under way from the start of its handler until it has answered or was
dropped, with the video that it was started for.
-/

/-! ## What is under way -/

def executionWork (execution : Execution) : Option RegisteredMetadata :=
  if execution.running then some (.processVideo ⟨execution.id⟩) else none

def deletionWork (deletion : Deletion) : Option RegisteredMetadata :=
  if deletion.phase.isOver then none else some (.deleteVideo ⟨deletion.id⟩)

def sweepWork (phase : SweepPhase) : Option RegisteredMetadata :=
  if phase.isOver then none else some (.cleanupStaleVideos .mk)

/-- What the use case at a place is under way with. -/
def underWay (service : Service.State) : Component → Option RegisteredMetadata
  | .execution index => service.executions[index]?.bind executionWork
  | .deletion index => service.deletions[index]?.bind deletionWork
  | .sweep index => service.sweeps[index]?.bind sweepWork

section UseCases

variable {Slot : Type} {slots : List Slot} {work : Slot → Option RegisteredMetadata}
  {index place : Nat} {metadata : RegisteredMetadata} {stores reached : Stores}
  {service after : Service.State} {component : Component}

/-- A slot that was rewritten to no more work than it had has none of its own. -/
theorem work_of_set {old new : Slot} (slot : slots[index]? = some old)
    (shrinks : ∀ metadata, work new = some metadata → work old = some metadata)
    (there : (slots.set index new)[place]?.bind work = some metadata) :
    slots[place]?.bind work = some metadata := by
  obtain ⟨found, member, holds⟩ := Option.bind_eq_some_iff.mp there
  rcases getElem?_set_cases member with ⟨rfl, rfl⟩ | ⟨_, member⟩
  · rw [slot, Option.bind_some, shrinks metadata holds]
  · rw [member, Option.bind_some, holds]

/-- A slot that was dropped has none at all. -/
theorem work_of_drop {step : Slot → Option (Stores × Slot)}
    (ends : ∀ slot answer, step slot = some answer → work answer.2 = none)
    (goes : ∀ slot, step slot = none → work slot = none)
    (there : (((slotStep slots index step).map Prod.snd).getD slots)[place]?.bind work =
      some metadata) :
    slots[place]?.bind work = some metadata ∧ place ≠ index := by
  cases slot : slots[index]? with
  | none =>
      simp only [slotStep, slot, Option.bind_none, Option.map_none, Option.getD_none] at there
      refine ⟨there, ?_⟩
      rintro rfl
      rw [slot] at there
      cases there
  | some old =>
      cases stepped : step old with
      | none =>
          simp only [slotStep, slot, stepped, Option.bind_some, Option.map_none,
            Option.getD_none] at there
          refine ⟨there, ?_⟩
          rintro rfl
          rw [slot, Option.bind_some, goes old stepped] at there
          cases there
      | some answer =>
          simp only [slotStep, slot, stepped, Option.bind_some, Option.map_some,
            Option.getD_some] at there
          obtain ⟨found, member, holds⟩ := Option.bind_eq_some_iff.mp there
          rcases getElem?_set_cases member with ⟨rfl, rfl⟩ | ⟨other, member⟩
          · rw [ends old answer stepped] at holds
            cases holds
          · exact ⟨by rw [member, Option.bind_some, holds], other⟩

theorem work_of_snoc {new : Slot}
    (there : (slots ++ [new])[place]?.bind work = some metadata) :
    slots[place]?.bind work = some metadata ∨ place = slots.length ∧ work new = some metadata := by
  obtain ⟨found, member, holds⟩ := Option.bind_eq_some_iff.mp there
  rcases getElem?_snoc_cases member with member | ⟨last, rfl⟩
  · exact .inl (by rw [member, Option.bind_some, holds])
  · exact .inr ⟨last, holds⟩

theorem executionWork_kept {execution next : Execution} {event : ExecutionEvent}
    (stepped : executionStep stores execution event = some (reached, next))
    (works : executionWork next = some metadata) : executionWork execution = some metadata := by
  unfold executionWork at works ⊢
  split at works
  · rename_i holds
    obtain ⟨named, running⟩ := running_of_step stepped holds
    rw [if_pos running, ← named]
    exact works
  · contradiction

theorem deletionWork_kept {deletion : Deletion} {event : DeletionEvent} {next : DeletionPhase}
    (stepped : deletionStep stores deletion event = some (reached, next))
    (works : deletionWork ⟨deletion.id, next⟩ = some metadata) :
    deletionWork deletion = some metadata := by
  obtain ⟨id, phase⟩ := deletion
  cases deletionStep_turn stepped with
  | found | absent | prefixed | objectDeleted | rowDeleted =>
      unfold deletionWork at works ⊢
      split at works
      · contradiction
      · exact works
  | gaveUp error => cases works
  | cut => cases works

theorem sweepWork_kept {phase next : SweepPhase} {event : SweepEvent}
    (stepped : sweepStep stores phase event = some (reached, next))
    (works : sweepWork next = some metadata) : sweepWork phase = some metadata := by
  cases sweepStep_turn stepped with
  | foundStale | foundFailed | foundNoneStuck | marked | scheduled =>
      unfold sweepWork at works ⊢
      split at works
      · contradiction
      · exact works
  | gaveUp error => cases works
  | cut => cases works

theorem underWay_of_slots {left right : Service.State}
    (executions : left.executions = right.executions) (deletions : left.deletions = right.deletions)
    (sweeps : left.sweeps = right.sweeps) : underWay left component = underWay right component := by
  cases component <;> simp only [underWay, executions, deletions, sweeps]

/-- A step of a use case starts none. -/
theorem underWay_of_own {state : State} {event : Service.Event} (mine : own event = true)
    (stepped : Service.step service (state.inScope event) = some after)
    (works : underWay after component = some metadata) :
    underWay service component = some metadata := by
  cases event with
  | initiate id title format applied =>
      obtain ⟨stores, _, rfl⟩ := Option.map_eq_some_iff.mp stepped
      exact (underWay_of_slots rfl rfl rfl).symm.trans works
  | putOriginal id format contentType body =>
      cases stepped
      exact (underWay_of_slots rfl rfl rfl).symm.trans works
  | completion index event =>
      obtain ⟨answer, _, rfl⟩ := Option.map_eq_some_iff.mp stepped
      exact (underWay_of_slots rfl rfl rfl).symm.trans works
  | execution index event =>
      obtain ⟨⟨stores, slots⟩, moved, rfl⟩ := Option.map_eq_some_iff.mp stepped
      obtain ⟨execution, next, slot, advanced, rfl⟩ := slotStep_eq_some moved
      cases component with
      | execution place => exact work_of_set slot (fun _ => executionWork_kept advanced) works
      | deletion place => exact works
      | sweep place => exact works
  | deletion index event =>
      obtain ⟨⟨stores, slots⟩, moved, rfl⟩ := Option.map_eq_some_iff.mp stepped
      obtain ⟨deletion, next, slot, inner, rfl⟩ := slotStep_eq_some moved
      obtain ⟨⟨_, phase⟩, advanced, same⟩ := Option.map_eq_some_iff.mp inner
      cases same
      cases component with
      | execution place => exact works
      | deletion place => exact work_of_set slot (fun _ => deletionWork_kept advanced) works
      | sweep place => exact works
  | sweep index event =>
      obtain ⟨⟨stores, slots⟩, moved, rfl⟩ := Option.map_eq_some_iff.mp stepped
      obtain ⟨phase, next, slot, advanced, rfl⟩ := slotStep_eq_some moved
      cases component with
      | execution place => exact works
      | deletion place => exact works
      | sweep place => exact work_of_set slot (fun _ => sweepWork_kept advanced) works
  | advance | tasks | startCompletion | startExecution | startSweep | startDeletion => cases mine

/-- A handler that starts puts one use case under way, with what it was asked for. -/
theorem underWay_of_launch {asked : RegisteredMetadata}
    (works : underWay (launch service asked).1 component = some metadata) :
    underWay service component = some metadata ∨
      component = (launch service asked).2 ∧ metadata = asked := by
  cases asked with
  | processVideo asked =>
      cases component with
      | execution place =>
          rcases work_of_snoc works with older | ⟨rfl, own⟩
          · exact .inl older
          · exact .inr ⟨rfl, (Option.some.inj own).symm⟩
      | deletion place => exact .inl works
      | sweep place => exact .inl works
  | deleteVideo asked =>
      cases component with
      | execution place => exact .inl works
      | deletion place =>
          rcases work_of_snoc works with older | ⟨rfl, own⟩
          · exact .inl older
          · exact .inr ⟨rfl, (Option.some.inj own).symm⟩
      | sweep place => exact .inl works
  | cleanupStaleVideos asked =>
      cases component with
      | execution place => exact .inl works
      | deletion place => exact .inl works
      | sweep place =>
          rcases work_of_snoc works with older | ⟨rfl, own⟩
          · exact .inl older
          · exact .inr ⟨rfl, (Option.some.inj own).symm⟩

theorem executionWork_cut (exits : Bool) (execution : Execution) (answer : Stores × Execution)
    (stepped : executionStep stores execution (if exits then .kill else .cut) = some answer) :
    executionWork answer.2 = none := by
  obtain ⟨reached, next⟩ := answer
  cases exits <;> cases executionStep_turn stepped <;>
    simp [executionWork, Execution.running, ExecutionPhase.over]

theorem executionWork_uncut (exits : Bool) (execution : Execution)
    (stopped : executionStep stores execution (if exits then .kill else .cut) = none) :
    executionWork execution = none := by
  cases alive : execution.alive with
  | false => simp [executionWork, Execution.running, alive]
  | true =>
      cases exits with
      | true => simp [executionStep, alive] at stopped
      | false =>
          cases phase : execution.phase <;>
            simp_all [executionStep, executionCut, executionWork, Execution.running,
              ExecutionPhase.over]

theorem deletionWork_cut (deletion : Deletion) (answer : Stores × Deletion)
    (stepped : ((deletionStep stores deletion .cut).map fun answer =>
      (answer.1, (⟨deletion.id, answer.2⟩ : Deletion))) = some answer) :
    deletionWork answer.2 = none := by
  obtain ⟨id, phase⟩ := deletion
  obtain ⟨⟨reached, next⟩, moved, rfl⟩ := Option.map_eq_some_iff.mp stepped
  cases deletionStep_turn moved <;> rfl

theorem deletionWork_uncut (deletion : Deletion)
    (stopped : ((deletionStep stores deletion .cut).map fun answer =>
      (answer.1, (⟨deletion.id, answer.2⟩ : Deletion))) = none) : deletionWork deletion = none := by
  rw [Option.map_eq_none_iff] at stopped
  cases phase : deletion.phase <;> simp_all [deletionStep, deletionWork, DeletionPhase.isOver]

theorem sweepWork_cut (phase : SweepPhase) (answer : Stores × SweepPhase)
    (stepped : sweepStep stores phase .cut = some answer) : sweepWork answer.2 = none := by
  obtain ⟨reached, next⟩ := answer
  cases sweepStep_turn stepped <;> rfl

theorem sweepWork_uncut (phase : SweepPhase) (stopped : sweepStep stores phase .cut = none) :
    sweepWork phase = none := by
  cases phase <;> simp_all [sweepStep, sweepWork, SweepPhase.isOver]

theorem dropHandler_execution (service : Service.State) (index : Nat) (exits : Bool) :
    (dropHandler service (.execution index) exits).executions =
        ((slotStep service.executions index fun execution =>
          executionStep service.stores execution
            (if exits then .kill else .cut)).map Prod.snd).getD service.executions ∧
      (dropHandler service (.execution index) exits).deletions = service.deletions ∧
      (dropHandler service (.execution index) exits).sweeps = service.sweeps := by
  simp only [dropHandler, Service.step]
  cases slotStep service.executions index fun execution =>
    executionStep service.stores execution (if exits then .kill else .cut) <;> exact ⟨rfl, rfl, rfl⟩

theorem dropHandler_deletion (service : Service.State) (index : Nat) (exits : Bool) :
    (dropHandler service (.deletion index) exits).deletions =
        ((slotStep service.deletions index fun deletion =>
          (deletionStep service.stores deletion .cut).map fun answer =>
            (answer.1, ⟨deletion.id, answer.2⟩)).map Prod.snd).getD service.deletions ∧
      (dropHandler service (.deletion index) exits).executions = service.executions ∧
      (dropHandler service (.deletion index) exits).sweeps = service.sweeps := by
  simp only [dropHandler, Service.step]
  cases slotStep service.deletions index fun deletion =>
    (deletionStep service.stores deletion .cut).map fun answer =>
      (answer.1, (⟨deletion.id, answer.2⟩ : Deletion)) <;> exact ⟨rfl, rfl, rfl⟩

theorem dropHandler_sweep (service : Service.State) (index : Nat) (exits : Bool) :
    (dropHandler service (.sweep index) exits).sweeps =
        ((slotStep service.sweeps index fun phase =>
          sweepStep service.stores phase .cut).map Prod.snd).getD service.sweeps ∧
      (dropHandler service (.sweep index) exits).executions = service.executions ∧
      (dropHandler service (.sweep index) exits).deletions = service.deletions := by
  simp only [dropHandler, Service.step]
  cases slotStep service.sweeps index fun phase => sweepStep service.stores phase .cut <;>
    exact ⟨rfl, rfl, rfl⟩

/-- A handler that is dropped leaves no use case of its own under way. -/
theorem underWay_of_drop {dropped : Component} {exits : Bool}
    (works : underWay (dropHandler service dropped exits) component = some metadata) :
    underWay service component = some metadata ∧ component ≠ dropped := by
  cases dropped with
  | execution index =>
      obtain ⟨executions, deletions, sweeps⟩ := dropHandler_execution service index exits
      cases component with
      | execution place =>
          rw [underWay, executions] at works
          obtain ⟨kept, other⟩ :=
            work_of_drop (executionWork_cut exits) (executionWork_uncut exits) works
          exact ⟨kept, fun same => other (Component.execution.inj same)⟩
      | deletion place =>
          rw [underWay, deletions] at works
          exact ⟨works, fun same => by cases same⟩
      | sweep place =>
          rw [underWay, sweeps] at works
          exact ⟨works, fun same => by cases same⟩
  | deletion index =>
      obtain ⟨deletions, executions, sweeps⟩ := dropHandler_deletion service index exits
      cases component with
      | execution place =>
          rw [underWay, executions] at works
          exact ⟨works, fun same => by cases same⟩
      | deletion place =>
          rw [underWay, deletions] at works
          obtain ⟨kept, other⟩ := work_of_drop deletionWork_cut deletionWork_uncut works
          exact ⟨kept, fun same => other (Component.deletion.inj same)⟩
      | sweep place =>
          rw [underWay, sweeps] at works
          exact ⟨works, fun same => by cases same⟩
  | sweep index =>
      obtain ⟨sweeps, executions, deletions⟩ := dropHandler_sweep service index exits
      cases component with
      | execution place =>
          rw [underWay, executions] at works
          exact ⟨works, fun same => by cases same⟩
      | deletion place =>
          rw [underWay, deletions] at works
          exact ⟨works, fun same => by cases same⟩
      | sweep place =>
          rw [underWay, sweeps] at works
          obtain ⟨kept, other⟩ := work_of_drop sweepWork_cut sweepWork_uncut works
          exact ⟨kept, fun same => other (Component.sweep.inj same)⟩

/-- A use case that has answered is not under way. -/
theorem underWay_of_result {result : TaskResult}
    (answered : handlerResult service component = some result) :
    underWay service component = none := by
  cases component with
  | execution index =>
      obtain ⟨execution, slot, ended⟩ := Option.bind_eq_some_iff.mp answered
      simp only [underWay, slot, Option.bind_some, executionWork]
      split at ended
      · rename_i result phase
        simp [Execution.running, phase, ExecutionPhase.over]
      · cases ended
  | deletion index =>
      obtain ⟨deletion, slot, ended⟩ := Option.bind_eq_some_iff.mp answered
      simp only [underWay, slot, Option.bind_some, deletionWork]
      split at ended
      · rename_i result phase
        simp [phase, DeletionPhase.isOver]
      · cases ended
  | sweep index =>
      obtain ⟨phase, slot, ended⟩ := Option.bind_eq_some_iff.mp answered
      simp only [underWay, slot, Option.bind_some, sweepWork]
      split at ended
      · rfl
      · cases ended

end UseCases

end Benri.Program
