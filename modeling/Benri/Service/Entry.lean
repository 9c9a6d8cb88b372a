import Benri.Service.Original
import Benri.Service.Story

namespace Benri.Service

open Benri.Data Benri.Domain Benri.Postgres Benri.Storage Benri.Transcoder Benri.Transition

/-! # The steps of one execution

A step is noted with the stores it found and left.  What it did to the row, the
tasks and the original can be told from its deed, and the other way round.
-/

structure Entry where
  before : Stores
  execution : Execution
  event : ExecutionEvent
  after : Stores

def Entry.deed (entry : Entry) : Option Deed :=
  Service.deed entry.before entry.execution entry.event

def deeds (log : List Entry) : List Deed := log.filterMap Entry.deed

/-- A database call that errs although it took effect. -/
def appliedError (execution : Execution) : ExecutionEvent → Bool
  | .call (.error true _) =>
      match execution.phase with
      | .cleanupOriginal _ => false
      | _ => true
  | .publish (.error true _) | .fail (.commit true _) _ => true
  | _ => false

def HasStatus (stores : Stores) (id : VideoId) (status : VideoStatus) : Prop :=
  ∃ row, stores.videos.find? id = some row ∧ row.status = status

def Entry.MovesTo (entry : Entry) (id : VideoId) (status : VideoStatus) : Prop :=
  HasStatus entry.after id status ∧ ¬HasStatus entry.before id status

/-! ## Statements that set a status -/

/-- The row of `id` is given the status `new` if it has the status `expected`; no
other status changes. -/
def SetsStatus (before after : VideoTable) (id : VideoId) (expected new : VideoStatus) : Prop :=
  ∀ wanted, (after.find? wanted).map Video.status =
    ((before.find? wanted).map Video.status).map fun status =>
      if wanted = id ∧ status = expected then new else status

theorem setsStatus_updateStatusIf (videos : VideoTable) (id : VideoId)
    (expected new : VideoStatus) :
    SetsStatus videos (updateStatusIf videos id expected new).1 id expected new := by
  intro wanted
  rw [find?_updateStatusIf]
  cases videos.find? wanted with
  | none => rfl
  | some row => by_cases moves : wanted = id ∧ row.status = expected <;> simp [moves]

theorem setsStatus_updateToken {videos after : VideoTable} {id : VideoId} {shareToken : String}
    {new : VideoStatus} {touched : Bool}
    (updated : updateToken videos id shareToken new = some (after, touched)) :
    SetsStatus videos after id .processing new := by
  intro wanted
  rw [find?_updateToken updated]
  cases videos.find? wanted with
  | none => rfl
  | some row => by_cases moves : wanted = id ∧ row.status = .processing <;> simp [moves, withToken]

theorem hasStatus_iff {stores : Stores} {id : VideoId} {status : VideoStatus} :
    HasStatus stores id status ↔ (stores.videos.find? id).map Video.status = some status := by
  simp [HasStatus]

section Statements

variable {before after : Stores} {id wanted : VideoId} {expected new status : VideoStatus}
  (sets : SetsStatus before.videos after.videos id expected new)

include sets

theorem SetsStatus.unexpected (different : new ≠ expected) : ¬HasStatus after id expected := by
  intro holds
  rw [hasStatus_iff, sets id] at holds
  obtain ⟨old, _, same⟩ := Option.map_eq_some_iff.mp holds
  by_cases moves : old = expected
  · rw [if_pos ⟨rfl, moves⟩] at same
    exact different same
  · rw [if_neg fun both => moves both.2] at same
    exact moves same

theorem SetsStatus.moves (different : new ≠ expected) (holds : HasStatus before id expected) :
    HasStatus after id new ∧ ¬HasStatus before id new := by
  rw [hasStatus_iff] at holds
  refine ⟨?_, fun already => ?_⟩
  · rw [hasStatus_iff, sets id, holds, Option.map_some, if_pos ⟨rfl, rfl⟩]
  · rw [hasStatus_iff, holds] at already
    exact different (Option.some.inj already).symm

/-- A status that a statement does not set was there before it. -/
theorem SetsStatus.held (different : new ≠ status) (holds : HasStatus after wanted status) :
    HasStatus before wanted status := by
  rw [hasStatus_iff, sets wanted] at holds
  obtain ⟨old, found, same⟩ := Option.map_eq_some_iff.mp holds
  split at same
  · exact absurd same different
  · exact hasStatus_iff.mpr (same ▸ found)

end Statements

/-! ## Token statements and the failure transaction -/

variable {stores reached : Stores} {execution next : Execution} {event : ExecutionEvent}

theorem writeToken_unapplied {fault : Fault} (missed : ∀ message, fault ≠ .error true message)
    (id : VideoId) (shareToken : String) (updated : Option (VideoTable × Bool)) :
    (∃ error, writeToken stores fault id shareToken updated = (stores, .error error)) ∨
      ∃ videos touched, updated = some (videos, touched) ∧
        (writeToken stores fault id shareToken updated).1.videos = videos ∧
        (writeToken stores fault id shareToken updated).2 = .ok touched := by
  cases updated with
  | none => exact .inl ⟨_, rfl⟩
  | some answer =>
      obtain ⟨videos, touched⟩ := answer
      cases fault with
      | none => exact .inr ⟨videos, touched, rfl, rfl, rfl⟩
      | error applied message =>
          cases applied with
          | false => exact .inl ⟨_, rfl⟩
          | true => exact absurd rfl (missed message)

theorem finalizeExecution_stores (fault : Fault) (video : Video) (shareToken : String) :
    (finalizeExecution stores fault video shareToken).1 =
      (writeToken stores fault video.id shareToken
        (Postgres.markProcessed stores.videos video.id shareToken)).1 := by
  unfold finalizeExecution
  split <;> simp_all

theorem deed_finalize (stores : Stores) (fault : Fault) {video : Video}
    (phase : execution.phase = .finalize video) :
    deed stores execution (.call fault) =
      (markAnswer stores fault execution video).map .marked := by
  simp only [deed, phase]

theorem deed_fail {fault : TxFault} {seed : TaskSeed} {video : Video}
    (phase : execution.phase = .fail video) :
    deed stores execution (.fail fault seed) =
      some (.failed (failureDiscarded stores fault seed)) := by
  simp only [deed, phase]

theorem deed_cleanupOriginal {fault : Fault} {video : Video}
    (phase : execution.phase = .cleanupOriginal video) :
    deed stores execution (.call fault) = some .cleaned := by
  simp only [deed, phase]

theorem deed_marked {answer : Except String Bool}
    (marked : deed stores execution event = some (.marked answer)) :
    ∃ fault video, event = .call fault ∧ execution.phase = .finalize video ∧
      markAnswer stores fault execution video = some answer := by
  unfold deed at marked
  split at marked
  · cases marked
  · cases marked
  · rename_i fault video phase
    obtain ⟨_, answered, same⟩ := Option.map_eq_some_iff.mp marked
    cases same
    exact ⟨fault, video, rfl, phase, answered⟩
  · cases marked
  · cases marked
  · split at marked <;> cases marked
  · cases marked

theorem deed_failed {discarded : Bool}
    (failed : deed stores execution event = some (.failed discarded)) :
    ∃ fault seed video, event = .fail fault seed ∧ execution.phase = .fail video ∧
      failureDiscarded stores fault seed = discarded := by
  unfold deed at failed
  split at failed
  · cases failed
  · cases failed
  · obtain ⟨_, _, same⟩ := Option.map_eq_some_iff.mp failed
    cases same
  · cases failed
  · rename_i fault seed video phase
    cases failed
    exact ⟨fault, seed, video, rfl, phase, rfl⟩
  · split at failed <;> cases failed
  · cases failed

/-! ## One entry -/

/-- An entry is a step of the execution for `id`. -/
structure Entry.Sound (id : VideoId) (entry : Entry) : Prop where
  named : entry.execution.id = id
  coherent : Coherent entry.execution
  unapplied : appliedError entry.execution entry.event = false
  stepped : ∃ next, executionStep entry.before entry.execution entry.event =
    some (entry.after, next)

variable {id : VideoId} {entry : Entry}

theorem Entry.Sound.effect (sound : entry.Sound id) :
    ∃ next, ExecutionEffect entry.before entry.execution entry.event entry.after next := by
  obtain ⟨next, stepped⟩ := sound.stepped
  exact ⟨next, executionStep_effect stepped⟩

theorem Entry.Sound.video (sound : entry.Sound id) {video : Video}
    (phase : entry.execution.phase.video? = some video) : video.id = id :=
  (sound.coherent.video video phase).1.trans sound.named

/-- What the mark does: nothing, or what its statement does. -/
theorem Entry.Sound.marked (sound : entry.Sound id) {answer : Except String Bool}
    (marked : entry.deed = some (.marked answer)) :
    (∃ error, answer = .error error ∧ entry.after = entry.before) ∨
      ∃ videos touched shareToken, answer = .ok touched ∧
        Postgres.markProcessed entry.before.videos id shareToken = some (videos, touched) ∧
        entry.after.videos = videos := by
  obtain ⟨fault, video, call, phase, answered⟩ := deed_marked marked
  obtain ⟨next, stepped⟩ := sound.stepped
  have mine := sound.video (by rw [phase]; rfl)
  have unapplied := sound.unapplied
  have missed : ∀ message, fault ≠ .error true message := by
    rintro message rfl
    simp [call, appliedError, phase] at unapplied
  simp only [executionStep, executionStep_alive stepped, if_true, call, executionCall, phase]
    at stepped
  obtain ⟨shareToken, drawn, same⟩ := Option.map_eq_some_iff.mp stepped
  obtain ⟨after, _⟩ := Prod.mk.inj same
  rw [finalizeExecution_stores, mine] at after
  simp only [markAnswer, drawn, mine, Option.map_some, Option.some.injEq] at answered
  rcases writeToken_unapplied missed id shareToken
    (Postgres.markProcessed entry.before.videos id shareToken) with
      ⟨error, written⟩ | ⟨videos, touched, updated, videosWritten, touchedWritten⟩
  · rw [written] at after answered
    exact .inl ⟨error, answered.symm, after.symm⟩
  · rw [touchedWritten] at answered
    exact .inr ⟨videos, touched, shareToken, answered.symm, updated, by rw [← after, videosWritten]⟩

theorem updateToken_touched {videos after : VideoTable} {shareToken : String}
    {status : VideoStatus} {touched : Bool}
    (updated : updateToken videos id shareToken status = some (after, touched)) :
    touched = true ↔ ∃ row, videos.find? id = some row ∧ row.status = .processing := by
  simp only [updateToken] at updated
  split at updated
  · contradiction
  · cases updated
    exact touched_iff videos id .processing

/-- A mark that is answered has run its statement. -/
theorem Entry.Sound.sets_marked (sound : entry.Sound id) {touched : Bool}
    (marked : entry.deed = some (.marked (.ok touched))) :
    SetsStatus entry.before.videos entry.after.videos id .processing .processed := by
  rcases sound.marked marked with ⟨error, same, _⟩ | ⟨videos, answer, shareToken, _, updated, after⟩
  · cases same
  · rw [after]
    exact setsStatus_updateToken updated

theorem Entry.Sound.processing_of_marked (sound : entry.Sound id)
    (marked : entry.deed = some (.marked (.ok true))) : HasStatus entry.before id .processing := by
  rcases sound.marked marked with ⟨error, same, _⟩ | ⟨videos, _, shareToken, same, updated, _⟩
  · cases same
  · cases same
    exact (updateToken_touched updated).mp rfl

/-- What the failure transaction does when it takes effect. -/
theorem Entry.Sound.failed (sound : entry.Sound id)
    (failed : entry.deed = some (.failed false)) :
    ∃ task, deletesVideo task id = true ∧
      entry.after.tasks.rows = entry.before.tasks.rows ++ [task] ∧
      entry.after.videos = (updateStatusIf entry.before.videos id .processing .failed).1 := by
  obtain ⟨fault, seed, video, event, phase, kept⟩ := deed_failed failed
  obtain ⟨next, stepped⟩ := sound.stepped
  have mine := sound.video (by rw [phase]; rfl)
  simp only [executionStep, executionStep_alive stepped, if_true, event, phase] at stepped
  obtain ⟨after, _⟩ := Prod.mk.inj (Option.some.inj stepped)
  obtain ⟨tasks, inserted, same⟩ := failAndScheduleDelete_kept video.id kept
  rw [← after, same, mine]
  rw [mine] at inserted
  exact ⟨_, by simp, (Table.insert?_eq_some inserted).2, rfl⟩

theorem Entry.Sound.sets_failed (sound : entry.Sound id)
    (failed : entry.deed = some (.failed false)) :
    SetsStatus entry.before.videos entry.after.videos id .processing .failed := by
  obtain ⟨task, _, _, after⟩ := sound.failed failed
  rw [after]
  exact setsStatus_updateStatusIf _ _ _ _

/-- Only the failure transaction adds tasks. -/
theorem Entry.Sound.tasks (sound : entry.Sound id)
    (others : ∀ discarded, entry.deed ≠ some (.failed discarded)) :
    entry.after.tasks = entry.before.tasks := by
  obtain ⟨before, execution, event, after⟩ := entry
  obtain ⟨next, effect⟩ : ∃ next, ExecutionEffect before execution event after next := sound.effect
  cases effect with
  | failed video seed tasks result phase change =>
      exact absurd (deed_fail phase) (others _)
  | quiet | claimed | published | finalized | cleaned | uploaded => rfl

/-- Only the mark moves a row to `PROCESSED`. -/
theorem Entry.Sound.deed_of_processed (sound : entry.Sound id)
    (moves : entry.MovesTo id .processed) : entry.deed = some (.marked (.ok true)) := by
  obtain ⟨holds, unheld⟩ := moves
  obtain ⟨before, execution, event, after⟩ := entry
  obtain ⟨next, effect⟩ : ∃ next, ExecutionEffect before execution event after next := sound.effect
  cases effect with
  | claimed | failed =>
      exact absurd ((setsStatus_updateStatusIf _ _ _ _).held (by decide) holds) unheld
  | published _ _ _ _ _ _ _ updated =>
      exact absurd ((setsStatus_updateToken updated).held (by decide) holds) unheld
  | quiet | cleaned | uploaded => exact absurd holds unheld
  | @finalized fault shareToken video row videos next phase drawn found processing updated =>
      have mine := sound.video (by rw [phase]; rfl)
      obtain ⟨answer, answered⟩ :
          ∃ answer, markAnswer before fault execution video = some answer := by
        rw [markAnswer, drawn]
        exact ⟨_, rfl⟩
      have marked := deed_finalize before fault phase
      rw [answered, Option.map_some] at marked
      rcases sound.marked marked with ⟨error, _, same⟩ | ⟨_, touched, token, same, written, _⟩
      · rw [show _ = before from same] at holds
        exact absurd holds unheld
      · rw [mine] at found
        rw [(updateToken_touched written).mpr ⟨row, found, processing⟩] at same
        rw [Entry.deed, marked, same]

/-- Only the failure transaction moves a row to `FAILED`. -/
theorem Entry.Sound.deed_of_failed (sound : entry.Sound id) (moves : entry.MovesTo id .failed) :
    entry.deed = some (.failed false) := by
  obtain ⟨holds, unheld⟩ := moves
  obtain ⟨before, execution, event, after⟩ := entry
  obtain ⟨next, stepped⟩ : ∃ next, executionStep before execution event = some (after, next) :=
    sound.stepped
  have alive := executionStep_alive stepped
  cases executionStep_effect stepped with
  | claimed => exact absurd ((setsStatus_updateStatusIf _ _ _ _).held (by decide) holds) unheld
  | published _ _ _ _ _ _ _ updated | finalized _ _ _ _ _ _ _ _ _ updated =>
      exact absurd ((setsStatus_updateToken updated).held (by decide) holds) unheld
  | quiet | cleaned | uploaded => exact absurd holds unheld
  | @failed fault video seed tasks result phase change =>
      rw [Entry.deed, deed_fail phase]
      cases discarded : failureDiscarded before fault seed with
      | false => rfl
      | true =>
          simp only [executionStep, alive, if_true, phase,
            failAndScheduleDelete_discarded discarded] at stepped
          obtain ⟨same, _⟩ := Prod.mk.inj (Option.some.inj stepped)
          rw [← show before = _ from same] at holds
          exact absurd holds unheld

/-- Only the cleanup deletes the original. -/
theorem Entry.Sound.deed_of_deleted (sound : entry.Sound id) {format : VideoFormat}
    (there : original entry.before.objects id format ≠ none)
    (gone : original entry.after.objects id format = none) : entry.deed = some .cleaned := by
  obtain ⟨before, execution, event, after⟩ := entry
  obtain ⟨next, effect⟩ : ∃ next, ExecutionEffect before execution event after next := sound.effect
  cases effect with
  | cleaned video result phase => exact deed_cleanupOriginal phase
  | uploaded upload after objects event running stepped =>
      have same : original objects id format = original before.objects id format :=
        original_upload (sound.coherent.uploading upload running).2 (uploadStep_effect stepped)
      exact absurd (same.symm.trans gone) there
  | quiet | claimed | published | finalized | failed => exact absurd gone there

end Benri.Service
