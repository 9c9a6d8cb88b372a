import Benri.Service.Orphans
import Benri.Service.Retention
import Benri.Service.Staleness

namespace Benri.Service

open Benri.Data Benri.Domain Benri.Postgres Benri.Storage Benri.Transcoder Benri.Transition

/-! # Up to the cleanup

When a handler is about to delete the original, its uploader is over, and the row
is `PROCESSED` and still there unless somebody has scheduled its deletion.
-/

/-- An upload that is over: the pipeline has ended and the uploader returned. -/
structure Finished (upload : Upload) : Prop where
  ended : upload.pipeline = false
  returned : ∃ result, upload.uploader.phase = .returned result

theorem Finished.step {objects reached : Objects} {upload after : Upload}
    (finished : Finished upload) (effect : UploadEffect objects upload reached after) :
    reached = objects ∧ Finished after := by
  obtain ⟨ended, result, returned⟩ := finished
  cases effect with
  | wrote level files file content produced running =>
      rw [ended] at running
      cases running
  | ended => exact ⟨rfl, rfl, result, returned⟩
  | stopped | abandoned | dropped => exact ⟨rfl, ended, result, returned⟩
  | ticked mode asleep =>
      rw [returned] at asleep
      cases asleep
  | acted mode action rest more reached after working
    | failed mode action rest reached error working =>
      rw [returned] at working
      cases working

/-- The transcode has succeeded, as far as the handler knows. -/
def ExecutionPhase.delivered : ExecutionPhase → Bool
  | .joinPublisher _ (.ok ()) | .finalize _ | .cleanupOriginal _ => true
  | _ => false

def Execution.Delivered (execution : Execution) : Prop :=
  execution.phase.delivered = true → ∀ upload, execution.upload = some upload → Finished upload

variable {stores reached : Stores} {execution next : Execution}

theorem executionStep_delivered {event : ExecutionEvent} (delivered : execution.Delivered)
    (stepped : executionStep stores execution event = some (reached, next)) : next.Delivered := by
  cases executionStep_turn stepped with
  | joined video upload result answer phase before ended returned =>
      intro _ later there
      cases there
      exact ⟨ended, result, returned⟩
  | uploaded upload after objects event before moved =>
      intro past later there
      cases there
      exact ((delivered past upload before).step (uploadStep_effect moved)).2
  | transcoded video phase => exact fun _ => delivered (by rw [phase]; rfl)
  | finalized video shareToken phase => exact fun _ => delivered (by rw [phase]; rfl)
  | signalled | silenced | published => exact delivered
  | loaded | unloaded | claimed | unclaimed | claimFailed | unprobed | probed | unspawned |
    spawned | panicked | untranscoded | cleaned | failed | cut | killed =>
      exact fun past => by cases past

/-- What leads a handler to the cleanup leaves the row `PROCESSED`. -/
theorem ExecutionEffect.finishes {event : ExecutionEvent} {video : Video}
    (effect : ExecutionEffect stores execution event reached next) (coherent : Coherent execution)
    (phase : next.phase = .cleanupOriginal video) :
    execution.phase = .cleanupOriginal video ∨
      ∃ row, reached.videos.find? execution.id = some row ∧ row.status = .processed := by
  cases effect with
  | quiet _ advance =>
      cases advance with
      | signalled | silenced => exact .inl phase
      | loaded | ended | probed | failing | unspawned | spawned | joined | ready | cut | killed =>
          cases phase
  | claimed _ _ _ _ _ _ answered => rcases answered with rfl | ⟨error, rfl⟩ <;> cases phase
  | published | uploaded => exact .inl phase
  | finalized shareToken marked row videos _ before drawn found processing updated answered =>
      have mine : marked.id = execution.id := (coherent.video marked (by rw [before]; rfl)).1
      rw [mine] at found updated
      refine .inr ⟨withToken shareToken .processed row, ?_, rfl⟩
      exact (find?_updateToken updated _).trans (by rw [found, Option.map_some,
        if_pos ⟨rfl, processing⟩])
  | cleaned | failed => cases phase

/-! ## Every reachable state -/

structure Cleanup (state : State) : Prop where
  deletions : ∀ deletion ∈ state.deletions, isScheduled state.stores deletion.id = true
  delivered : ∀ execution ∈ state.executions, execution.Delivered
  present : ∀ execution ∈ state.executions, execution.claimed = true →
    isScheduled state.stores execution.id = false →
    (state.stores.videos.find? execution.id).isSome = true
  processed : ∀ execution ∈ state.executions, ∀ video,
    execution.phase = .cleanupOriginal video → Rests execution.id .processed state.stores

theorem Cleanup.initial (now : Instant) : Cleanup (State.initial now) where
  deletions _ member := absurd member List.not_mem_nil
  delivered _ member := absurd member List.not_mem_nil
  present _ member := absurd member List.not_mem_nil
  processed _ member := absurd member List.not_mem_nil

variable {before after : State} {event : Event}

/-- A row goes after its deletion was scheduled. -/
theorem Cleanup.present_kept (cleanup : Cleanup before) (snapshots : Snapshots before)
    (effect : Effect before event after) {id : VideoId}
    (unscheduled : isScheduled after.stores id = false)
    (present : (before.stores.videos.find? id).isSome = true) :
    (after.stores.videos.find? id).isSome = true := by
  rcases effect.row_kept snapshots present with kept | ⟨deletion, member, video, rfl, _⟩
  · exact kept
  · rw [effect.still_scheduled (cleanup.deletions deletion member)] at unscheduled
    cases unscheduled

theorem Cleanup.step (cleanup : Cleanup before) (served : Served before)
    (stepped : step before event = some after) : Cleanup after := by
  have effect := step_effect stepped
  have later := served.step effect
  have present : ∀ execution ∈ before.executions, execution.claimed = true →
      isScheduled after.stores execution.id = false →
      (after.stores.videos.find? execution.id).isSome = true := by
    intro execution member claimed unscheduled
    refine cleanup.present_kept served.snapshots effect unscheduled ?_
    refine cleanup.present execution member claimed (Bool.eq_false_iff.mpr fun scheduled => ?_)
    rw [effect.still_scheduled scheduled] at unscheduled
    cases unscheduled
  have processed : ∀ execution ∈ before.executions, ∀ video,
      execution.phase = .cleanupOriginal video → Rests execution.id .processed after.stores :=
    fun execution member video phase =>
      (cleanup.processed execution member video phase).step effect.rows
  refine ⟨effect.deletions_scheduled cleanup.deletions, ?_, ?_, ?_⟩
  all_goals
    rcases executions_of_step stepped with
      executions | ⟨id, executions⟩ |
        ⟨index, inner, execution, next, rfl, slot, advanced, executions⟩
    all_goals rw [executions]
  · exact cleanup.delivered
  · exact forall_mem_snoc cleanup.delivered fun past => by cases past
  · have inside := List.mem_of_getElem? slot
    exact forall_mem_set cleanup.delivered
      (executionStep_delivered (cleanup.delivered execution inside) advanced)
  · exact present
  · exact forall_mem_snoc present fun claimed => by cases claimed
  · have inside := List.mem_of_getElem? slot
    have coherent := served.snapshots.executions execution inside
    have effect := executionStep_effect advanced
    refine forall_mem_set present fun claimed => ?_
    rw [(effect.extends coherent).id]
    rcases effect.gains coherent claimed with older | ⟨row, found, uploaded, videos⟩
    · exact present execution inside older
    · intro _
      rw [videos, isSome_updateStatusIf, found]
      rfl
  · exact processed
  · exact forall_mem_snoc processed fun video phase => by cases phase
  · have inside := List.mem_of_getElem? slot
    have coherent := served.snapshots.executions execution inside
    have effect := executionStep_effect advanced
    refine forall_mem_set processed fun video phase => ?_
    have same := (effect.extends coherent).id
    rw [same]
    rcases effect.finishes coherent phase with older | ⟨row, found, status⟩
    · exact processed execution inside video older
    · have there : next ∈ after.executions := by
        obtain ⟨bound, _⟩ := List.getElem?_eq_some_iff.mp slot
        rw [executions]
        exact List.mem_set bound next
      have claimed := (later.snapshots.executions next there).claimed (by rw [phase]; rfl)
      have known := later.claims.known next there claimed
      rw [same] at known
      refine ⟨.inl rfl, known, fun other present => ?_⟩
      rw [found] at present
      cases present
      exact status

theorem cleanup_of_reaches {now : Instant} {state : State}
    (reached : Reaches step Anything (State.initial now) state) : Served state ∧ Cleanup state := by
  refine reached.preserves (fun state => Served state ∧ Cleanup state)
    ⟨.initial now, .initial now⟩ fun holds _ stepped => ?_
  exact ⟨holds.1.step (step_effect stepped), holds.2.step holds.1 stepped⟩

end Benri.Service
