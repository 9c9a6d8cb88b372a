import Benri.Data.Slots
import Benri.Service.Rows

namespace Benri.Service

open Benri.Data Benri.Domain Benri.Postgres Benri.Storage Benri.Transition

/-! # The outbox of completed uploads

A video waits for its upload exactly as long as it has no `ProcessVideo` task:
the flip of the status and the insertion of the task are one transaction, and
every other writer of the status column leaves both alone.
-/

/-- What the rows of a video say about each other. -/
structure OutboxRows (stores : Stores) : Prop where
  pending : ∀ id row, stores.videos.find? id = some row →
    processRows stores id = if row.status = .pendingUpload then 0 else 1
  fresh : ∀ id, id ∉ stores.issued → processRows stores id = 0
  issued : ∀ id row, stores.videos.find? id = some row → id ∈ stores.issued

theorem OutboxRows.initial (now : Instant) : OutboxRows (Stores.initial now) :=
  ⟨fun _ _ found => by simp [Stores.initial] at found, fun _ _ => rfl,
    fun _ _ found => by simp [Stores.initial] at found⟩

theorem OutboxRows.step {before after : Stores} (outbox : OutboxRows before)
    (effect : RowsEffect before after) : OutboxRows after := by
  cases effect with
  | proceeds written rows issued tokens tasks =>
      refine ⟨fun id row found => ?_, fun id fresh => ?_, fun id row found => ?_⟩
      · obtain ⟨old, there, proceeds⟩ := rows id row found
        rw [tasks, outbox.pending id old there]
        simp only [proceeds.pending]
      · rw [tasks]
        exact outbox.fresh id fun known => fresh (issued known)
      · obtain ⟨old, there, _⟩ := rows id row found
        exact issued (outbox.issued id old there)
  | born id title format fresh rows issued tokens tasks =>
      refine ⟨fun wanted row found => ?_, fun wanted unknown => ?_, fun wanted row found => ?_⟩
      · rw [rows] at found
        rw [tasks]
        split at found
        · rename_i same
          cases found
          rw [← same, outbox.fresh id fresh]
          rfl
        · exact outbox.pending wanted row found
      · rw [issued] at unknown
        rw [tasks]
        exact outbox.fresh wanted fun known => unknown (List.mem_append_left _ known)
      · rw [rows] at found
        rw [issued]
        split at found
        · rename_i same
          exact List.mem_append_right _ (List.mem_singleton.mpr same.symm)
        · exact List.mem_append_left _ (outbox.issued wanted row found)
  | uploaded id row there pending rows issued tokens tasks =>
      have counted := outbox.pending id row there
      rw [if_pos pending] at counted
      have flipped := find?_updateStatusIf before.videos id .pendingUpload .uploaded
      refine ⟨fun wanted new found => ?_, fun wanted unknown => ?_, fun wanted new found => ?_⟩
      · rw [rows, flipped] at found
        obtain ⟨old, present, same⟩ := Option.map_eq_some_iff.mp found
        rw [tasks]
        by_cases this : wanted = id
        · subst this
          obtain rfl := Option.some.inj (present.symm.trans there)
          rw [if_pos ⟨rfl, pending⟩] at same
          simp [← same, counted]
        · rw [if_neg fun both => this both.1] at same
          subst same
          rw [if_neg (Ne.symm this), Nat.add_zero]
          exact outbox.pending wanted old present
      · rw [issued] at unknown
        have other : id ≠ wanted := by
          rintro rfl
          exact unknown (outbox.issued id row there)
        rw [tasks, if_neg other, Nat.add_zero]
        exact outbox.fresh wanted unknown
      · rw [rows, flipped] at found
        obtain ⟨old, present, _⟩ := Option.map_eq_some_iff.mp found
        rw [issued]
        exact outbox.issued wanted old present

theorem RowsEffect.processRows_le {before after : Stores} (effect : RowsEffect before after)
    (id : VideoId) : processRows before id ≤ processRows after id := by
  cases effect with
  | proceeds written rows issued tokens tasks => rw [tasks]
  | born _ title format fresh rows issued tokens tasks => rw [tasks]
  | uploaded _ row found pending rows issued tokens tasks =>
      rw [tasks]
      exact Nat.le_add_right _ _

/-! ## The calls -/

/-- The call was answered with `Ok`. -/
def Succeeds (id : VideoId) (completion : Completion) : Prop :=
  completion.id = id ∧ ∃ output, completion.phase = .returned (.ok output)

structure OutboxCalls (state : State) : Prop where
  video : ∀ completion ∈ state.completions, ∀ video,
    completion.phase.video? = some video → video.id = completion.id
  succeeded : ∀ id, ∀ completion ∈ state.completions, Succeeds id completion →
    processRows state.stores id ≠ 0
  once : ∀ id, AtMostOne (Succeeds id) state.completions

theorem OutboxCalls.of_same {before after : State} (calls : OutboxCalls before)
    (effect : RowsEffect before.stores after.stores)
    (completions : after.completions = before.completions) : OutboxCalls after := by
  refine ⟨?_, ?_, ?_⟩ <;> rw [completions]
  · exact calls.video
  · intro id completion member succeeds
    have positive := calls.succeeded id completion member succeeds
    have grown := effect.processRows_le id
    omega
  · exact calls.once

theorem OutboxCalls.step {before after : State} {event : Event} (calls : OutboxCalls before)
    (outbox : OutboxRows before.stores) (effect : Effect before event after) :
    OutboxCalls after := by
  have rows := effect.rows
  cases effect with
  | startCompletion id =>
      refine ⟨forall_mem_snoc calls.video (fun _ same => by cases same), fun wanted => ?_,
        fun wanted => (calls.once wanted).snoc ?_⟩
      · exact forall_mem_snoc (calls.succeeded wanted) fun ⟨_, _, same⟩ => by cases same
      · rintro ⟨_, _, same⟩
        cases same
  | completion index event completion stores next slot effect =>
      have member := List.mem_of_getElem? slot
      cases effect with
      | quiet _ unfinished video =>
          refine ⟨forall_mem_set calls.video ?_, fun wanted => ?_, fun wanted =>
            (calls.once wanted).set slot ?_⟩
          · intro named same
            rcases video named same with old | found
            · exact calls.video completion member named old
            · exact Table.key_of_find? found
          · refine forall_mem_set (calls.succeeded wanted) ?_
            rintro ⟨_, output, same⟩
            exact absurd same (unfinished output)
          · rintro ⟨_, output, same⟩
            exact absurd same (unfinished output)
      | rejected video error tasks added phase change deletes =>
          refine ⟨forall_mem_set calls.video (fun _ same => by cases same), fun wanted => ?_,
            fun wanted => (calls.once wanted).set slot ?_⟩
          · refine forall_mem_set (fun other inside succeeds => ?_) ?_
            · have positive := calls.succeeded wanted other inside succeeds
              have grown := rows.processRows_le wanted
              omega
            · rintro ⟨_, _, same⟩
              cases same
          · rintro ⟨_, _, same⟩
            cases same
      | uploaded video row seed tasks _ phase found pending change answered =>
          have named : video.id = completion.id :=
            calls.video completion member video (by rw [phase]; rfl)
          have none : processRows before.stores video.id = 0 := by
            rw [outbox.pending video.id row found, if_pos pending]
          refine ⟨forall_mem_set calls.video ?_, fun wanted => forall_mem_set ?_ ?_, fun wanted =>
            (calls.once wanted).set slot ?_⟩
          · intro other same
            rcases answered with rfl | ⟨error, rfl⟩ <;> cases same
          · intro other inside succeeds
            have positive := calls.succeeded wanted other inside succeeds
            have grown := rows.processRows_le wanted
            omega
          · rintro ⟨same, _⟩
            obtain rfl : completion.id = wanted := same
            rw [TasksAdded.processRows change, ← named]
            simp
          · rintro ⟨same, _⟩
            obtain rfl : completion.id = wanted := same
            refine .inr fun other inside succeeds => ?_
            exact calls.succeeded completion.id other inside succeeds (named ▸ none)
  | advance | unborn | born | original | tasks | startExecution | execution | startSweep | sweep |
    startDeletion | deletion => exact calls.of_same rows rfl

/-! ## Every reachable state -/

theorem outbox_of_reaches {now : Instant} {state : State}
    (reached : Reaches step Anything (State.initial now) state) :
    OutboxRows state.stores ∧ OutboxCalls state := by
  refine reached.preserves (fun state => OutboxRows state.stores ∧ OutboxCalls state) ?_ ?_
  · exact ⟨.initial now, fun _ member => absurd member List.not_mem_nil,
      fun _ _ member => absurd member List.not_mem_nil, fun _ => .nil _⟩
  · intro before after event holds _ stepped
    have effect := step_effect stepped
    exact ⟨holds.1.step effect.rows, holds.2.step holds.1 effect⟩

/-- The outbox invariant: a video that waits for its upload has no `ProcessVideo`
task, a video that does not has exactly one, and at most one call that completes
the upload of a video is answered with `Ok`. -/
theorem upload_outbox {now : Instant} {state : State}
    (reached : Reaches step Anything (State.initial now) state) :
    (∀ id row, state.stores.videos.find? id = some row →
      (row.status = .pendingUpload → processRows state.stores id = 0) ∧
      (row.status ≠ .pendingUpload → processRows state.stores id = 1)) ∧
    ∀ id, AtMostOne (Succeeds id) state.completions := by
  obtain ⟨rows, calls⟩ := outbox_of_reaches reached
  refine ⟨fun id row found => ?_, calls.once⟩
  rw [rows.pending id row found]
  exact ⟨fun pending => if_pos pending, fun other => if_neg other⟩

/-! ## A completed upload -/

/-- The first sixteen bytes of a Matroska file. -/
def matroska : Body :=
  .bytes ⟨16, fun index => [0x1A, 0x45, 0xDF, 0xA3].getD index 0⟩

/-- A video is initiated, its file is put, and its upload is completed. -/
def completedUpload (id : VideoId) (task : TaskId) : List Event :=
  [.initiate id "a title" .mkv true, .putOriginal id .mkv "video/x-matroska" matroska,
    .startCompletion id, .completion 0 (.call .none), .completion 0 (.call .none),
    .completion 0 (.call .none), .completion 0 (.transition .none ⟨task, none⟩)]

theorem upload_outbox_completedUpload : ∃ state row,
    Reaches step Anything (State.initial 0) state ∧
    state.stores.videos.find? ⟨.ofNat 7⟩ = some row ∧ row.status = .uploaded ∧
    processRows state.stores ⟨.ofNat 7⟩ = 1 := by
  have passed : ((run step Anything (State.initial 0)
      (completedUpload ⟨.ofNat 7⟩ ⟨.ofNat 8⟩)).map fun state =>
        (state.stores.videos.find? ⟨.ofNat 7⟩).any fun row => decide (row.status = .uploaded)) =
      some true := by decide
  obtain ⟨state, reached, found⟩ := reaches_of_check _ passed
  obtain ⟨row, found, uploaded⟩ := (Option.any_eq_true _ _).mp found
  have status : row.status = .uploaded := of_decide_eq_true uploaded
  refine ⟨state, row, reached, found, status, ?_⟩
  exact ((upload_outbox reached).1 _ row found).2 (by rw [status]; decide)

end Benri.Service
