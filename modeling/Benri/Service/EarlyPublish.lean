import Benri.Service.Claim
import Benri.Service.Outputs

namespace Benri.Service

open Benri.Data Benri.Domain Benri.Postgres Benri.Storage Benri.Transcoder Benri.Transition

/-! # The early publish

A link goes out while the video is still being processed once the publisher was
signalled, and the signal comes after everything that a viewer needs at first.
Until the video is deleted nobody but its own uploader touches its output, so
what the signal promised stays true.
-/

/-- No `DeleteVideo` execution of the video has been started. -/
def Undeleted (id : VideoId) (state : State) : Prop :=
  ∀ deletion ∈ state.deletions, deletion.id ≠ id

theorem Effect.undeleted {before after : State} {event : Event}
    (effect : Effect before event after) {id : VideoId} (undeleted : Undeleted id after) :
    Undeleted id before := by
  intro deletion member
  cases effect with
  | startDeletion task owner row found named =>
      exact undeleted deletion (List.mem_append_left _ member)
  | deletion index event moving next stores slot effect =>
      have lasting : ∀ old ∈ before.deletions,
          ∃ later ∈ before.deletions.set index ⟨moving.id, next⟩, later.id = old.id :=
        exists_mem_set slot (fun _ => rfl) rfl
      obtain ⟨later, inside, same⟩ := lasting deletion member
      rw [← same]
      exact undeleted later inside
  | advance | unborn | born | original | tasks | startCompletion | completion | startExecution |
    execution | startSweep | sweep => exact undeleted deletion member

/-! ## The uploads -/

variable {stores reached : Stores} {execution next : Execution}

theorem sound_of_same {objects after : Objects} {upload : Upload} {id : VideoId}
    (sound : Sound objects upload) (home : upload.uploader.outputPrefix = storagePrefix id)
    (same : OutputSame id objects after) : Sound after upload := by
  refine sound.of_agree fun path => same _ ?_
  rw [Upload.key, home, under_key]
  exact decide_eq_true rfl

/-- The upload of an execution, if it has one, is sound. -/
def SoundUpload (objects : Objects) (execution : Execution) : Prop :=
  ∀ upload, execution.upload = some upload → Sound objects upload

theorem Advance.sound (advance : Advance stores execution next) {objects : Objects}
    (sound : SoundUpload objects execution) : SoundUpload objects next := by
  intro upload there
  cases advance with
  | spawned video hasAudio raw phase =>
      cases there
      exact .start _ _ _ _
  | joined video result older pipeline phase before =>
      cases there
      exact (sound older before).flags false true pipeline
  | cut =>
      obtain ⟨older, before, rfl⟩ := Option.map_eq_some_iff.mp there
      exact (sound older before).flags false true older.pipeline
  | loaded | ended | probed | failing | unspawned | signalled | silenced | ready | killed =>
      exact sound upload there

theorem ExecutionEffect.sound {event : ExecutionEvent}
    (effect : ExecutionEffect stores execution event reached next) (coherent : Coherent execution)
    (sound : SoundUpload stores.objects execution) : SoundUpload reached.objects next := by
  cases effect with
  | quiet _ advance => exact advance.sound sound
  | cleaned video result phase =>
      intro upload there
      have keyed := coherent.video video (by rw [phase]; rfl)
      exact sound_of_same (sound upload there) (coherent.uploading upload there).2
        (.delete_original _ keyed _)
  | uploaded upload after objects event before stepped =>
      intro _ there
      cases there
      exact (sound upload before).step (uploadStep_effect stepped)
  | claimed video row _ phase found uploaded answered =>
      rcases answered with rfl | ⟨error, rfl⟩
      · exact sound
      · exact sound
  | published | finalized | failed => exact sound

/-- A step that is not the execution's own leaves its output alone. -/
theorem Effect.output_others {before after : State} {event : Event}
    (effect : Effect before event after) (served : Served before) {place : Nat}
    {execution : Execution} {upload : Upload} (slot : before.executions[place]? = some execution)
    (uploading : execution.upload = some upload) (undeleted : Undeleted execution.id before)
    (foreign : ∀ uploadEvent, event ≠ .execution place (.upload uploadEvent)) :
    OutputSame execution.id before.stores.objects after.stores.objects := by
  have claimed : ∀ {index : Nat} {other : Execution} {otherUpload : Upload},
      before.executions[index]? = some other → other.upload = some otherUpload →
        other.claimed = true := fun found there =>
    ((served.snapshots.executions _ (List.mem_of_getElem? found)).uploading _ there).1
  cases effect.output served.snapshots execution.id with
  | same same => exact same
  | uploaded index other otherUpload otherAfter uploadEvent _ found named there stepped =>
      have same := served.claims.once execution.id index place other execution found slot
        ⟨claimed found there, named⟩ ⟨claimed slot uploading, rfl⟩
      subst same
      exact absurd rfl (foreign uploadEvent)
  | deleted index deletion video fault kept _ found named phase objects =>
      exact absurd named (undeleted deletion (List.mem_of_getElem? found))

/-! ## The links -/

structure Announced (state : State) : Prop where
  sound : ∀ execution ∈ state.executions, Undeleted execution.id state →
    SoundUpload state.stores.objects execution
  signalled : ∀ id row, state.stores.videos.find? id = some row → row.status = .processing →
    row.shareToken ≠ none → ∃ execution ∈ state.executions,
      execution.id = id ∧ execution.signalled = true

theorem Announced.initial (now : Instant) : Announced (State.initial now) where
  sound _ member := absurd member List.not_mem_nil
  signalled id row found := by simp [State.initial, Stores.initial] at found

theorem Announced.sound_step {before after : State} {event : Event} (announced : Announced before)
    (served : Served before) (effect : Effect before event after) :
    ∀ execution ∈ after.executions, Undeleted execution.id after →
      SoundUpload after.stores.objects execution := by
  have older : ∀ {place : Nat} {execution : Execution}, before.executions[place]? = some execution →
      (∀ uploadEvent, event ≠ .execution place (.upload uploadEvent)) →
      Undeleted execution.id after → SoundUpload after.stores.objects execution := by
    intro place execution slot foreign undeleted upload there
    have member := List.mem_of_getElem? slot
    have same := effect.output_others served slot there (effect.undeleted undeleted) foreign
    exact sound_of_same (announced.sound execution member (effect.undeleted undeleted) upload there)
      ((served.snapshots.executions execution member).uploading upload there).2 same
  intro execution member undeleted
  cases effect with
  | startExecution task id row found named =>
      rcases List.mem_append.mp member with inside | new
      · obtain ⟨place, slot⟩ := List.mem_iff_getElem?.mp inside
        exact older slot (fun _ same => by cases same) undeleted
      · rw [List.mem_singleton.mp new]
        exact fun upload there => by cases there
  | execution index event moving next stores slot effect =>
      obtain ⟨place, there⟩ := List.mem_iff_getElem?.mp member
      rcases getElem?_set_cases there with ⟨rfl, rfl⟩ | ⟨different, there⟩
      · have inside := List.mem_of_getElem? slot
        have coherent := served.snapshots.executions moving inside
        rw [(effect.extends coherent).id] at undeleted
        exact effect.sound coherent (announced.sound moving inside undeleted)
      · exact older there (fun _ same => by cases same; exact different rfl) undeleted
  | advance | unborn | born | original | tasks | startCompletion | completion | startSweep | sweep |
    startDeletion | deletion =>
      obtain ⟨place, slot⟩ := List.mem_iff_getElem?.mp member
      exact older slot (fun _ same => by cases same) undeleted

/-- Where the token of a row that is being processed was before the step. -/
def HeldBefore (stores : Stores) (id : VideoId) (row : Video) : Prop :=
  ∃ old, stores.videos.find? id = some old ∧ old.shareToken = row.shareToken ∧
    (old.status = .processing ∨ old.status = .uploaded)

theorem RowsEffect.heldBefore {before after : Stores} (effect : RowsEffect before after)
    (tokens : after.tokens = before.tokens) {id : VideoId} {row : Video}
    (found : after.videos.find? id = some row) (processing : row.status = .processing)
    (token : row.shareToken ≠ none) : HeldBefore before id row := by
  cases effect.tokenless tokens found with
  | born pending nothing => exact absurd nothing token
  | same there => exact ⟨row, there, rfl, .inl processing⟩
  | moved old there held unfinished claimed => exact ⟨old, there, held, .inr (claimed processing)⟩

/-- Only the publisher, once signalled, gives a token to a row that goes on being
processed. -/
theorem ExecutionEffect.announces {event : ExecutionEvent}
    (effect : ExecutionEffect stores execution event reached next) (coherent : Coherent execution)
    {id : VideoId} {row : Video} (found : reached.videos.find? id = some row)
    (processing : row.status = .processing) (token : row.shareToken ≠ none) :
    HeldBefore stores id row ∨ execution.id = id ∧ execution.signalled = true := by
  have rows := effect.rows
  cases effect with
  | published shareToken _ videos publishing drawn there _ updated =>
      rw [find?_updateToken updated] at found
      obtain ⟨old, present, rfl⟩ := Option.map_eq_some_iff.mp found
      split at processing
      · rename_i mine
        exact .inr ⟨mine.1.symm, coherent.publishing publishing⟩
      · rename_i other
        rw [if_neg other]
        exact .inl ⟨old, present, rfl, .inl processing⟩
  | finalized shareToken video _ videos phase before drawn there _ updated answered =>
      rw [find?_updateToken updated] at found
      obtain ⟨old, present, rfl⟩ := Option.map_eq_some_iff.mp found
      split at processing
      · cases processing
      · rename_i other
        rw [if_neg other]
        exact .inl ⟨old, present, rfl, .inl processing⟩
  | quiet | claimed | cleaned | failed | uploaded =>
      exact .inl (rows.heldBefore rfl found processing token)

/-- A video that waits for its claim has no token yet. -/
theorem Served.unlinked {state : State} (served : Served state) {id : VideoId} {row : Video}
    (found : state.stores.videos.find? id = some row) (uploaded : row.status = .uploaded) :
    row.shareToken = none := by
  cases holds : row.shareToken with
  | none => rfl
  | some shareToken => exact absurd uploaded (served.settled_of_token found holds).2

theorem Announced.step {before after : State} {event : Event} (announced : Announced before)
    (served : Served before) (effect : Effect before event after) : Announced after := by
  refine ⟨announced.sound_step served effect, fun id row found processing token => ?_⟩
  have older : HeldBefore before.stores id row → ∃ execution ∈ after.executions,
      execution.id = id ∧ execution.signalled = true := by
    rintro ⟨old, there, same, processing | uploaded⟩
    · rw [← same] at token
      obtain ⟨execution, member, named, signalled⟩ :=
        announced.signalled id old there processing token
      obtain ⟨later, inside, lasting⟩ := effect.extends served.snapshots.executions execution member
      exact ⟨later, inside, lasting.id.trans named, lasting.signalled signalled⟩
    · exact absurd (same.symm.trans (served.unlinked there uploaded)) token
  cases effect.executions with
  | same executions tokens => exact older (effect.rows.heldBefore tokens found processing token)
  | started _ executions stores =>
      rw [stores] at found
      exact older ⟨row, found, rfl, .inl processing⟩
  | stepped index execution next slot moved executions =>
      have coherent := served.snapshots.executions execution (List.mem_of_getElem? slot)
      rcases moved.announces coherent found processing token with held | ⟨named, signalled⟩
      · exact older held
      · have lasting := moved.extends coherent
        obtain ⟨bound, _⟩ := List.getElem?_eq_some_iff.mp slot
        rw [executions]
        exact ⟨next, List.mem_set bound next, lasting.id.trans named, lasting.signalled signalled⟩

/-- Whenever a video has a link while it is processed, so that its stream URL is
given out, and nobody has set about deleting it, its output can be watched. -/
theorem early_publish_watchable {now : Instant} {state : State}
    (reached : Reaches step Anything (State.initial now) state) {id : VideoId} {row : Video}
    (found : state.stores.videos.find? id = some row) (processing : row.status = .processing)
    (linked : row.shareToken.isSome = true)
    (undeleted : ∀ deletion ∈ state.deletions, deletion.id ≠ id) :
    (∀ cdnBaseUrl, row.streamUrl cdnBaseUrl =
      some (cdnBaseUrl ++ "/" ++ OutputPath.master.key (storagePrefix id))) ∧
    Watchable state.stores.objects (storagePrefix id) := by
  have both : Served state ∧ Announced state := by
    refine reached.preserves (fun state => Served state ∧ Announced state)
      ⟨.initial now, .initial now⟩ ?_
    intro before after event holds _ stepped
    have effect := step_effect stepped
    exact ⟨holds.1.step effect, holds.2.step holds.1 effect⟩
  obtain ⟨served, announced⟩ := both
  refine ⟨fun cdnBaseUrl => ?_, ?_⟩
  · have streamable : row.isStreamable = true := by
      simp [Video.isStreamable, processing, linked]
    rw [Video.streamUrl, if_pos streamable, Video.storagePrefix,
      (served.snapshots.rows id row found).1, OutputPath.key, String.append_assoc]
    rfl
  obtain ⟨execution, member, rfl, signalled⟩ := announced.signalled id row found processing
    (Option.isSome_iff_ne_none.mp linked)
  obtain ⟨upload, uploading, positive⟩ := (Option.any_eq_true _ _).mp signalled
  have sound := announced.sound execution member undeleted upload uploading
  rw [← ((served.snapshots.executions execution member).uploading upload uploading).2]
  exact sound.watchable (of_decide_eq_true positive)

/-! ## A published segment -/

/-- The first low segment is stored, and the publisher writes the token. -/
def publishedVideo (id : VideoId) (task : TaskId) (shareToken : String) : List Event :=
  claimedVideo id task ++ startedTranscode shareToken ++
    [.execution 0 (.upload (.write .low (.segment 0) ⟨1, fun _ => 0⟩)),
      .execution 0 (.upload (.write .low (.segment 1) ⟨1, fun _ => 0⟩)),
      .execution 0 (.upload .tick), .execution 0 (.upload (.act .none true)),
      .execution 0 (.upload (.act .none true)), .execution 0 (.upload (.act .none true)),
      .execution 0 (.upload (.act .none true)), .execution 0 (.publish .none),
      .execution 0 (.publish .none)]

theorem early_publish_watchable_publishedVideo : ∃ state,
    Reaches step Anything (State.initial 0) state ∧
    Watchable state.stores.objects (storagePrefix ⟨.ofNat 7⟩) := by
  have passed : ((run step Anything (State.initial 0)
      (publishedVideo ⟨.ofNat 7⟩ ⟨.ofNat 8⟩ "token")).map fun state =>
        state.deletions.isEmpty && (state.stores.videos.find? ⟨.ofNat 7⟩).any fun row =>
          decide (row.status = .processing) && row.shareToken.isSome) = some true := by decide
  obtain ⟨state, reached, passed⟩ := reaches_of_check _ passed
  obtain ⟨empty, rowPassed⟩ := Bool.and_eq_true_iff.mp passed
  obtain ⟨row, found, rowHolds⟩ := (Option.any_eq_true _ _).mp rowPassed
  obtain ⟨processing, linked⟩ := Bool.and_eq_true_iff.mp rowHolds
  refine ⟨state, reached, ?_⟩
  refine (early_publish_watchable reached found (of_decide_eq_true processing) linked ?_).2
  rw [List.isEmpty_iff.mp empty]
  exact fun _ member => absurd member List.not_mem_nil

end Benri.Service
