import Benri.Data.Slots
import Benri.Service.Rows

namespace Benri.Service

open Benri.Data Benri.Domain Benri.Postgres Benri.Storage Benri.Transcoder Benri.Transition

/-! # What the components remember

A handler works from the row that it read once.  The id and the upload key of a
row never change, so what a handler remembers of them stays right; and how far
it has come says which of its other parts there are.
-/

/-- A row as `initiate_upload` made it, as far as its keys go. -/
def Keyed (id : VideoId) (video : Video) : Prop :=
  video.id = id ∧ video.uploadKey = originalKey id video.format

def RowsKeyed (stores : Stores) : Prop :=
  ∀ id row, stores.videos.find? id = some row → Keyed id row

theorem Proceeds.keyed {written : List (VideoId × String)} {id : VideoId} {old row : Video}
    (proceeds : Proceeds written old row) (keyed : Keyed id old) : Keyed id row := by
  cases proceeds <;> exact keyed

theorem RowsKeyed.initial (now : Instant) : RowsKeyed (Stores.initial now) := by
  intro id row found
  simp [Stores.initial] at found

theorem RowsKeyed.step {before after : Stores} (keyed : RowsKeyed before)
    (effect : RowsEffect before after) : RowsKeyed after := by
  intro wanted row found
  cases effect.descends found with
  | born title format fresh same =>
      subst same
      exact ⟨rfl, rfl⟩
  | proceeds old written there tokens proceeds => exact proceeds.keyed (keyed wanted old there)
  | uploaded old there pending same =>
      subst same
      exact keyed wanted old there

/-! ## Executions -/

def ExecutionPhase.video? : ExecutionPhase → Option Video
  | .claim video | .probe video | .transcode video _ | .uploading video
  | .joinPublisher video _ | .finalize video | .cleanupOriginal video | .fail video => some video
  | .loadVideo | .returned _ | .cut => none

/-- The phases that only a successful claim leads to. -/
def ExecutionPhase.pastClaim : ExecutionPhase → Bool
  | .probe _ | .transcode _ _ | .uploading _ | .joinPublisher _ _ | .finalize _
  | .cleanupOriginal _ | .fail _ => true
  | .loadVideo | .claim _ | .returned _ | .cut => false

def ExecutionPhase.beforeToken : ExecutionPhase → Bool
  | .loadVideo | .claim _ | .probe _ => true
  | _ => false

def ExecutionPhase.beforeUpload : ExecutionPhase → Bool
  | .loadVideo | .claim _ | .probe _ | .transcode _ _ => true
  | _ => false

theorem ExecutionPhase.beforeUpload_of_beforeToken {phase : ExecutionPhase}
    (early : phase.beforeToken = true) : phase.beforeUpload = true := by
  cases phase <;> first | rfl | cases early

structure Coherent (execution : Execution) : Prop where
  video : ∀ video, execution.phase.video? = some video → Keyed execution.id video
  claimed : execution.phase.pastClaim = true → execution.claimed = true
  drawn : ∀ shareToken, execution.shareToken = some shareToken → execution.claimed = true
  undrawn : execution.phase.beforeToken = true → execution.shareToken = none
  uploading : ∀ upload, execution.upload = some upload → execution.claimed = true ∧
    upload.uploader.outputPrefix = storagePrefix execution.id
  unspawned : execution.phase.beforeUpload = true → execution.upload = none
  publishing : execution.publisher = .publishing → execution.signalled = true

theorem Coherent.start (id : VideoId) : Coherent (.start id) where
  video _ same := by cases same
  claimed same := by cases same
  drawn _ same := by cases same
  undrawn _ := rfl
  uploading _ same := by cases same
  unspawned _ := rfl
  publishing same := by cases same

variable {stores reached : Stores} {execution next : Execution}

/-- The handler moves on, and the rest stays as it is. -/
theorem Coherent.withPhase (coherent : Coherent execution) (phase : ExecutionPhase)
    (video : ∀ video, phase.video? = some video → Keyed execution.id video)
    (claimed : phase.pastClaim = true → execution.claimed = true)
    (token : phase.beforeToken = true → execution.phase.beforeToken = true)
    (upload : phase.beforeUpload = true → execution.phase.beforeUpload = true) :
    Coherent { execution with phase } where
  video := video
  claimed := claimed
  drawn := coherent.drawn
  undrawn early := coherent.undrawn (token early)
  uploading := coherent.uploading
  unspawned early := coherent.unspawned (upload early)
  publishing := coherent.publishing

/-- From one phase past the claim to another, neither of them early. -/
theorem Coherent.moved (coherent : Coherent execution) {phase : ExecutionPhase} (video : Video)
    (before : execution.phase.video? = some video ∧ execution.phase.pastClaim = true)
    (after : phase.video? = some video ∧ phase.beforeUpload = false) :
    Coherent { execution with phase } := by
  refine coherent.withPhase phase ?_ (fun _ => coherent.claimed before.2) ?_ ?_
  · rw [after.1, ← before.1]
    exact coherent.video
  · intro early
    rw [ExecutionPhase.beforeUpload_of_beforeToken early] at after
    cases after.2
  · rw [after.2]
    exact fun early => by cases early

theorem Coherent.ended (coherent : Coherent execution) (result : Except ProcessVideoError Unit) :
    Coherent { execution with phase := .returned result } :=
  coherent.withPhase _ (fun _ same => by cases same) (fun past => by cases past)
    (fun early => by cases early) (fun early => by cases early)

theorem Coherent.stopped (coherent : Coherent execution) :
    Coherent { execution with phase := .cut } :=
  coherent.withPhase _ (fun _ same => by cases same) (fun past => by cases past)
    (fun early => by cases early) (fun early => by cases early)

/-- An upload keeps what it has to do with its execution. -/
theorem Coherent.withUpload (coherent : Coherent execution) {upload after : Upload}
    (before : execution.upload = some upload)
    (outputPrefix : after.uploader.outputPrefix = upload.uploader.outputPrefix)
    (signals : upload.signals ≤ after.signals) :
    Coherent { execution with upload := some after } where
  video := coherent.video
  claimed := coherent.claimed
  drawn := coherent.drawn
  undrawn := coherent.undrawn
  uploading _ same := by
    cases same
    obtain ⟨claimed, home⟩ := coherent.uploading upload before
    exact ⟨claimed, outputPrefix.trans home⟩
  unspawned early := by
    have none := coherent.unspawned early
    rw [before] at none
    cases none
  publishing publishing := by
    have signalled := coherent.publishing publishing
    simp only [Execution.signalled, before, Option.any_some, decide_eq_true_eq] at signalled ⊢
    exact Nat.lt_of_lt_of_le signalled signals

theorem Advance.coherent (advance : Advance stores execution next) (coherent : Coherent execution)
    (keyed : RowsKeyed stores) : Coherent next := by
  cases advance with
  | loaded video phase found =>
      refine coherent.withPhase (.claim video) ?_ (fun past => by cases past) ?_ ?_
      · intro other same
        cases same
        exact keyed execution.id video found
      · exact fun _ => by rw [phase]; rfl
      · exact fun _ => by rw [phase]; rfl
  | ended result => exact coherent.ended result
  | probed video hasAudio shareToken phase =>
      have claimed := coherent.claimed (by rw [phase]; rfl)
      have unspawned := coherent.unspawned (by rw [phase]; rfl)
      have keyed := coherent.video video (by rw [phase]; rfl)
      exact {
        video := fun other same => by cases same; exact keyed
        claimed := fun _ => claimed
        drawn := fun _ _ => claimed
        undrawn := fun early => by cases early
        uploading := coherent.uploading
        unspawned := fun _ => unspawned
        publishing := fun same => by cases same }
  | failing video phase =>
      refine coherent.moved video ?_ ⟨rfl, rfl⟩
      rcases phase with phase | ⟨result, phase⟩ | phase <;> rw [phase] <;> exact ⟨rfl, rfl⟩
  | unspawned video hasAudio result phase =>
      refine coherent.moved video ?_ ⟨rfl, rfl⟩
      rw [phase]
      exact ⟨rfl, rfl⟩
  | spawned video hasAudio raw phase =>
      have claimed := coherent.claimed (by rw [phase]; rfl)
      have keyed := coherent.video video (by rw [phase]; rfl)
      exact {
        video := fun other same => by cases same; exact keyed
        claimed := fun _ => claimed
        drawn := coherent.drawn
        undrawn := fun early => by cases early
        uploading := fun upload same => by
          cases same
          exact ⟨claimed, congrArg storagePrefix keyed.1⟩
        unspawned := fun early => by cases early
        publishing := fun publishing => by
          have signalled := coherent.publishing publishing
          rw [Execution.signalled, coherent.unspawned (by rw [phase]; rfl)] at signalled
          cases signalled }
  | joined video result upload pipeline phase before =>
      have moved : Coherent { execution with phase := .joinPublisher video result } := by
        refine coherent.moved video ?_ ⟨rfl, rfl⟩
        rw [phase]
        exact ⟨rfl, rfl⟩
      exact moved.withUpload before rfl (Nat.le_refl _)
  | signalled waiting signal =>
      exact ⟨coherent.video, coherent.claimed, coherent.drawn, coherent.undrawn,
        coherent.uploading, coherent.unspawned, fun _ => signal⟩
  | silenced =>
      exact ⟨coherent.video, coherent.claimed, coherent.drawn, coherent.undrawn,
        coherent.uploading, coherent.unspawned, fun same => by cases same⟩
  | ready video phase =>
      refine coherent.moved video ?_ ⟨rfl, rfl⟩
      rw [phase]
      exact ⟨rfl, rfl⟩
  | cut =>
      cases before : execution.upload with
      | none =>
          have same : execution.upload = execution.upload.map Upload.abandon := by rw [before]; rfl
          rw [← before, ← same]
          exact coherent.stopped
      | some upload => exact coherent.stopped.withUpload before rfl (Nat.le_refl _)
  | killed =>
      have stopped := coherent.stopped
      exact ⟨stopped.video, stopped.claimed, stopped.drawn, stopped.undrawn, stopped.uploading,
        stopped.unspawned, stopped.publishing⟩

theorem ExecutionEffect.coherent {event : ExecutionEvent}
    (effect : ExecutionEffect stores execution event reached next)
    (coherent : Coherent execution) (keyed : RowsKeyed stores) : Coherent next := by
  cases effect with
  | quiet _ advance => exact advance.coherent coherent keyed
  | claimed video row _ phase found uploaded answered =>
      rcases answered with rfl | ⟨error, rfl⟩
      · have unspawned := coherent.unspawned (by rw [phase]; rfl)
        exact {
          video := fun other same => by
            cases same
            exact coherent.video video (by rw [phase]; rfl)
          claimed := fun _ => rfl
          drawn := fun _ _ => rfl
          undrawn := fun _ => coherent.undrawn (by rw [phase]; rfl)
          uploading := fun upload before => absurd before (by rw [unspawned]; exact nofun)
          unspawned := fun _ => unspawned
          publishing := coherent.publishing }
      · exact coherent.ended _
  | published shareToken row videos publishing drawn found processing updated =>
      exact ⟨coherent.video, coherent.claimed, coherent.drawn, coherent.undrawn,
        coherent.uploading, coherent.unspawned, fun same => by cases same⟩
  | finalized shareToken video row videos phase before drawn found processing updated answered =>
      refine coherent.moved video (by rw [before]; exact ⟨rfl, rfl⟩) ?_
      rcases answered with rfl | rfl <;> exact ⟨rfl, rfl⟩
  | cleaned video result phase => exact coherent.ended _
  | failed video seed tasks result phase change => exact coherent.ended _
  | uploaded upload after objects event before stepped =>
      have effect := uploadStep_effect stepped
      exact coherent.withUpload before effect.outputPrefix effect.signals_le

/-- What an execution has come to, it keeps. -/
structure Extends (before after : Execution) : Prop where
  id : after.id = before.id
  claimed : before.claimed = true → after.claimed = true
  shareToken : ∀ shareToken, before.shareToken = some shareToken →
    after.shareToken = some shareToken
  signalled : before.signalled = true → after.signalled = true

theorem Extends.refl (execution : Execution) : Extends execution execution :=
  ⟨rfl, fun claimed => claimed, fun _ drawn => drawn, fun signalled => signalled⟩

theorem Extends.same_upload {before after : Execution} (id : after.id = before.id)
    (claimed : after.claimed = before.claimed) (shareToken : after.shareToken = before.shareToken)
    (upload : after.upload = before.upload) : Extends before after :=
  ⟨id, fun holds => claimed.trans holds, fun _ drawn => shareToken.trans drawn, fun holds => by
    rw [Execution.signalled, upload]
    exact holds⟩

theorem Extends.of_upload {before after : Execution} {upload uploadAfter : Upload}
    (id : after.id = before.id) (claimed : after.claimed = before.claimed)
    (shareToken : after.shareToken = before.shareToken)
    (old : before.upload = some upload) (new : after.upload = some uploadAfter)
    (signals : upload.signals ≤ uploadAfter.signals) : Extends before after :=
  ⟨id, fun holds => claimed.trans holds, fun _ drawn => shareToken.trans drawn, fun holds => by
    simp only [Execution.signalled, old, new, Option.any_some, decide_eq_true_eq] at holds ⊢
    exact Nat.lt_of_lt_of_le holds signals⟩

theorem Advance.extends (advance : Advance stores execution next)
    (coherent : Coherent execution) : Extends execution next := by
  cases advance with
  | probed video hasAudio shareToken phase =>
      have undrawn := coherent.undrawn (by rw [phase]; rfl)
      refine ⟨rfl, id, fun _ drawn => ?_, id⟩
      rw [undrawn] at drawn
      cases drawn
  | spawned video hasAudio raw phase =>
      have unspawned := coherent.unspawned (by rw [phase]; rfl)
      refine ⟨rfl, id, fun _ drawn => drawn, fun holds => ?_⟩
      rw [Execution.signalled, unspawned] at holds
      cases holds
  | joined video result upload pipeline phase before =>
      exact .of_upload rfl rfl rfl before rfl (Nat.le_refl _)
  | cut =>
      cases before : execution.upload with
      | none => exact .same_upload rfl rfl rfl before.symm
      | some upload => exact .of_upload rfl rfl rfl before rfl (Nat.le_refl _)
  | loaded | ended | failing | unspawned | signalled | silenced | ready | killed =>
      exact .same_upload rfl rfl rfl rfl

theorem ExecutionEffect.extends {event : ExecutionEvent}
    (effect : ExecutionEffect stores execution event reached next)
    (coherent : Coherent execution) : Extends execution next := by
  cases effect with
  | quiet _ advance => exact advance.extends coherent
  | claimed video row _ phase found uploaded answered =>
      rcases answered with rfl | ⟨error, rfl⟩
      · exact ⟨rfl, fun _ => rfl, fun _ drawn => drawn, id⟩
      · exact .same_upload rfl rfl rfl rfl
  | uploaded upload after objects event before stepped =>
      exact .of_upload rfl rfl rfl before rfl (uploadStep_effect stepped).signals_le
  | published | finalized | cleaned | failed => exact .same_upload rfl rfl rfl rfl

/-! ## Every component -/

/-- What a step does to the executions. -/
inductive ExecutionsEffect (before after : State) : Prop where
  | same (executions : after.executions = before.executions)
      (tokens : after.stores.tokens = before.stores.tokens)
  | started (id : VideoId) (executions : after.executions = before.executions ++ [.start id])
      (stores : after.stores = before.stores)
  | stepped (index : Nat) (execution next : Execution)
      (slot : before.executions[index]? = some execution)
      {event : ExecutionEvent}
      (effect : ExecutionEffect before.stores execution event after.stores next)
      (executions : after.executions = before.executions.set index next)

theorem Effect.executions {before after : State} {event : Event}
    (effect : Effect before event after) : ExecutionsEffect before after := by
  cases effect with
  | startExecution task id row found named => exact .started id rfl rfl
  | execution index event execution next stores slot effect =>
      exact .stepped index execution next slot effect rfl
  | completion index event completion stores next slot effect =>
      refine .same rfl ?_
      cases effect <;> rfl
  | sweep index event phase next stores slot effect =>
      refine .same rfl ?_
      cases effect <;> rfl
  | deletion index event deletion next stores slot effect =>
      refine .same rfl ?_
      cases effect <;> rfl
  | advance | unborn | born | original | tasks | startCompletion | startSweep | startDeletion =>
      exact .same rfl rfl

/-- Once started, an execution is there for good, with what it has come to. -/
theorem Effect.extends {before after : State} {event : Event} (effect : Effect before event after)
    (coherent : ∀ execution ∈ before.executions, Coherent execution) :
    ∀ execution ∈ before.executions, ∃ later ∈ after.executions, Extends execution later := by
  intro execution member
  cases effect.executions with
  | same executions tokens =>
      rw [executions]
      exact ⟨execution, member, .refl execution⟩
  | started id executions stores =>
      rw [executions]
      exact ⟨execution, List.mem_append_left _ member, .refl execution⟩
  | stepped index moving next slot effect executions =>
      rw [executions]
      have lasting := effect.extends (coherent moving (List.mem_of_getElem? slot))
      exact exists_mem_set slot Extends.refl lasting execution member

/-- What every component remembers is right. -/
structure Snapshots (state : State) : Prop where
  rows : RowsKeyed state.stores
  executions : ∀ execution ∈ state.executions, Coherent execution
  deletions : ∀ deletion ∈ state.deletions, ∀ video,
    deletion.phase.video? = some video → Keyed deletion.id video

theorem Snapshots.initial (now : Instant) : Snapshots (State.initial now) :=
  ⟨.initial now, fun _ member => absurd member List.not_mem_nil,
    fun _ member => absurd member List.not_mem_nil⟩

theorem DeletionEffect.keyed {deletion : Deletion} {event : DeletionEvent} {phase : DeletionPhase}
    (effect : DeletionEffect stores deletion event reached phase) (rows : RowsKeyed stores)
    (keyed : ∀ video, deletion.phase.video? = some video → Keyed deletion.id video) :
    ∀ video, phase.video? = some video → Keyed deletion.id video := by
  intro video same
  cases effect with
  | found other _ found =>
      cases same
      exact rows deletion.id video found
  | ended _ none =>
      rw [none] at same
      cases same
  | prefixed other kept _ before answered =>
      rcases answered with ⟨_, rfl⟩ | none
      · cases same
        exact keyed video (by rw [before]; rfl)
      · rw [none] at same
        cases same
  | objectDeleted other _ before answered =>
      rcases answered with rfl | none
      · cases same
        exact keyed video (by rw [before]; rfl)
      · rw [none] at same
        cases same
  | rowDeleted other _ before none =>
      rw [none] at same
      cases same

theorem Snapshots.step {before after : State} {event : Event} (snapshots : Snapshots before)
    (effect : Effect before event after) : Snapshots after := by
  refine ⟨snapshots.rows.step effect.rows, ?_, ?_⟩
  · cases effect.executions with
    | same executions tokens =>
        rw [executions]
        exact snapshots.executions
    | started id executions stores =>
        rw [executions]
        exact forall_mem_snoc snapshots.executions (.start id)
    | stepped index execution next slot effect executions =>
        have coherent := snapshots.executions execution (List.mem_of_getElem? slot)
        rw [executions]
        exact forall_mem_set snapshots.executions (effect.coherent coherent snapshots.rows)
  · cases effect with
    | startDeletion task id row found named =>
        exact forall_mem_snoc snapshots.deletions fun _ same => by cases same
    | deletion index event deletion next stores slot effect =>
        have keyed := snapshots.deletions deletion (List.mem_of_getElem? slot)
        exact forall_mem_set snapshots.deletions (effect.keyed snapshots.rows keyed)
    | advance | unborn | born | original | tasks | startCompletion | completion | startExecution |
      execution | startSweep | sweep => exact snapshots.deletions

end Benri.Service
