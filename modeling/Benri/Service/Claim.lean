import Benri.Service.Outbox
import Benri.Service.Snapshots

namespace Benri.Service

open Benri.Data Benri.Domain Benri.Postgres Benri.Storage Benri.Transcoder Benri.Transition

/-! # The claim

A claim consumes the status it asks for, and no statement brings that status
back once the upload was completed.  So one execution at most gets to process a
video, and every token that is written comes from it.
-/

def Claimed (id : VideoId) (execution : Execution) : Prop :=
  execution.claimed = true ∧ execution.id = id

/-- The status of a row that can no longer be claimed. -/
def Settled (status : VideoStatus) : Prop := status ≠ .pendingUpload ∧ status ≠ .uploaded

theorem Settled.processing : Settled .processing := ⟨by decide, by decide⟩

theorem Settled.processed : Settled .processed := ⟨by decide, by decide⟩

theorem Settled.failed : Settled .failed := ⟨by decide, by decide⟩

variable {stores reached : Stores} {execution next : Execution}

theorem Proceeds.settled {written : List (VideoId × String)} {old row : Video}
    (proceeds : Proceeds written old row) (settled : Settled old.status) : Settled row.status := by
  cases proceeds with
  | same => exact settled
  | claimed uploaded => exact .processing
  | failed stuck => exact .failed
  | token shareToken status processing either recorded =>
      rcases either with rfl | rfl
      · exact .processing
      · exact .processed

/-- No statement makes a row claimable again. -/
theorem RowsEffect.settled {before after : Stores} (effect : RowsEffect before after)
    {id : VideoId} (known : id ∈ before.issued)
    (settled : ∀ row, before.videos.find? id = some row → Settled row.status) :
    ∀ row, after.videos.find? id = some row → Settled row.status := by
  intro row found
  cases effect.descends found with
  | born title format fresh => exact absurd known fresh
  | proceeds old written there tokens proceeds => exact proceeds.settled (settled old there)
  | uploaded old there pending same => exact absurd pending (settled old there).1

theorem RowsEffect.issued_subset {before after : Stores} (effect : RowsEffect before after) :
    before.issued ⊆ after.issued := by
  cases effect with
  | proceeds added rows issued tokens tasks => exact issued
  | born id title format fresh rows issued tokens tasks =>
      rw [issued]
      exact List.subset_append_left _ _
  | uploaded id row there pending rows issued tokens tasks =>
      rw [issued]
      exact List.Subset.refl _

theorem RowsEffect.tokens_subset {before after : Stores} (effect : RowsEffect before after) :
    before.tokens ⊆ after.tokens := by
  cases effect with
  | proceeds written rows issued tokens tasks =>
      rw [tokens]
      exact List.subset_append_left _ _
  | born id title format fresh rows issued tokens tasks =>
      rw [tokens]
      exact List.Subset.refl _
  | uploaded id row there pending rows issued tokens tasks =>
      rw [tokens]
      exact List.Subset.refl _

/-- A claim finds its video uploaded, and leaves it claimed. -/
theorem ExecutionEffect.gains {event : ExecutionEvent}
    (effect : ExecutionEffect stores execution event reached next)
    (coherent : Coherent execution) (claimed : next.claimed = true) :
    execution.claimed = true ∨ ∃ row, stores.videos.find? execution.id = some row ∧
      row.status = .uploaded ∧
      reached.videos = (updateStatusIf stores.videos execution.id .uploaded .processing).1 := by
  cases effect with
  | quiet _ advance => cases advance <;> exact .inl claimed
  | claimed video row _ phase found uploaded answered =>
      have same : video.id = execution.id := (coherent.video video (by rw [phase]; rfl)).1
      rw [same] at found
      exact .inr ⟨row, found, uploaded, by rw [same]⟩
  | published | finalized | cleaned | failed | uploaded => exact .inl claimed

/-- Every token comes from the execution that drew it. -/
theorem ExecutionEffect.writes {event : ExecutionEvent}
    (effect : ExecutionEffect stores execution event reached next)
    (coherent : Coherent execution) :
    reached.tokens = stores.tokens ∨ ∃ shareToken, execution.shareToken = some shareToken ∧
      reached.tokens = stores.tokens ++ [(execution.id, shareToken)] := by
  cases effect with
  | published shareToken row videos publishing drawn found processing updated =>
      exact .inr ⟨shareToken, drawn, rfl⟩
  | finalized shareToken video row videos next phase drawn found processing updated answered =>
      have same : video.id = execution.id := (coherent.video video (by rw [phase]; rfl)).1
      exact .inr ⟨shareToken, drawn, by rw [same]⟩
  | quiet | claimed | cleaned | failed | uploaded => exact .inl rfl

/-! ## One claimant -/

structure Claims (state : State) : Prop where
  settled : ∀ execution ∈ state.executions, execution.claimed = true →
    ∀ row, state.stores.videos.find? execution.id = some row → Settled row.status
  known : ∀ execution ∈ state.executions, execution.claimed = true →
    execution.id ∈ state.stores.issued
  once : ∀ id, AtMostOne (Claimed id) state.executions
  drawn : ∀ id shareToken, (id, shareToken) ∈ state.stores.tokens →
    ∃ execution ∈ state.executions, execution.id = id ∧ execution.shareToken = some shareToken
  written : ∀ id row shareToken, state.stores.videos.find? id = some row →
    row.shareToken = some shareToken → (id, shareToken) ∈ state.stores.tokens

theorem Claims.initial (now : Instant) : Claims (State.initial now) where
  settled _ member := absurd member List.not_mem_nil
  known _ member := absurd member List.not_mem_nil
  once _ := .nil _
  drawn _ _ member := absurd member List.not_mem_nil
  written id row shareToken found := by simp [State.initial, Stores.initial] at found

/-- A row holds a token that was written to it. -/
theorem RowsEffect.written {before after : Stores} (effect : RowsEffect before after)
    (keyed : RowsKeyed before)
    (written : ∀ id row shareToken, before.videos.find? id = some row →
      row.shareToken = some shareToken → (id, shareToken) ∈ before.tokens) :
    ∀ id row shareToken, after.videos.find? id = some row →
      row.shareToken = some shareToken → (id, shareToken) ∈ after.tokens := by
  intro id row shareToken found holds
  have older : ∀ old, before.videos.find? id = some old → old.shareToken = some shareToken →
      (id, shareToken) ∈ after.tokens := fun old there same =>
    effect.tokens_subset (written id old shareToken there same)
  cases effect.descends found with
  | born title format fresh same =>
      subst same
      cases holds
  | proceeds old added there tokens proceeds =>
      cases proceeds with
      | same => exact older row there holds
      | claimed uploaded => exact older old there holds
      | failed stuck => exact older old there holds
      | token new status processing either recorded =>
          cases holds
          rw [← (keyed id old there).1, tokens]
          exact List.mem_append_right _ recorded
  | uploaded old there pending same =>
      subst same
      exact older old there holds

section Step

variable {before after : State} {event : Event}

/-- Who holds a claim keeps what it knows of its row. -/
theorem Claims.kept (claims : Claims before) (rows : RowsEffect before.stores after.stores) :
    ∀ execution ∈ before.executions, execution.claimed = true →
      execution.id ∈ after.stores.issued ∧
        ∀ row, after.stores.videos.find? execution.id = some row → Settled row.status :=
  fun execution member claimed =>
    ⟨rows.issued_subset (claims.known execution member claimed),
      rows.settled (claims.known execution member claimed)
        (claims.settled execution member claimed)⟩

/-- A step that claims leaves the row settled, as the claim before it did. -/
theorem Claims.stepped (claims : Claims before) (outbox : OutboxRows before.stores)
    (rows : RowsEffect before.stores after.stores) {event : ExecutionEvent} {index : Nat}
    {execution next : Execution} (slot : before.executions[index]? = some execution)
    (coherent : Coherent execution)
    (effect : ExecutionEffect before.stores execution event after.stores next)
    (claimed : next.claimed = true) :
    next.id ∈ after.stores.issued ∧
      ∀ row, after.stores.videos.find? next.id = some row → Settled row.status := by
  rw [(effect.extends coherent).id]
  rcases effect.gains coherent claimed with older | ⟨old, there, uploaded, videos⟩
  · exact claims.kept rows execution (List.mem_of_getElem? slot) older
  · refine ⟨rows.issued_subset (outbox.issued execution.id old there), fun row found => ?_⟩
    rw [videos, find?_updateStatusIf, there, Option.map_some, if_pos ⟨rfl, uploaded⟩] at found
    cases found
    exact .processing

/-- A claim that succeeds found no claimant. -/
theorem Claims.once_set (claims : Claims before) {stores : Stores} {event : ExecutionEvent}
    {index : Nat} {execution next : Execution}
    (slot : before.executions[index]? = some execution) (coherent : Coherent execution)
    (effect : ExecutionEffect before.stores execution event stores next) (id : VideoId) :
    AtMostOne (Claimed id) (before.executions.set index next) := by
  refine (claims.once id).set slot ?_
  rintro ⟨claimed, same⟩
  rw [(effect.extends coherent).id] at same
  subst same
  rcases effect.gains coherent claimed with older | ⟨old, there, uploaded, _⟩
  · exact .inl ⟨older, rfl⟩
  · refine .inr fun other inside taken => ?_
    rw [← taken.2] at there
    exact (claims.settled other inside taken.1 old there).2 uploaded

/-- A written token is found with the execution that drew it. -/
theorem Claims.drawn_step (claims : Claims before) (snapshots : Snapshots before)
    (effect : Effect before event after) :
    ∀ id shareToken, (id, shareToken) ∈ after.stores.tokens →
      ∃ execution ∈ after.executions,
        execution.id = id ∧ execution.shareToken = some shareToken := by
  have persists : ∀ id shareToken, (id, shareToken) ∈ before.stores.tokens →
      ∃ execution ∈ after.executions,
        execution.id = id ∧ execution.shareToken = some shareToken := by
    intro id shareToken member
    obtain ⟨execution, inside, same, drawn⟩ := claims.drawn id shareToken member
    obtain ⟨later, present, lasting⟩ := effect.extends snapshots.executions execution inside
    exact ⟨later, present, lasting.id.trans same, lasting.shareToken shareToken drawn⟩
  cases effect.executions with
  | same executions tokens => rwa [tokens]
  | started id executions stores => rwa [stores]
  | stepped index execution next slot effect executions =>
      have coherent := snapshots.executions execution (List.mem_of_getElem? slot)
      intro id shareToken written
      rcases effect.writes coherent with tokens | ⟨drawn, holds, tokens⟩
      · exact persists id shareToken (tokens ▸ written)
      · rw [tokens] at written
        rcases List.mem_append.mp written with older | new
        · exact persists id shareToken older
        · cases List.mem_singleton.mp new
          have lasting := effect.extends coherent
          obtain ⟨bound, _⟩ := List.getElem?_eq_some_iff.mp slot
          rw [executions]
          exact ⟨next, List.mem_set bound next, lasting.id, lasting.shareToken _ holds⟩

theorem Claims.step (claims : Claims before) (outbox : OutboxRows before.stores)
    (snapshots : Snapshots before) (effect : Effect before event after) : Claims after := by
  have rows := effect.rows
  have settled := fun execution member claimed => (claims.kept rows execution member claimed).2
  have known := fun execution member claimed => (claims.kept rows execution member claimed).1
  have drawn := claims.drawn_step snapshots effect
  have written := rows.written snapshots.rows claims.written
  cases effect.executions with
  | same executions tokens =>
      exact ⟨executions ▸ settled, executions ▸ known, executions ▸ claims.once, drawn, written⟩
  | started id executions stores =>
      refine ⟨?_, ?_, ?_, drawn, written⟩ <;> rw [executions]
      · exact forall_mem_snoc settled fun claimed => by cases claimed
      · exact forall_mem_snoc known fun claimed => by cases claimed
      · exact fun wanted => (claims.once wanted).snoc fun claimed => by cases claimed.1
  | stepped index execution next slot effect executions =>
      have coherent := snapshots.executions execution (List.mem_of_getElem? slot)
      have moved := claims.stepped outbox rows slot coherent effect
      refine ⟨?_, ?_, ?_, drawn, written⟩ <;> rw [executions]
      · exact forall_mem_set settled fun claimed => (moved claimed).2
      · exact forall_mem_set known fun claimed => (moved claimed).1
      · exact claims.once_set slot coherent effect

end Step

/-- The tokens of a video are all the same. -/
theorem Claims.token_unique {state : State} (claims : Claims state) (snapshots : Snapshots state)
    {id : VideoId} {first second : String} (firstWritten : (id, first) ∈ state.stores.tokens)
    (secondWritten : (id, second) ∈ state.stores.tokens) : first = second := by
  obtain ⟨left, leftInside, leftId, leftDrew⟩ := claims.drawn id first firstWritten
  obtain ⟨right, rightInside, rightId, rightDrew⟩ := claims.drawn id second secondWritten
  have leftClaimed := (snapshots.executions left leftInside).drawn first leftDrew
  have rightClaimed := (snapshots.executions right rightInside).drawn second rightDrew
  have same : left = right := (claims.once id).eq leftInside rightInside ⟨leftClaimed, leftId⟩
    ⟨rightClaimed, rightId⟩
  rw [same, rightDrew] at leftDrew
  exact (Option.some.inj leftDrew).symm

/-- What holds in every reachable state, whatever the environment does. -/
structure Served (state : State) : Prop where
  outbox : OutboxRows state.stores
  snapshots : Snapshots state
  claims : Claims state

theorem Served.initial (now : Instant) : Served (State.initial now) :=
  ⟨.initial now, .initial now, .initial now⟩

theorem Served.step {before after : State} {event : Event} (served : Served before)
    (effect : Effect before event after) : Served after :=
  ⟨served.outbox.step effect.rows, served.snapshots.step effect,
    served.claims.step served.outbox served.snapshots effect⟩

theorem served_of_reaches {allowed : State → Event → Prop} {start state : State}
    (served : Served start) (reached : Reaches step allowed start state) : Served state :=
  reached.preserves Served served fun before _ stepped => before.step (step_effect stepped)

/-- A row that holds a token has been claimed. -/
theorem Served.settled_of_token {state : State} (served : Served state) {id : VideoId} {row : Video}
    {shareToken : String} (found : state.stores.videos.find? id = some row)
    (holds : row.shareToken = some shareToken) : Settled row.status := by
  have written := served.claims.written id row shareToken found holds
  obtain ⟨execution, member, rfl, drawn⟩ := served.claims.drawn id shareToken written
  have claimed := (served.snapshots.executions execution member).drawn shareToken drawn
  exact served.claims.settled execution member claimed row found

/-! ## The link -/

/-- A video whose link is out: its row, while there is one, holds the token. -/
structure Linked (id : VideoId) (shareToken : String) (stores : Stores) : Prop where
  known : id ∈ stores.issued
  written : (id, shareToken) ∈ stores.tokens
  held : ∀ row, stores.videos.find? id = some row → row.shareToken = some shareToken

theorem Linked.step {id : VideoId} {shareToken : String} {before after : Stores}
    (linked : Linked id shareToken before) (keyed : RowsKeyed before)
    (unique : ∀ other, (id, other) ∈ after.tokens → other = shareToken)
    (effect : RowsEffect before after) : Linked id shareToken after := by
  refine ⟨effect.issued_subset linked.known, effect.tokens_subset linked.written, ?_⟩
  intro row found
  cases effect.descends found with
  | born title format fresh => exact absurd linked.known fresh
  | proceeds old added there tokens proceeds =>
      cases proceeds with
      | same => exact linked.held row there
      | claimed uploaded => exact linked.held old there
      | failed stuck => exact linked.held old there
      | token new status processing either recorded =>
          rw [(keyed id old there).1] at recorded
          refine congrArg some (unique new ?_)
          rw [tokens]
          exact List.mem_append_right _ recorded
  | uploaded old there pending same =>
      subst same
      exact linked.held old there

theorem linked_of_reaches {id : VideoId} {shareToken : String} {start state : State}
    (served : Served start) (linked : Linked id shareToken start.stores)
    (reached : Reaches step Anything start state) : Linked id shareToken state.stores := by
  have both : Served state ∧ Linked id shareToken state.stores := by
    refine reached.preserves (fun state => Served state ∧ Linked id shareToken state.stores)
      ⟨served, linked⟩ ?_
    intro before after event holds _ stepped
    have effect := step_effect stepped
    have later := holds.1.step effect
    have written := effect.rows.tokens_subset holds.2.written
    exact ⟨later, holds.2.step holds.1.snapshots.rows
      (fun other member => later.claims.token_unique later.snapshots member written) effect.rows⟩
  exact both.2

/-- Whether an execution is, or has been, at the transcoder. -/
def Execution.callsTranscoder (execution : Execution) : Bool :=
  match execution.phase with
  | .probe _ | .transcode _ _ | .uploading _ => true
  | _ => execution.upload.isSome

theorem Coherent.claimed_of_callsTranscoder {execution : Execution}
    (coherent : Coherent execution) (calls : execution.callsTranscoder = true) :
    execution.claimed = true := by
  unfold Execution.callsTranscoder at calls
  split at calls
  · rename_i phase
    exact coherent.claimed (by rw [phase]; rfl)
  · rename_i phase
    exact coherent.claimed (by rw [phase]; rfl)
  · rename_i phase
    exact coherent.claimed (by rw [phase]; rfl)
  · obtain ⟨upload, there⟩ := Option.isSome_iff_exists.mp calls
    exact (coherent.uploading upload there).1

/-- A video is claimed by one execution at most, which alone gets to the
transcoder; all its tokens are the same, and its link never changes. -/
theorem processed_once {now : Instant} {state : State}
    (reached : Reaches step Anything (State.initial now) state) :
    (∀ id, AtMostOne (Claimed id) state.executions) ∧
    (∀ execution ∈ state.executions, execution.callsTranscoder = true →
      execution.claimed = true) ∧
    (∀ id first second, (id, first) ∈ state.stores.tokens → (id, second) ∈ state.stores.tokens →
      first = second) ∧
    ∀ later, Reaches step Anything state later → ∀ id row laterRow shareToken,
      state.stores.videos.find? id = some row → row.shareToken = some shareToken →
      later.stores.videos.find? id = some laterRow → laterRow.shareToken = some shareToken := by
  have served := served_of_reaches (.initial now) reached
  refine ⟨served.claims.once, ?_, ?_, ?_⟩
  · intro execution member calls
    exact (served.snapshots.executions execution member).claimed_of_callsTranscoder calls
  · intro id first second
    exact served.claims.token_unique served.snapshots
  · intro later continued id row laterRow shareToken found holds laterFound
    have linked : Linked id shareToken state.stores := by
      refine ⟨served.outbox.issued id row found,
        served.claims.written id row shareToken found holds, fun other there => ?_⟩
      rw [found] at there
      cases there
      exact holds
    exact (linked_of_reaches served linked continued).held laterRow laterFound

/-! ## A processed video -/

/-- The handler of the first execution loads and claims its video. -/
def claimedVideo (id : VideoId) (task : TaskId) : List Event :=
  completedUpload id task ++
    [.startExecution task id, .execution 0 (.call .none), .execution 0 (.call .none)]

def startedTranscode (shareToken : String) : List Event :=
  [.execution 0 (.probed (.ok false) shareToken), .execution 0 (.spawn (.ok "low"))]

/-- A transcode that yields no segment, up to the finalization. -/
def emptyTranscode (shareToken : String) : List Event :=
  startedTranscode shareToken ++
  [.execution 0 (.upload .endPipeline), .execution 0 (.upload .stop),
    .execution 0 (.upload .drain), .execution 0 (.upload (.act .none true)),
    .execution 0 (.upload (.act .none true)), .execution 0 (.join (.ok ())),
    .execution 0 (.publish .none), .execution 0 .joinPublisher]

/-- The rest of a transcode that yields one segment, up to the finalization. -/
def segmentTranscode : List Event :=
  [.execution 0 (.upload (.write .low (.segment 0) ⟨1, fun _ => 0⟩)),
    .execution 0 (.upload .endPipeline), .execution 0 (.upload .stop),
    .execution 0 (.upload .drain), .execution 0 (.upload (.act .none true)),
    .execution 0 (.upload (.act .none true)), .execution 0 (.upload (.act .none true)),
    .execution 0 (.upload (.act .none true)), .execution 0 (.upload (.act .none true)),
    .execution 0 (.upload (.act .none true)), .execution 0 (.join (.ok ())),
    .execution 0 (.publish .none), .execution 0 (.publish .none), .execution 0 .joinPublisher]

def processedVideo (id : VideoId) (task : TaskId) (shareToken : String) : List Event :=
  claimedVideo id task ++ emptyTranscode shareToken ++ [.execution 0 (.call .none)]

/-- A task is delivered twice, and the execution that started first claims the video
between the other's load and its claim. -/
def rivalledVideo (id : VideoId) (task : TaskId) : List Event :=
  completedUpload id task ++
    [.startExecution task id, .startExecution task id, .execution 1 (.call .none),
      .execution 0 (.call .none), .execution 0 (.call .none), .execution 1 (.call .none)]

/-- A transcode up to the token's early publication. -/
def announcedTranscode (shareToken : String) : List Event :=
  startedTranscode shareToken ++
    [.execution 0 (.upload (.write .low (.segment 0) ⟨1, fun _ => 0⟩)),
      .execution 0 (.upload (.write .low (.segment 1) ⟨1, fun _ => 0⟩)),
      .execution 0 (.upload .tick), .execution 0 (.upload (.act .none true)),
      .execution 0 (.upload (.act .none true)), .execution 0 (.upload (.act .none true)),
      .execution 0 (.upload (.act .none true)), .execution 0 (.publish .none),
      .execution 0 (.publish .none)]

/-- Its rest, and the finalization. -/
def finishedTranscode : List Event :=
  List.replicate 2 (.execution 0 (.upload (.act .none true))) ++
    [.execution 0 (.upload .endPipeline), .execution 0 (.upload .stop),
      .execution 0 (.upload .drain)] ++
    List.replicate 4 (.execution 0 (.upload (.act .none true))) ++
    [.execution 0 (.join (.ok ())), .execution 0 .joinPublisher, .execution 0 (.call .none)]

theorem processed_once_rivalledVideo : ∃ state later laterRow,
    Reaches step Anything (State.initial 0) state ∧ Reaches step Anything state later ∧
    state.executions.length = 2 ∧ AtMostOne (Claimed ⟨.ofNat 7⟩) state.executions ∧
    (∃ execution ∈ state.executions, execution.callsTranscoder = true ∧
      execution.claimed = true) ∧
    later.stores.videos.find? ⟨.ofNat 7⟩ = some laterRow ∧ laterRow.status = .processed ∧
    laterRow.shareToken = some "token" := by
  have passed : ((run step Anything (State.initial 0)
      (rivalledVideo ⟨.ofNat 7⟩ ⟨.ofNat 8⟩ ++ announcedTranscode "token")).map fun state =>
        (decide (state.executions.length = 2) &&
          state.executions.any Execution.callsTranscoder) &&
        (((state.stores.videos.find? ⟨.ofNat 7⟩).any fun row =>
          decide (row.shareToken = some "token")) &&
        (run step Anything state finishedTranscode).any fun later =>
          (later.stores.videos.find? ⟨.ofNat 7⟩).any fun row =>
            decide (row.status = .processed))) = some true := by decide +kernel
  obtain ⟨state, reached, passed⟩ := reaches_of_check _ passed
  obtain ⟨rivalled, finished⟩ := Bool.and_eq_true_iff.mp passed
  obtain ⟨two, calling⟩ := Bool.and_eq_true_iff.mp rivalled
  obtain ⟨tokenPassed, laterPassed⟩ := Bool.and_eq_true_iff.mp finished
  obtain ⟨execution, member, calls⟩ := List.any_eq_true.mp calling
  obtain ⟨row, found, holds⟩ := (Option.any_eq_true _ _).mp tokenPassed
  obtain ⟨later, ran, there⟩ := (Option.any_eq_true _ _).mp laterPassed
  obtain ⟨laterRow, laterFound, processed⟩ := (Option.any_eq_true _ _).mp there
  have continued := reaches_of_run _ ran
  obtain ⟨once, claims, _, kept⟩ := processed_once reached
  exact ⟨state, later, laterRow, reached, continued, of_decide_eq_true two, once _,
    ⟨execution, member, calls, claims execution member calls⟩, laterFound,
    of_decide_eq_true processed,
    kept later continued _ row laterRow "token" found (of_decide_eq_true holds) laterFound⟩

end Benri.Service
