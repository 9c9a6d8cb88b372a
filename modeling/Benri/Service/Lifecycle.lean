import Benri.Service.Claim

namespace Benri.Service

open Benri.Data Benri.Domain Benri.Postgres Benri.Storage Benri.Transition

/-! # The life of a row

A row is born waiting for its upload, goes from one status to the next along a
few edges, and ends processed or failed, until it is removed.  Its share token
comes with the processing, stays from then on, and is its own.
-/

/-- One status next, in the life of a video. -/
inductive Moves : VideoStatus → VideoStatus → Prop where
  | uploaded : Moves .pendingUpload .uploaded
  | claimed : Moves .uploaded .processing
  | processed : Moves .processing .processed
  | abandoned : Moves .uploaded .failed
  | failed : Moves .processing .failed

/-- The statuses that nothing leads out of. -/
def Ended (status : VideoStatus) : Prop := status = .processed ∨ status = .failed

theorem Moves.not_ended {status next : VideoStatus} (moves : Moves status next) :
    ¬ Ended status := by
  rintro (same | same) <;> subst same <;> cases moves

theorem Proceeds.moves {written : List (VideoId × String)} {old row : Video}
    (proceeds : Proceeds written old row) :
    row.status = old.status ∨ Moves old.status row.status := by
  cases proceeds with
  | same => exact .inl rfl
  | claimed uploaded => exact .inr (uploaded ▸ .claimed)
  | failed stuck =>
      rcases stuck with uploaded | processing
      · exact .inr (uploaded ▸ .abandoned)
      · exact .inr (processing ▸ .failed)
  | token shareToken status processing settled recorded =>
      rcases settled with rfl | rfl
      · exact .inl processing.symm
      · exact .inr (processing ▸ .processed)

variable {before after : Stores}

theorem RowsEffect.moves (effect : RowsEffect before after) {id : VideoId} {old row : Video}
    (there : before.videos.find? id = some old) (known : id ∈ before.issued)
    (found : after.videos.find? id = some row) :
    row.status = old.status ∨ Moves old.status row.status := by
  cases effect.descends found with
  | born title format fresh => exact absurd known fresh
  | proceeds source written present tokens proceeds =>
      rw [there] at present
      cases present
      exact proceeds.moves
  | uploaded source present pending same =>
      rw [there] at present
      cases present
      subst same
      exact .inr (pending ▸ .uploaded)

/-- A row that was not there before the step is a new one. -/
theorem RowsEffect.appeared (effect : RowsEffect before after) {id : VideoId} {row : Video}
    (absent : before.videos.find? id = none) (found : after.videos.find? id = some row) :
    id ∉ before.issued ∧ row.status = .pendingUpload ∧ row.shareToken = none := by
  cases effect.descends found with
  | born title format fresh same =>
      subst same
      exact ⟨fresh, rfl, rfl⟩
  | proceeds source written present tokens proceeds =>
      rw [absent] at present
      cases present
  | uploaded source present pending same =>
      rw [absent] at present
      cases present

/-! ## What never changes back -/

/-- A video whose row was removed. -/
structure Removed (id : VideoId) (stores : Stores) : Prop where
  known : id ∈ stores.issued
  absent : stores.videos.find? id = none

theorem Removed.step {id : VideoId} (removed : Removed id before)
    (effect : RowsEffect before after) : Removed id after := by
  refine ⟨effect.issued_subset removed.known, ?_⟩
  cases found : after.videos.find? id with
  | none => rfl
  | some row => exact absurd removed.known (effect.appeared removed.absent found).1

theorem Removed.of_reaches {id : VideoId} {start state : State} {allowed : State → Event → Prop}
    (removed : Removed id start.stores) (reached : Reaches Service.step allowed start state) :
    Removed id state.stores :=
  reached.preserves (fun state => Removed id state.stores) removed
    fun removed _ stepped => removed.step (step_effect stepped).rows

/-- A video whose row, while there is one, has the one status for good. -/
structure Rests (id : VideoId) (status : VideoStatus) (stores : Stores) : Prop where
  ended : Ended status
  known : id ∈ stores.issued
  held : ∀ row, stores.videos.find? id = some row → row.status = status

theorem Rests.step {id : VideoId} {status : VideoStatus} (rests : Rests id status before)
    (effect : RowsEffect before after) : Rests id status after := by
  refine ⟨rests.ended, effect.issued_subset rests.known, fun row found => ?_⟩
  cases there : before.videos.find? id with
  | none => exact absurd rests.known (effect.appeared there found).1
  | some old =>
      have held := rests.held old there
      rcases effect.moves there rests.known found with same | moves
      · exact same.trans held
      · rw [held] at moves
        exact absurd rests.ended moves.not_ended

theorem Rests.of_reaches {id : VideoId} {status : VideoStatus} {start state : State}
    {allowed : State → Event → Prop} (rests : Rests id status start.stores)
    (reached : Reaches Service.step allowed start state) : Rests id status state.stores :=
  reached.preserves (fun state => Rests id status state.stores) rests
    fun rests _ stepped => rests.step (step_effect stepped).rows

/-! ## Tokens -/

/-- A step that writes no token leaves every token where it was. -/
theorem RowsEffect.token_kept (effect : RowsEffect before after)
    (tokens : after.tokens = before.tokens) {id : VideoId} {row : Video} {shareToken : String}
    (found : after.videos.find? id = some row) (holds : row.shareToken = some shareToken) :
    ∃ old, before.videos.find? id = some old ∧ old.shareToken = some shareToken := by
  cases effect.tokenless tokens found with
  | born pending token =>
      rw [token] at holds
      cases holds
  | same there => exact ⟨row, there, holds⟩
  | moved old there token => exact ⟨old, there, token.trans holds⟩

/-- A step writes no token, or it is one of the two token statements. -/
theorem Effect.tokenStatement {before after : State} {event : Event}
    (effect : Effect before event after) :
    after.stores.tokens = before.stores.tokens ∨ ∃ id shareToken status,
      updateToken before.stores.videos id shareToken status =
        some (after.stores.videos, true) := by
  cases effect.executions with
  | same executions tokens => exact .inl tokens
  | started id executions stores => exact .inl (by rw [stores])
  | stepped index execution next slot effect executions =>
      generalize after.stores = reached at effect
      cases effect with
      | published shareToken row videos publishing drawn found processing updated =>
          exact .inr ⟨_, shareToken, _, updated⟩
      | finalized shareToken video row videos next phase drawn found processing updated answered =>
          exact .inr ⟨_, shareToken, _, updated⟩
      | quiet | claimed | cleaned | failed | uploaded => exact .inl rfl

/-- `UNIQUE (share_token)`. -/
def TokensUnique (videos : VideoTable) : Prop :=
  ∀ left right leftRow rightRow shareToken,
    videos.find? left = some leftRow → leftRow.shareToken = some shareToken →
    videos.find? right = some rightRow → rightRow.shareToken = some shareToken → left = right

theorem not_taken_of_updateToken {videos reached : VideoTable} {id : VideoId} {shareToken : String}
    {status : VideoStatus} (updated : updateToken videos id shareToken status = some (reached, true))
    {other : VideoId} {row : Video} (found : videos.find? other = some row)
    (holds : row.shareToken = some shareToken) : other = id := by
  simp only [updateToken] at updated
  split at updated
  · contradiction
  · rename_i free
    have touched := (Prod.mk.inj (Option.some.inj updated)).2
    rw [touched, Bool.true_and, Bool.not_eq_true] at free
    have keyed : row.id = other := Table.key_of_find? found
    have apart := List.any_eq_false.mp free row (Table.mem_of_find? found)
    by_contra different
    simp [keyed, different, holds] at apart

theorem TokensUnique.updateToken {videos reached : VideoTable} {id : VideoId} {shareToken : String}
    {status : VideoStatus} (unique : TokensUnique videos)
    (updated : Postgres.updateToken videos id shareToken status = some (reached, true)) :
    TokensUnique reached := by
  -- A token of a row afterwards is its old one, or the new one of the row written to.
  have source : ∀ wanted row token, reached.find? wanted = some row → row.shareToken = some token →
      (∃ old, videos.find? wanted = some old ∧ old.shareToken = some token) ∨
        wanted = id ∧ token = shareToken := by
    intro wanted row token found holds
    rw [find?_updateToken updated] at found
    obtain ⟨old, there, rfl⟩ := Option.map_eq_some_iff.mp found
    split at holds
    · rename_i mine
      cases holds
      exact .inr ⟨mine.1, rfl⟩
    · exact .inl ⟨old, there, holds⟩
  intro left right leftRow rightRow token leftFound leftHolds rightFound rightHolds
  rcases source left leftRow token leftFound leftHolds with
    ⟨leftOld, leftThere, leftHeld⟩ | ⟨rfl, rfl⟩
  · rcases source right rightRow token rightFound rightHolds with
      ⟨rightOld, rightThere, rightHeld⟩ | ⟨rfl, rfl⟩
    · exact unique left right leftOld rightOld token leftThere leftHeld rightThere rightHeld
    · exact not_taken_of_updateToken updated leftThere leftHeld
  · rcases source right rightRow token rightFound rightHolds with
      ⟨rightOld, rightThere, rightHeld⟩ | ⟨rfl, _⟩
    · exact (not_taken_of_updateToken updated rightThere rightHeld).symm
    · rfl

/-- What the tokens of the rows have to do with their statuses. -/
structure Tokens (stores : Stores) : Prop where
  unique : TokensUnique stores.videos
  processed : ∀ id row, stores.videos.find? id = some row → row.status = .processed →
    row.shareToken.isSome = true

theorem Tokens.initial (now : Instant) : Tokens (Stores.initial now) where
  unique left right leftRow rightRow shareToken found := by simp [Stores.initial] at found
  processed id row found := by simp [Stores.initial] at found

theorem RowsEffect.processed_linked (effect : RowsEffect before after)
    (linked : ∀ id row, before.videos.find? id = some row → row.status = .processed →
      row.shareToken.isSome = true) :
    ∀ id row, after.videos.find? id = some row → row.status = .processed →
      row.shareToken.isSome = true := by
  intro id row found processed
  cases effect.descends found with
  | born title format fresh same =>
      subst same
      cases processed
  | proceeds old written there tokens proceeds =>
      cases proceeds with
      | same => exact linked id row there processed
      | claimed uploaded => cases processed
      | failed stuck => cases processed
      | token shareToken status processing settled recorded => rfl
  | uploaded old there pending same =>
      subst same
      cases processed

theorem Tokens.step {before after : State} {event : Event} (tokens : Tokens before.stores)
    (effect : Effect before event after) : Tokens after.stores := by
  refine ⟨?_, effect.rows.processed_linked tokens.processed⟩
  rcases effect.tokenStatement with same | ⟨id, shareToken, status, updated⟩
  · intro left right leftRow rightRow shareToken leftFound leftHolds rightFound rightHolds
    obtain ⟨leftOld, leftThere, leftHeld⟩ := effect.rows.token_kept same leftFound leftHolds
    obtain ⟨rightOld, rightThere, rightHeld⟩ := effect.rows.token_kept same rightFound rightHolds
    exact tokens.unique left right leftOld rightOld shareToken leftThere leftHeld rightThere
      rightHeld
  · exact tokens.unique.updateToken updated

theorem tokens_of_reaches {now : Instant} {state : State} {allowed : State → Event → Prop}
    (reached : Reaches step allowed (State.initial now) state) : Tokens state.stores :=
  reached.preserves (fun state => Tokens state.stores) (.initial now)
    fun tokens _ stepped => tokens.step (step_effect stepped)

/-! ## The whole life -/

/-- A step takes a row along an edge of its life at most; an ended row stays as it
is until it is removed, and a removed one never comes back; and in every reachable
state the token of a row goes with its status and belongs to it alone. -/
theorem video_lifecycle {now : Instant} {state : State}
    (reached : Reaches step Anything (State.initial now) state) :
    (∀ event after, step state event = some after → ∀ id row,
      after.stores.videos.find? id = some row →
      match state.stores.videos.find? id with
      | none => row.status = .pendingUpload
      | some old => row.status = old.status ∨ Moves old.status row.status) ∧
    (∀ id row, state.stores.videos.find? id = some row → Ended row.status →
      ∀ later, Reaches step Anything state later → ∀ laterRow,
      later.stores.videos.find? id = some laterRow → laterRow.status = row.status) ∧
    (∀ id row, state.stores.videos.find? id = some row →
      ∀ middle, Reaches step Anything state middle → middle.stores.videos.find? id = none →
      ∀ later, Reaches step Anything middle later → later.stores.videos.find? id = none) ∧
    (∀ id row, state.stores.videos.find? id = some row →
      (row.status = .pendingUpload ∨ row.status = .uploaded → row.shareToken = none) ∧
      (row.status = .processed → row.shareToken.isSome = true)) ∧
    TokensUnique state.stores.videos := by
  have served := served_of_reaches (.initial now) reached
  have tokens := tokens_of_reaches reached
  refine ⟨?_, ?_, ?_, ?_, tokens.unique⟩
  · intro event after stepped id row found
    have effect := (step_effect stepped).rows
    cases there : state.stores.videos.find? id with
    | none => exact (effect.appeared there found).2.1
    | some old => exact effect.moves there (served.outbox.issued id old there) found
  · intro id row found ended later continued laterRow laterFound
    have rests : Rests id row.status state.stores :=
      ⟨ended, served.outbox.issued id row found, fun other there => by
        rw [found] at there
        cases there
        rfl⟩
    exact (rests.of_reaches continued).held laterRow laterFound
  · intro id row found middle continued absent later further
    have known : id ∈ middle.stores.issued :=
      continued.preserves (fun state => id ∈ state.stores.issued)
        (served.outbox.issued id row found)
        fun known _ stepped => (step_effect stepped).rows.issued_subset known
    exact (Removed.of_reaches ⟨known, absent⟩ further).absent
  · intro id row found
    refine ⟨fun early => ?_, tokens.processed id row found⟩
    cases holds : row.shareToken with
    | none => rfl
    | some shareToken =>
        have settled := served.settled_of_token found holds
        rcases early with pending | uploaded
        · exact absurd pending settled.1
        · exact absurd uploaded settled.2

theorem video_lifecycle_processedVideo : ∃ state row,
    Reaches step Anything (State.initial 0) state ∧
    state.stores.videos.find? ⟨.ofNat 7⟩ = some row ∧ row.shareToken.isSome = true ∧
    ∀ later, Reaches step Anything state later → ∀ laterRow,
      later.stores.videos.find? ⟨.ofNat 7⟩ = some laterRow → laterRow.status = .processed := by
  have passed : ((run step Anything (State.initial 0)
      (processedVideo ⟨.ofNat 7⟩ ⟨.ofNat 8⟩ "token")).map fun state =>
        (state.stores.videos.find? ⟨.ofNat 7⟩).any fun row =>
          decide (row.status = .processed)) = some true := by decide
  obtain ⟨state, reached, passed⟩ := reaches_of_check _ passed
  obtain ⟨row, found, processed⟩ := (Option.any_eq_true _ _).mp passed
  have processed := of_decide_eq_true processed
  obtain ⟨_, ended, _, tokens, _⟩ := video_lifecycle reached
  refine ⟨state, row, reached, found, (tokens _ row found).2 processed, ?_⟩
  intro later continued laterRow laterFound
  exact (ended _ row found (.inl processed) later continued laterRow laterFound).trans processed

end Benri.Service
