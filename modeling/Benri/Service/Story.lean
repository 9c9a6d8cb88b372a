import Benri.Data.Slots
import Benri.Service.FailureDecision

namespace Benri.Service

open Benri.Data Benri.Domain Benri.Postgres Benri.Storage Benri.Transcoder Benri.Transition

/-! # What an execution did

The statements of an execution that matter for its outcome, and the results it
acts on, come in few orders.
-/

inductive Deed where
  | probed (succeeded : Bool)
  | published
  | transcoded (succeeded : Bool)
  | marked (answer : Except String Bool)
  | failed (discarded : Bool)
  | cleaned

/-- What `mark_processed` answers. -/
def markAnswer (stores : Stores) (fault : Fault) (execution : Execution) (video : Video) :
    Option (Except String Bool) :=
  execution.shareToken.map fun shareToken =>
    (writeToken stores fault video.id shareToken
      (Postgres.markProcessed stores.videos video.id shareToken)).2

def deed (stores : Stores) (execution : Execution) (event : ExecutionEvent) : Option Deed :=
  match event, execution.phase with
  | .probed result _, _ => some (.probed result.isOk)
  | .joinPublisher, .joinPublisher _ result => some (.transcoded result.isOk)
  | .call fault, .finalize video => (markAnswer stores fault execution video).map .marked
  | .call _, .cleanupOriginal _ => some .cleaned
  | .fail fault seed, .fail _ => some (.failed (failureDiscarded stores fault seed))
  | .publish _, _ => if execution.publisher = .publishing then some .published else none
  | _, _ => none

/-- The publisher's one statement, if it got to make it. -/
def publication (made : Bool) : List Deed := if made then [.published] else []

/-- The deeds that lead to the failure transaction. -/
inductive Failure : List Deed → Prop where
  | probe : Failure [.probed false]
  | transcode (made : Bool) : Failure (.probed true :: publication made ++ [.transcoded false])
  | mark (made : Bool) (error : String) :
      Failure (.probed true :: publication made ++ [.transcoded true, .marked (.error error)])

/-- The deeds of an execution that claimed and returned. -/
inductive Ending : List Deed → Prop where
  | processed (made : Bool) : Ending (.probed true :: publication made ++
      [.transcoded true, .marked (.ok true), .cleaned])
  | lost (made : Bool) :
      Ending (.probed true :: publication made ++ [.transcoded true, .marked (.ok false)])
  | failed (deeds : List Deed) (failure : Failure deeds) (discarded : Bool) :
      Ending (deeds ++ [.failed discarded])

def ExecutionPhase.transcodes : ExecutionPhase → Bool
  | .transcode _ _ | .uploading _ | .joinPublisher _ _ => true
  | _ => false

/-- The publisher makes no statement any more. -/
def PublisherPhase.over : PublisherPhase → Bool
  | .absent | .done => true
  | .waiting | .publishing => false

/-- The deeds of an execution, by how far it has come.  Nothing is said of one
that was cut. -/
inductive Story : ExecutionPhase → Bool → PublisherPhase → List Deed → Prop where
  | loading : Story .loadVideo false .absent []
  | claiming (video : Video) : Story (.claim video) false .absent []
  | turnedAway (result : Except ProcessVideoError Unit) : Story (.returned result) false .absent []
  | probing (video : Video) : Story (.probe video) true .absent []
  | transcoding (phase : ExecutionPhase) (publisher : PublisherPhase) (made : Bool)
      (transcodes : phase.transcodes = true) (once : made = true → publisher = .done) :
      Story phase true publisher (.probed true :: publication made)
  | finalizing (video : Video) (made : Bool) : Story (.finalize video) true .done
      (.probed true :: publication made ++ [.transcoded true])
  | cleaning (video : Video) (made : Bool) : Story (.cleanupOriginal video) true .done
      (.probed true :: publication made ++ [.transcoded true, .marked (.ok true)])
  | failing (video : Video) (publisher : PublisherPhase) (deeds : List Deed)
      (closed : publisher.over = true) (failure : Failure deeds) :
      Story (.fail video) true publisher deeds
  | returned (result : Except ProcessVideoError Unit) (publisher : PublisherPhase)
      (deeds : List Deed) (closed : publisher.over = true) (ending : Ending deeds) :
      Story (.returned result) true publisher deeds
  | cut (claimed : Bool) (publisher : PublisherPhase) (deeds : List Deed) :
      Story .cut claimed publisher deeds

def Execution.Tells (execution : Execution) (deeds : List Deed) : Prop :=
  Story execution.phase execution.claimed execution.publisher deeds

variable {stores reached : Stores} {execution next : Execution} {deeds : List Deed}

/-! ## The story in a given phase -/

theorem Execution.Tells.of_phase {phase : ExecutionPhase} (tells : execution.Tells deeds)
    (same : execution.phase = phase) : Story phase execution.claimed execution.publisher deeds :=
  same ▸ tells

section Phases

variable {video : Video} {claimed : Bool} {publisher : PublisherPhase}

theorem Story.loading_inv (story : Story .loadVideo claimed publisher deeds) :
    claimed = false ∧ publisher = .absent ∧ deeds = [] := by
  cases story with
  | loading => exact ⟨rfl, rfl, rfl⟩
  | transcoding _ _ _ transcodes => cases transcodes

theorem Story.claiming_inv (story : Story (.claim video) claimed publisher deeds) :
    claimed = false ∧ publisher = .absent ∧ deeds = [] := by
  cases story with
  | claiming => exact ⟨rfl, rfl, rfl⟩
  | transcoding _ _ _ transcodes => cases transcodes

theorem Story.probing_inv (story : Story (.probe video) claimed publisher deeds) :
    claimed = true ∧ publisher = .absent ∧ deeds = [] := by
  cases story with
  | probing => exact ⟨rfl, rfl, rfl⟩
  | transcoding _ _ _ transcodes => cases transcodes

theorem Story.transcoding_inv {phase : ExecutionPhase} (transcodes : phase.transcodes = true)
    (story : Story phase claimed publisher deeds) :
    claimed = true ∧ ∃ made, deeds = .probed true :: publication made ∧
      (made = true → publisher = .done) := by
  cases story with
  | transcoding _ _ made _ once => exact ⟨rfl, made, rfl, once⟩
  | _ => cases transcodes

theorem Story.finalizing_inv (story : Story (.finalize video) claimed publisher deeds) :
    claimed = true ∧ publisher = .done ∧
      ∃ made, deeds = .probed true :: publication made ++ [.transcoded true] := by
  cases story with
  | finalizing _ made => exact ⟨rfl, rfl, made, rfl⟩
  | transcoding _ _ _ transcodes => cases transcodes

theorem Story.cleaning_inv (story : Story (.cleanupOriginal video) claimed publisher deeds) :
    claimed = true ∧ publisher = .done ∧
      ∃ made, deeds = .probed true :: publication made ++
        [.transcoded true, .marked (.ok true)] := by
  cases story with
  | cleaning _ made => exact ⟨rfl, rfl, made, rfl⟩
  | transcoding _ _ _ transcodes => cases transcodes

theorem Story.failing_inv (story : Story (.fail video) claimed publisher deeds) :
    claimed = true ∧ publisher.over = true ∧ Failure deeds := by
  cases story with
  | failing _ _ _ closed failure => exact ⟨rfl, closed, failure⟩
  | transcoding _ _ _ transcodes => cases transcodes

end Phases

/-! ## The steps -/

/-- From one phase of the transcode to another. -/
theorem transcode_tells {phase : ExecutionPhase} {upload : Option Upload}
    (tells : execution.Tells deeds) (before : execution.phase.transcodes = true)
    (after : phase.transcodes = true) :
    { execution with phase, upload }.Tells deeds := by
  obtain ⟨id, _, claimed, shareToken, publisher, _, alive⟩ := execution
  obtain ⟨rfl, made, rfl, once⟩ := Story.transcoding_inv before tells
  exact .transcoding phase publisher made after once

/-- The handler waits for the publisher before it goes on, so a publisher that
takes a step does so during the transcode, or after a cut. -/
theorem Execution.Tells.publishes (tells : execution.Tells deeds)
    (going : execution.publisher.over = false) :
    execution.phase = .cut ∨
      execution.phase.transcodes = true ∧ execution.claimed = true ∧ deeds = [.probed true] := by
  obtain ⟨id, phase, claimed, shareToken, publisher, upload, alive⟩ := execution
  cases tells with
  | cut => exact .inl rfl
  | transcoding _ _ made transcodes once =>
      cases made with
      | false => exact .inr ⟨transcodes, rfl, rfl⟩
      | true =>
          rw [show publisher = .done from once rfl] at going
          cases going
  | failing _ _ _ closed failure | returned _ _ _ closed ending =>
      rw [closed] at going
      cases going
  | loading | claiming | turnedAway | probing | finalizing | cleaning => cases going

/-- A publisher that goes on without a statement. -/
theorem publisher_tells {publisher : PublisherPhase} (tells : execution.Tells deeds)
    (waiting : execution.publisher = .waiting) : { execution with publisher }.Tells deeds := by
  have going := tells.publishes (by rw [waiting]; rfl)
  obtain ⟨id, phase, claimed, shareToken, _, upload, alive⟩ := execution
  rcases going with same | ⟨transcodes, same, rfl⟩
  · cases same
    exact .cut _ _ _
  · cases same
    exact .transcoding phase publisher false transcodes fun made => by cases made

theorem published_tells (tells : execution.Tells deeds)
    (publishing : execution.publisher = .publishing) :
    { execution with publisher := .done }.Tells (deeds ++ [Deed.published]) := by
  have going := tells.publishes (by rw [publishing]; rfl)
  obtain ⟨id, phase, claimed, shareToken, _, upload, alive⟩ := execution
  rcases going with same | ⟨transcodes, same, rfl⟩
  · cases same
    exact .cut _ _ _
  · cases same
    exact .transcoding phase .done true transcodes fun _ => rfl

/-- What the mark's answer leads to. -/
theorem finalized_tells {fault : Fault} {video : Video} {shareToken : String}
    (tells : execution.Tells deeds) (phase : execution.phase = .finalize video)
    (drawn : execution.shareToken = some shareToken) :
    { execution with phase := (finalizeExecution stores fault video shareToken).2 }.Tells
      (deeds ++ ((markAnswer stores fault execution video).map Deed.marked).toList) := by
  obtain ⟨id, _, claimed, _, publisher, upload, alive⟩ := execution
  cases phase
  cases drawn
  obtain ⟨rfl, rfl, made, rfl⟩ := tells.finalizing_inv
  simp only [Execution.Tells, finalizeExecution, markAnswer, Option.map_some, Option.toList_some]
  rcases written : writeToken stores fault video.id shareToken
    (Postgres.markProcessed stores.videos video.id shareToken) with ⟨after, error | touched⟩
  · exact .failing video .done _ rfl (by simpa using Failure.mark made error)
  · cases touched with
    | true => simpa using Story.cleaning video made
    | false => exact .returned _ .done _ rfl (by simpa using Ending.lost made)

/-- A step of an execution adds its deed to the story. -/
theorem executionStep_tells {event : ExecutionEvent} (tells : execution.Tells deeds)
    (stepped : executionStep stores execution event = some (reached, next)) :
    next.Tells (deeds ++ (deed stores execution event).toList) := by
  cases executionStep_turn stepped with
  | loaded video phase =>
      obtain ⟨claimed, publisher, rfl⟩ := (tells.of_phase phase).loading_inv
      simpa [Execution.Tells, deed, phase, claimed, publisher] using Story.claiming video
  | unloaded error phase =>
      obtain ⟨claimed, publisher, rfl⟩ := (tells.of_phase phase).loading_inv
      simpa [Execution.Tells, deed, phase, claimed, publisher] using Story.turnedAway (.error error)
  | claimed video reached phase =>
      obtain ⟨_, publisher, rfl⟩ := (tells.of_phase phase).claiming_inv
      simpa [Execution.Tells, deed, phase, publisher] using Story.probing video
  | unclaimed video reached phase =>
      obtain ⟨claimed, publisher, rfl⟩ := (tells.of_phase phase).claiming_inv
      simpa [Execution.Tells, deed, phase, claimed, publisher] using Story.turnedAway (.ok ())
  | claimFailed video reached error phase =>
      obtain ⟨claimed, publisher, rfl⟩ := (tells.of_phase phase).claiming_inv
      simpa [Execution.Tells, deed, phase, claimed, publisher] using
        Story.turnedAway (.error (.internal error))
  | unprobed video error shareToken phase =>
      obtain ⟨claimed, publisher, rfl⟩ := (tells.of_phase phase).probing_inv
      show Story (.fail video) execution.claimed execution.publisher [.probed false]
      rw [claimed, publisher]
      exact .failing video .absent _ rfl .probe
  | probed video hasAudio shareToken phase =>
      obtain ⟨claimed, _, rfl⟩ := (tells.of_phase phase).probing_inv
      show Story (.transcode video hasAudio) execution.claimed .waiting [.probed true]
      rw [claimed]
      exact .transcoding _ .waiting false rfl fun made => by cases made
  | unspawned video hasAudio message phase =>
      simpa [deed] using transcode_tells tells (by rw [phase]; rfl) rfl
  | spawned video hasAudio raw phase =>
      simpa [deed] using transcode_tells tells (by rw [phase]; rfl) rfl
  | panicked video upload message phase =>
      simpa [deed] using transcode_tells tells (by rw [phase]; rfl) rfl
  | joined video upload result answer phase =>
      simpa [deed] using transcode_tells tells (by rw [phase]; rfl) rfl
  | uploaded => simpa [Execution.Tells, deed] using tells
  | signalled waiting => simpa [deed, waiting] using publisher_tells tells waiting
  | silenced waiting => simpa [deed, waiting] using publisher_tells tells waiting
  | published shareToken publishing =>
      simpa [deed, publishing] using published_tells tells publishing
  | untranscoded video error phase published =>
      obtain ⟨claimed, made, rfl, _⟩ := (tells.of_phase phase).transcoding_inv rfl
      simpa [Execution.Tells, deed, phase, claimed, published, Except.isOk, Except.toBool] using
        Story.failing video .done _ rfl (.transcode made)
  | transcoded video phase published =>
      obtain ⟨claimed, made, rfl, _⟩ := (tells.of_phase phase).transcoding_inv rfl
      simpa [Execution.Tells, deed, phase, claimed, published, Except.isOk, Except.toBool] using
        Story.finalizing video made
  | finalized video shareToken phase drawn =>
      simpa only [deed, phase] using finalized_tells tells phase drawn
  | cleaned video phase =>
      obtain ⟨claimed, publisher, made, rfl⟩ := (tells.of_phase phase).cleaning_inv
      simpa [Execution.Tells, deed, phase, claimed, publisher] using
        Story.returned (.ok ()) .done _ rfl (.processed made)
  | failed fault seed video phase =>
      obtain ⟨claimed, closed, failure⟩ := (tells.of_phase phase).failing_inv
      simpa [Execution.Tells, deed, phase, claimed] using
        Story.returned (.ok ()) execution.publisher _ closed (.failed _ failure _)
  | cut | killed => exact .cut _ _ _

/-! ## Reading the ending -/

theorem Failure.unfailed {discarded : Bool} (failure : Failure deeds) :
    .failed discarded ∉ deeds := by
  intro member
  cases failure with
  | probe => simp at member
  | transcode made | mark made error => cases made <;> simp [publication] at member

/-- A mark that is answered comes after both successes, and instead of the failure. -/
theorem Ending.answered {touched : Bool} (ending : Ending deeds)
    (marked : .marked (.ok touched) ∈ deeds) :
    .probed true ∈ deeds ∧ .transcoded true ∈ deeds ∧
      ∀ discarded, .failed discarded ∉ deeds := by
  cases ending with
  | processed made | lost made => cases made <;> simp [publication]
  | failed front failure discarded =>
      cases failure with
      | probe => simp at marked
      | transcode made | mark made error => cases made <;> simp [publication] at marked

/-- An error leads to the failure transaction. -/
theorem Ending.errs (ending : Ending deeds) (error : .probed false ∈ deeds ∨
      .transcoded false ∈ deeds ∨ ∃ error, .marked (.error error) ∈ deeds) :
    ∃ discarded, .failed discarded ∈ deeds := by
  cases ending with
  | processed made | lost made => cases made <;> simp [publication] at error
  | failed front failure discarded => exact ⟨discarded, by simp⟩

/-- There is one failure transaction at most. -/
theorem Ending.failed_once {discarded : Bool} {before after : List Deed} (ending : Ending deeds)
    (split : deeds = before ++ .failed discarded :: after) :
    ∀ other, .failed other ∉ before ++ after := by
  have member : .failed discarded ∈ deeds := by simp [split]
  cases ending with
  | processed made | lost made => cases made <;> simp [publication] at member
  | failed front failure last =>
      obtain ⟨middle, rfl, rest⟩ := append_eq_append_cons split failure.unfailed
      cases middle with
      | nil =>
          obtain ⟨_, rfl⟩ := List.cons.inj rest
          intro other inside
          simp only [List.append_nil] at inside
          exact failure.unfailed inside
      | cons head middle => simp at rest

/-- One way or the other the row is dealt with, unless the failure transaction failed. -/
theorem Ending.deals (ending : Ending deeds) :
    (∃ touched, .marked (.ok touched) ∈ deeds) ∨ ∃ discarded, .failed discarded ∈ deeds := by
  cases ending with
  | processed made => exact .inl ⟨true, by simp⟩
  | lost made => exact .inl ⟨false, by simp⟩
  | failed front failure discarded => exact .inr ⟨discarded, by simp⟩

/-- The original is deleted after the mark that was answered with `true`. -/
theorem Ending.cleaned {before after : List Deed} (ending : Ending deeds)
    (split : deeds = before ++ .cleaned :: after) : .marked (.ok true) ∈ before := by
  have member : .cleaned ∈ deeds := by simp [split]
  cases ending with
  | processed made =>
      have absent : .cleaned ∉ .probed true :: publication made ++
          [.transcoded true, .marked (.ok true)] := by
        cases made <;> simp [publication]
      have parted : (.probed true :: publication made ++ [.transcoded true, .marked (.ok true)]) ++
          [.cleaned] = before ++ .cleaned :: after := by
        simpa using split
      obtain ⟨middle, rfl, _⟩ := append_eq_append_cons parted absent
      simp
  | lost made => cases made <;> simp [publication] at member
  | failed front failure discarded =>
      cases failure with
      | probe => simp at member
      | transcode made | mark made error => cases made <;> simp [publication] at member

/-- What writes the final status is the last deed, or the last but the cleanup. -/
theorem Ending.terminal {before after : List Deed} {deed : Deed} (ending : Ending deeds)
    (terminal : deed = .marked (.ok true) ∨ deed = .failed false)
    (split : deeds = before ++ deed :: after) : ∀ later ∈ after, later = .cleaned := by
  have member : deed ∈ deeds := by simp [split]
  cases ending with
  | processed made =>
      rcases terminal with rfl | rfl
      · have absent : .marked (.ok true) ∉ .probed true :: publication made ++
            [.transcoded true] := by
          cases made <;> simp [publication]
        have parted : (.probed true :: publication made ++ [.transcoded true]) ++
            [.marked (.ok true), .cleaned] = before ++ .marked (.ok true) :: after := by
          simpa using split
        obtain ⟨middle, _, rest⟩ := append_eq_append_cons parted absent
        intro later inside
        cases middle with
        | nil =>
            obtain ⟨_, rfl⟩ := List.cons.inj rest
            exact List.mem_singleton.mp inside
        | cons head middle => cases middle <;> simp at rest
      · cases made <;> simp [publication] at member
  | lost made =>
      rcases terminal with rfl | rfl <;> cases made <;> simp [publication] at member
  | failed front failure discarded =>
      rcases terminal with rfl | rfl
      · exact absurd (by simp) ((Ending.failed front failure discarded).answered member |>.2.2
          discarded)
      · obtain ⟨middle, _, rest⟩ := append_eq_append_cons split failure.unfailed
        intro later inside
        cases middle with
        | nil =>
            obtain ⟨_, rfl⟩ := List.cons.inj rest
            cases inside
        | cons head middle => simp at rest

end Benri.Service
