import Benri.Service.Guards
import Benri.Service.Lifecycle
import Benri.Service.Retention

namespace Benri.Service

open Benri.Data Benri.Domain Benri.Postgres Benri.Storage Benri.Transition

/-! # Acceptance and rejection

A rejected upload leaves its row as it is, and an accepted one may still be read
by calls that came before, so what a later or an overlapping call decides hangs
on what the client stores in the meantime.
-/

/-- A guard has turned the upload down. -/
def CompletionPhase.rejects : CompletionPhase → Bool
  | .reject _ _
  | .returned (.error .fileTooLarge) | .returned (.error .invalidFileSignature) => true
  | _ => false

def CompletionPhase.accepts : CompletionPhase → Bool
  | .returned (.ok _) => true
  | _ => false

/-- Both guards have let the upload through. -/
def CompletionPhase.passed : CompletionPhase → Bool
  | .transition _ => true
  | _ => false

/-- A guard is still to come. -/
def CompletionPhase.judges : CompletionPhase → Bool
  | .headObject _ | .readRange _ => true
  | _ => false

def CompletionPhase.measured : CompletionPhase → Bool
  | .readRange _ => true
  | _ => false

/-- Whether some call on the video is in such a phase. -/
def someCall (state : State) (id : VideoId) (property : CompletionPhase → Bool) : Bool :=
  state.completions.any fun completion => decide (completion.id = id) && property completion.phase

def isPending (stores : Stores) (id : VideoId) : Bool :=
  (stores.videos.find? id).any fun row => decide (row.status = .pendingUpload)

def isRejected (state : State) (id : VideoId) : Bool := someCall state id CompletionPhase.rejects

/-- Some call has returned `Ok`, or goes on to the update that finds the row pending. -/
def isAccepted (state : State) (id : VideoId) : Bool :=
  someCall state id CompletionPhase.accepts ||
    (someCall state id CompletionPhase.passed && isPending state.stores id)

/-- Some call is between its row read and its last guard, or can still get there. -/
def isJudged (state : State) (id : VideoId) : Bool :=
  someCall state id CompletionPhase.judges || isPending state.stores id

/-- Some call is between its size check and its signature check, and may yet be the
one that is accepted. -/
def isMeasured (state : State) (id : VideoId) : Bool :=
  someCall state id CompletionPhase.measured && isPending state.stores id

/-- No content that a guard would turn down replaces one that was accepted while it
can still be judged; none that both guards let through replaces one that was
rejected while the row is pending; and none that only the size check would turn
down gets between the two checks of a call. -/
def steady (state : State) : Event → Bool
  | .putOriginal id format _ body =>
      !(isAccepted state id && isJudged state id && rejectable format body) &&
      !(isRejected state id && isPending state.stores id && acceptable format body) &&
      !(isMeasured state id && tooLarge body && decide (signed format body = some true))
  | _ => true

def Steady (state : State) (event : Event) : Prop := steady state event = true

instance (state : State) (event : Event) : Decidable (Steady state event) :=
  inferInstanceAs (Decidable (_ = true))

variable {before after : State} {event : Event} {id : VideoId} {format : VideoFormat}

theorem Steady.put {contentType : String} {body : Body}
    (permitted : Steady before (.putOriginal id format contentType body)) :
    (isAccepted before id = true → isJudged before id = true → rejectable format body = false) ∧
    (isRejected before id = true → isPending before.stores id = true →
      acceptable format body = false) ∧
    (isMeasured before id = true → tooLarge body = true → signed format body ≠ some true) := by
  simp only [Steady, steady, Bool.and_eq_true] at permitted
  obtain ⟨⟨first, second⟩, third⟩ := permitted
  refine ⟨fun accepted judged => ?_, fun rejected pending => ?_, fun measured large => ?_⟩
  · simpa [accepted, judged] using first
  · simpa [rejected, pending] using second
  · simpa [measured, large] using third

/-! ## The calls on one video -/

theorem someCall_iff {state : State} {property : CompletionPhase → Bool} :
    someCall state id property = true ↔
      ∃ completion ∈ state.completions, completion.id = id ∧ property completion.phase = true := by
  simp [someCall]

theorem someCall_of_mem {state : State} {completion : Completion}
    {property : CompletionPhase → Bool} (member : completion ∈ state.completions)
    (holds : property completion.phase = true) :
    someCall state completion.id property = true :=
  someCall_iff.mpr ⟨completion, member, rfl, holds⟩

/-- A call in some phase was in it before, unless it is the one that has moved there. -/
theorem someCall_set {index : Nat} {completion : Completion} {next : CompletionPhase}
    {property : CompletionPhase → Bool}
    (completions : after.completions = before.completions.set index ⟨completion.id, next⟩)
    (holds : someCall after id property = true) :
    someCall before id property = true ∨ completion.id = id ∧ property next = true := by
  obtain ⟨other, member, named, holds⟩ := someCall_iff.mp holds
  rw [completions] at member
  rcases List.mem_or_eq_of_mem_set member with older | rfl
  · exact .inl (someCall_iff.mpr ⟨other, older, named, holds⟩)
  · exact .inr ⟨named, holds⟩

theorem isPending_iff {stores : Stores} :
    isPending stores id = true ↔
      ∃ row, stores.videos.find? id = some row ∧ row.status = .pendingUpload := by
  simp [isPending, Option.any_eq_true]

/-- No row gets back to `PENDING_UPLOAD`. -/
theorem RowsEffect.isPending {before after : Stores} (effect : RowsEffect before after)
    (known : id ∈ before.issued) (pending : Service.isPending after id = true) :
    Service.isPending before id = true := by
  obtain ⟨row, found, status⟩ := isPending_iff.mp pending
  cases there : before.videos.find? id with
  | none => exact absurd known (effect.appeared there found).1
  | some old =>
      refine isPending_iff.mpr ⟨old, there, ?_⟩
      rcases effect.moves there known found with same | moves
      · exact same ▸ status
      · rw [status] at moves
        generalize old.status = earlier at moves
        cases moves

/-! ## One verdict -/

/-- What the calls on one video have come to, and the content that bears it out. -/
structure Judged (id : VideoId) (format : VideoFormat) (state : State) : Prop where
  declares : Declares id format state
  apart : isAccepted state id = true → isRejected state id = false
  accepted : isAccepted state id = true → isJudged state id = true →
    ∀ body, original state.stores.objects id format = some body → rejectable format body = false
  rejected : isRejected state id = true → isPending state.stores id = true →
    ∀ body, original state.stores.objects id format = some body → acceptable format body = false
  measured : isMeasured state id = true →
    ∀ body, original state.stores.objects id format = some body →
      tooLarge body = true → signed format body ≠ some true

/-- A call that gets through keeps the verdict when no other call was rejected and the
content is one that no guard turns down; a call that is rejected, when none was
accepted and the content is one that some guard turns down. -/
theorem Judged.advance (judged : Judged id format before) (declares : Declares id format after)
    (content : OriginalEffect id format before.stores.objects event after.stores.objects)
    (steady : Steady before event)
    (pending : isPending after.stores id = true → isPending before.stores id = true)
    (judgeable : isJudged after id = true → isJudged before id = true)
    (accepted : isAccepted after id = true → isAccepted before id = true ∨
      isRejected after id = false ∧ ∀ body, original after.stores.objects id format = some body →
        rejectable format body = false)
    (rejected : isRejected after id = true → isRejected before id = true ∨
      isAccepted after id = false ∧ ∀ body, original after.stores.objects id format = some body →
        acceptable format body = false)
    (measured : isMeasured after id = true → isMeasured before id = true ∨
      ∀ body, original after.stores.objects id format = some body → tooLarge body = false) :
    Judged id format after := by
  refine ⟨declares, fun new => ?_, fun new judges => ?_, fun new waits => ?_, fun new => ?_⟩
  · rcases accepted new with older | ⟨none, _⟩
    · cases refused : isRejected after id with
      | false => rfl
      | true =>
          rcases rejected refused with both | ⟨none, _⟩
          · rw [judged.apart older] at both
            cases both
          · rw [new] at none
            cases none
    · exact none
  · rcases accepted new with older | ⟨_, fits⟩
    · refine content.kept (judged.accepted older (judgeable judges)) ?_
      rintro contentType body rfl
      exact steady.put.1 older (judgeable judges)
    · exact fits
  · rcases rejected new with older | ⟨_, fits⟩
    · refine content.kept (judged.rejected older (pending waits)) ?_
      rintro contentType body rfl
      exact steady.put.2.1 older (pending waits)
    · exact fits
  · rcases measured new with older | small
    · refine content.kept (judged.measured older) ?_
      rintro contentType body rfl
      exact steady.put.2.2 older
    · intro body there large
      rw [small body there] at large
      cases large

/-- The predicates on the calls, by the predicates on their phases. -/
theorem isAccepted_iff {state : State} :
    isAccepted state id = true ↔ someCall state id CompletionPhase.accepts = true ∨
      someCall state id CompletionPhase.passed = true ∧ isPending state.stores id = true := by
  simp [isAccepted]

theorem isJudged_iff {state : State} :
    isJudged state id = true ↔ someCall state id CompletionPhase.judges = true ∨
      isPending state.stores id = true := by
  simp [isJudged]

theorem isMeasured_iff {state : State} :
    isMeasured state id = true ↔ someCall state id CompletionPhase.measured = true ∧
      isPending state.stores id = true := by
  simp [isMeasured]

/-- A step after which no call on the video is in a phase that none was in before. -/
theorem Judged.of_calls (judged : Judged id format before) (declares : Declares id format after)
    (content : OriginalEffect id format before.stores.objects event after.stores.objects)
    (steady : Steady before event)
    (pending : isPending after.stores id = true → isPending before.stores id = true)
    (calls : ∀ property : CompletionPhase → Bool, property .findById = false →
      someCall after id property = true → someCall before id property = true) :
    Judged id format after := by
  refine judged.advance declares content steady pending ?_ ?_ ?_ ?_
  · intro judges
    rcases isJudged_iff.mp judges with there | waits
    · exact isJudged_iff.mpr (.inl (calls _ rfl there))
    · exact isJudged_iff.mpr (.inr (pending waits))
  · intro accepted
    rcases isAccepted_iff.mp accepted with there | ⟨there, waits⟩
    · exact .inl (isAccepted_iff.mpr (.inl (calls _ rfl there)))
    · exact .inl (isAccepted_iff.mpr (.inr ⟨calls _ rfl there, pending waits⟩))
  · exact fun rejected => .inl (calls _ rfl rejected)
  · intro measured
    obtain ⟨there, waits⟩ := isMeasured_iff.mp measured
    exact .inl (isMeasured_iff.mpr ⟨calls _ rfl there, pending waits⟩)

section Call

variable {index : Nat} {completion : Completion} {next : CompletionPhase}

theorem someCall_blank {property : CompletionPhase → Bool}
    (completions : after.completions = before.completions.set index ⟨completion.id, next⟩)
    (blank : property next = false) (holds : someCall after id property = true) :
    someCall before id property = true := by
  rcases someCall_set completions holds with older | ⟨_, new⟩
  · exact older
  · rw [blank] at new
    cases new

theorem isAccepted_blank
    (completions : after.completions = before.completions.set index ⟨completion.id, next⟩)
    (pending : isPending after.stores id = true → isPending before.stores id = true)
    (accepts : next.accepts = false) (passed : next.passed = false)
    (holds : isAccepted after id = true) : isAccepted before id = true := by
  rcases isAccepted_iff.mp holds with there | ⟨there, waits⟩
  · exact isAccepted_iff.mpr (.inl (someCall_blank completions accepts there))
  · exact isAccepted_iff.mpr (.inr ⟨someCall_blank completions passed there, pending waits⟩)

theorem isMeasured_blank
    (completions : after.completions = before.completions.set index ⟨completion.id, next⟩)
    (pending : isPending after.stores id = true → isPending before.stores id = true)
    (measured : next.measured = false) (holds : isMeasured after id = true) :
    isMeasured before id = true := by
  obtain ⟨there, waits⟩ := isMeasured_iff.mp holds
  exact isMeasured_iff.mpr ⟨someCall_blank completions measured there, pending waits⟩

theorem isJudged_set
    (completions : after.completions = before.completions.set index ⟨completion.id, next⟩)
    (pending : isPending after.stores id = true → isPending before.stores id = true)
    (judges : next.judges = true → isJudged before id = true)
    (holds : isJudged after id = true) : isJudged before id = true := by
  rcases isJudged_iff.mp holds with there | waits
  · rcases someCall_set completions there with older | ⟨_, new⟩
    · exact isJudged_iff.mpr (.inl older)
    · exact judges new
  · exact isJudged_iff.mpr (.inr (pending waits))

/-- A call on the video goes on to a phase that decides nothing. -/
theorem Judged.undecided (judged : Judged id format before) (declares : Declares id format after)
    (content : OriginalEffect id format before.stores.objects event after.stores.objects)
    (steady : Steady before event)
    (completions : after.completions = before.completions.set index ⟨completion.id, next⟩)
    (pending : isPending after.stores id = true → isPending before.stores id = true)
    (judges : next.judges = true → isJudged before id = true)
    (accepts : next.accepts = false) (passed : next.passed = false)
    (rejects : next.rejects = false) (measured : next.measured = false) :
    Judged id format after :=
  judged.advance declares content steady pending (isJudged_set completions pending judges)
    (fun holds => .inl (isAccepted_blank completions pending accepts passed holds))
    (fun holds => .inl (someCall_blank completions rejects holds))
    (fun holds => .inl (isMeasured_blank completions pending measured holds))

/-- A guard that turns a call down has seen a content that no accepted call has. -/
theorem Judged.refused (judged : Judged id format before) (declares : Declares id format after)
    (content : OriginalEffect id format before.stores.objects event after.stores.objects)
    (steady : Steady before event) (stores : after.stores = before.stores)
    (completions : after.completions = before.completions.set index ⟨completion.id, next⟩)
    (judging : isJudged before id = true) (accepts : next.accepts = false)
    (passed : next.passed = false) (measured : next.measured = false) {body : Body}
    (here : original before.stores.objects id format = some body)
    (bad : rejectable format body = true) : Judged id format after := by
  have pending : isPending after.stores id = true → isPending before.stores id = true :=
    fun waits => stores ▸ waits
  have accepted := isAccepted_blank completions pending accepts passed
  refine judged.advance declares content steady pending
    (isJudged_set completions pending fun _ => judging) (fun holds => .inl (accepted holds))
    (fun _ => .inr ⟨?_, fun other there => ?_⟩)
    (fun holds => .inl (isMeasured_blank completions pending measured holds))
  · refine Bool.eq_false_iff.mpr fun through => ?_
    have fits := judged.accepted (accepted through) judging body here
    rw [bad] at fits
    cases fits
  · rw [stores, here] at there
    cases there
    refine Bool.eq_false_iff.mpr fun fits => ?_
    rw [not_rejectable_of_acceptable fits] at bad
    cases bad

/-- The last guard lets a call through that has seen a content which, if the call is
still to be accepted, both guards let through. -/
theorem Judged.cleared (judged : Judged id format before) (declares : Declares id format after)
    (content : OriginalEffect id format before.stores.objects event after.stores.objects)
    (steady : Steady before event) (stores : after.stores = before.stores)
    (completions : after.completions = before.completions.set index ⟨completion.id, next⟩)
    (judging : isJudged before id = true) (accepts : next.accepts = false)
    (rejects : next.rejects = false) (measured : next.measured = false) {body : Body}
    (here : original before.stores.objects id format = some body)
    (fits : isPending before.stores id = true → acceptable format body = true) :
    Judged id format after := by
  have pending : isPending after.stores id = true → isPending before.stores id = true :=
    fun waits => stores ▸ waits
  have rejected : isRejected after id = true → isRejected before id = true :=
    someCall_blank completions rejects
  refine judged.advance declares content steady pending
    (isJudged_set completions pending fun _ => judging) (fun holds => ?_)
    (fun holds => .inl (rejected holds))
    (fun holds => .inl (isMeasured_blank completions pending measured holds))
  rcases isAccepted_iff.mp holds with through | ⟨_, waits⟩
  · exact .inl (isAccepted_iff.mpr (.inl (someCall_blank completions accepts through)))
  have good := fits (pending waits)
  refine .inr ⟨?_, fun other there => ?_⟩
  · refine Bool.eq_false_iff.mpr fun refused => ?_
    have bad := judged.rejected (rejected refused) (pending waits) body here
    rw [good] at bad
    cases bad
  · rw [stores, here] at there
    cases there
    exact not_rejectable_of_acceptable good

/-- A call on the video goes on without a write. -/
theorem Judged.moved (judged : Judged id format before) (declares : Declares id format after)
    (steady : Steady before event) (slot : before.completions[index]? = some completion)
    (named : completion.id = id) (move : CompletionMove before.stores completion next)
    (stores : after.stores = before.stores)
    (completions : after.completions = before.completions.set index ⟨completion.id, next⟩) :
    Judged id format after := by
  have member := List.mem_of_getElem? slot
  have content : OriginalEffect id format before.stores.objects event after.stores.objects :=
    .same (by rw [stores])
  have pending : isPending after.stores id = true → isPending before.stores id = true :=
    fun waits => stores ▸ waits
  have keyed := judged.declares.completions completion member named
  have judges : ∀ {phase}, completion.phase = phase → CompletionPhase.judges phase = true →
      isJudged before id = true := by
    intro phase same holds
    refine isJudged_iff.mpr (.inl (named ▸ someCall_of_mem member ?_))
    rw [same]
    exact holds
  have found : ∀ {video object}, completion.phase.video? = some video →
      before.stores.objects.find? video.uploadKey = some object →
      video.format = format ∧ original before.stores.objects id format = some object.body := by
    intro video object remembers there
    obtain ⟨key, same⟩ := keyed video remembers
    exact ⟨same, same ▸ original_of_keyed key there⟩
  cases move with
  | loaded video phase there waits =>
      refine judged.undecided declares content steady completions pending (fun _ => ?_)
        rfl rfl rfl rfl
      exact isJudged_iff.mpr (.inr (isPending_iff.mpr ⟨video, named ▸ there, waits⟩))
  | measured video object phase there small =>
      obtain ⟨_, here⟩ := found (by rw [phase]; rfl) there
      refine judged.advance declares content steady pending
        (isJudged_set completions pending fun _ => judges phase rfl)
        (fun holds => .inl (isAccepted_blank completions pending rfl rfl holds))
        (fun holds => .inl (someCall_blank completions rfl holds)) fun _ => .inr fun body same => ?_
      rw [stores, here] at same
      cases same
      exact small
  | oversized video object phase there large =>
      obtain ⟨_, here⟩ := found (by rw [phase]; rfl) there
      exact judged.refused declares content steady stores completions (judges phase rfl)
        rfl rfl rfl here (by rw [rejectable, large]; rfl)
  | signed video object phase there valid =>
      obtain ⟨rfl, here⟩ := found (by rw [phase]; rfl) there
      refine judged.cleared declares content steady stores completions (judges phase rfl)
        rfl rfl rfl here fun waits => ?_
      have measuring : isMeasured before id = true := by
        refine isMeasured_iff.mpr ⟨named ▸ someCall_of_mem member ?_, waits⟩
        rw [phase]
        rfl
      have small : tooLarge object.body = false :=
        Bool.eq_false_iff.mpr fun large => judged.measured measuring object.body here large valid
      rw [acceptable, small, valid]
      rfl
  | unsigned video object phase there invalid =>
      obtain ⟨rfl, here⟩ := found (by rw [phase]; rfl) there
      exact judged.refused declares content steady stores completions (judges phase rfl)
        rfl rfl rfl here (by simp [rejectable, invalid])
  | ended error other =>
      have blank : CompletionPhase.rejects (.returned (.error error)) = false := by
        cases error <;> first | rfl | exact absurd rfl other.1 | exact absurd rfl other.2
      exact judged.undecided declares content steady completions pending (fun new => by cases new)
        rfl rfl blank rfl
  | cut =>
      exact judged.undecided declares content steady completions pending (fun new => by cases new)
        rfl rfl rfl rfl

end Call

theorem Judged.step (judged : Judged id format before) (snapshots : Snapshots before)
    (steady : Steady before event) (stepped : Service.step before event = some after) :
    Judged id format after := by
  have effect := step_effect stepped
  have declares := judged.declares.step snapshots effect
  have content := effect.originalEffect snapshots id format
  have pending := effect.rows.isPending judged.declares.known
  cases effect.completions with
  | same completions other =>
      refine judged.of_calls declares content steady pending fun property _ holds => ?_
      rwa [someCall, completions] at holds
  | started new _ completions stores =>
      refine judged.of_calls declares content steady pending fun property blank holds => ?_
      rw [someCall, completions, List.any_append] at holds
      simpa [someCall, blank] using holds
  | stepped index inner _ _ _ _ _ _ =>
      obtain ⟨completion, next, slot, verdict, completions⟩ := completion_of_step stepped
      have member := List.mem_of_getElem? slot
      by_cases named : completion.id = id
      · generalize same : after.stores = reached at verdict
        cases verdict with
        | moved _ move =>
            exact judged.moved declares steady slot named move same completions
        | rejected video error tasks phase =>
            -- The call had turned the upload down already.
            have older : isRejected before id = true := by
              refine named ▸ someCall_of_mem member ?_
              rw [phase]
              rfl
            exact judged.advance declares content steady pending
              (isJudged_set completions pending fun blank => by cases blank)
              (fun holds => .inl (isAccepted_blank completions pending rfl rfl holds))
              (fun _ => .inl older)
              (fun holds => .inl (isMeasured_blank completions pending rfl holds))
        | accepted video row tasks _ phase found waits answered =>
            have keyed := (judged.declares.completions completion member named video
              (by rw [phase]; rfl)).1
            -- The call was through while its row was pending.
            have older : isAccepted before id = true := by
              refine isAccepted_iff.mpr (.inr ⟨named ▸ someCall_of_mem member ?_, ?_⟩)
              · rw [phase]
                rfl
              · exact isPending_iff.mpr ⟨row, keyed.1 ▸ found, waits⟩
            have ended : next.judges = false ∧ next.rejects = false ∧ next.measured = false := by
              rcases answered with rfl | ⟨message, rfl⟩ <;> exact ⟨rfl, rfl, rfl⟩
            refine judged.advance declares content steady pending
              (isJudged_set completions pending fun new => ?_) (fun _ => .inl older)
              (fun holds => .inl (someCall_blank completions ended.2.1 holds))
              (fun holds => .inl (isMeasured_blank completions pending ended.2.2 holds))
            rw [ended.1] at new
            cases new
      · refine judged.of_calls declares content steady pending fun property _ holds => ?_
        rcases someCall_set completions holds with there | ⟨same, _⟩
        · exact there
        · exact absurd same named

/-! ## Every video -/

/-- An id that no component has come across in a row yet. -/
structure Unheard (id : VideoId) (state : State) : Prop where
  completions : ∀ completion ∈ state.completions, completion.id = id →
    completion.phase.video? = none ∧ completion.phase.rejects = false ∧
      completion.phase.accepts = false
  executions : ∀ execution ∈ state.executions, execution.id = id →
    execution.phase.video? = none

theorem Unheard.step (unheard : Unheard id before) (served : Served before)
    (unknown : id ∉ before.stores.issued) (stepped : Service.step before event = some after) :
    Unheard id after := by
  have effect := step_effect stepped
  have absent : ∀ row, before.stores.videos.find? id ≠ some row := fun row found =>
    unknown (served.outbox.issued id row found)
  refine ⟨?_, ?_⟩
  · cases effect.completions with
    | same completions other => exact completions ▸ unheard.completions
    | started new _ completions stores =>
        rw [completions]
        exact forall_mem_snoc unheard.completions fun _ => ⟨rfl, rfl, rfl⟩
    | stepped index inner _ _ _ _ _ _ =>
        obtain ⟨completion, next, slot, verdict, completions⟩ := completion_of_step stepped
        rw [completions]
        refine forall_mem_set unheard.completions fun named => ?_
        obtain ⟨none, refused, _⟩ :=
          unheard.completions completion (List.mem_of_getElem? slot) named
        have nothing : ∀ {phase : CompletionPhase}, completion.phase = phase →
            phase.video? = Option.none := fun same => same ▸ none
        generalize after.stores = reached at verdict
        cases verdict with
        | moved _ move =>
            cases move with
            | loaded video phase found waits => exact absurd (named ▸ found) (absent video)
            | measured video object phase => cases nothing phase
            | oversized video object phase => cases nothing phase
            | signed video object phase => cases nothing phase
            | unsigned video object phase => cases nothing phase
            | ended error other =>
                refine ⟨rfl, ?_, rfl⟩
                cases error <;> first | rfl | exact absurd rfl other.1 | exact absurd rfl other.2
            | cut => exact ⟨rfl, rfl, rfl⟩
        | rejected video error tasks phase => cases nothing phase
        | accepted video row tasks _ phase => cases nothing phase
  · cases effect.executions with
    | same executions tokens => exact executions ▸ unheard.executions
    | started new executions stores =>
        rw [executions]
        exact forall_mem_snoc unheard.executions fun _ => rfl
    | stepped index execution next slot effect executions =>
        have member := List.mem_of_getElem? slot
        rw [executions]
        refine forall_mem_set unheard.executions fun named => ?_
        rw [(effect.extends (served.snapshots.executions execution member)).id] at named
        cases remembers : next.phase.video? with
        | none => rfl
        | some video =>
            rcases effect.video remembers with older | found
            · rw [unheard.executions execution member named] at older
              cases older
            · exact absurd (named ▸ found) (absent video)

/-- A new id is declared with the format of its row, if there is one. -/
theorem Unheard.declares {state : State} (unheard : Unheard id state)
    (known : id ∈ state.stores.issued) : ∃ format, Declares id format state := by
  have declared : ∀ format, (∀ row, state.stores.videos.find? id = some row →
      row.format = format) → Declares id format state := by
    intro format row
    refine ⟨known, row, fun completion member named video remembers => ?_,
      fun execution member named video remembers => ?_⟩
    · rw [(unheard.completions completion member named).1] at remembers
      cases remembers
    · rw [unheard.executions execution member named] at remembers
      cases remembers
  cases found : state.stores.videos.find? id with
  | none => exact ⟨.mp4, declared .mp4 fun row there => by rw [found] at there; cases there⟩
  | some row =>
      refine ⟨row.format, declared row.format fun other there => ?_⟩
      rw [found] at there
      cases there
      rfl

theorem Judged.of_unheard {state : State} (unheard : Unheard id state)
    (declares : Declares id format state) : Judged id format state := by
  have none : ∀ property : CompletionPhase → Bool,
      (∀ phase : CompletionPhase, phase.video? = Option.none → phase.rejects = false →
        phase.accepts = false → property phase = false) → someCall state id property = false := by
    intro property blank
    rw [Bool.eq_false_iff]
    intro holds
    obtain ⟨completion, member, named, there⟩ := someCall_iff.mp holds
    obtain ⟨video, rejects, accepts⟩ := unheard.completions completion member named
    rw [blank _ video rejects accepts] at there
    cases there
  have rejects := none CompletionPhase.rejects fun _ _ rejects _ => rejects
  have accepts := none CompletionPhase.accepts fun _ _ _ accepts => accepts
  have passed := none CompletionPhase.passed fun phase video _ _ => by
    cases phase <;> first | rfl | cases video
  have measured := none CompletionPhase.measured fun phase video _ _ => by
    cases phase <;> first | rfl | cases video
  have accepted : isAccepted state id = false := by
    rw [isAccepted, accepts, passed]
    rfl
  refine ⟨declares, fun _ => rejects, fun holds => ?_, fun holds => ?_, fun holds => ?_⟩
  · rw [accepted] at holds
    cases holds
  · rw [isRejected, rejects] at holds
    cases holds
  · rw [isMeasured, measured] at holds
    cases holds

structure Verdicts (state : State) : Prop where
  judged : ∀ id ∈ state.stores.issued, ∃ format, Judged id format state
  unheard : ∀ id, id ∉ state.stores.issued → Unheard id state

theorem Verdicts.initial (now : Instant) : Verdicts (State.initial now) where
  judged _ member := absurd member List.not_mem_nil
  unheard _ _ := ⟨fun _ member => absurd member List.not_mem_nil,
    fun _ member => absurd member List.not_mem_nil⟩

theorem Verdicts.step (verdicts : Verdicts before) (served : Served before)
    (steady : Steady before event) (stepped : Service.step before event = some after) :
    Verdicts after := by
  have effect := step_effect stepped
  refine ⟨fun id known => ?_, fun id unknown => ?_⟩
  · by_cases older : id ∈ before.stores.issued
    · obtain ⟨format, judged⟩ := verdicts.judged id older
      exact ⟨format, judged.step served.snapshots steady stepped⟩
    · have unheard := (verdicts.unheard id older).step served older stepped
      obtain ⟨format, declares⟩ := unheard.declares known
      exact ⟨format, .of_unheard unheard declares⟩
  · have older : id ∉ before.stores.issued := fun member =>
      unknown (effect.rows.issued_subset member)
    exact (verdicts.unheard id older).step served older stepped

/-- In every steady run no call on a video returns `Ok` when another one, earlier or
later, has turned the upload down. -/
theorem acceptance_excludes_rejection {now : Instant} {state : State}
    (reached : Reaches step Steady (State.initial now) state) {first second : Completion}
    (firstMember : first ∈ state.completions) (secondMember : second ∈ state.completions)
    (sameVideo : first.id = second.id) {error : CompleteUploadError} {output : CompleteUploadOutput}
    (rejected : first.phase = .returned (.error error))
    (guard : error = .fileTooLarge ∨ error = .invalidFileSignature) :
    second.phase ≠ .returned (.ok output) := by
  intro accepted
  have both : Served state ∧ Verdicts state := by
    refine reached.preserves (fun state => Served state ∧ Verdicts state)
      ⟨.initial now, .initial now⟩ fun holds permitted stepped => ?_
    exact ⟨holds.1.step (step_effect stepped), holds.2.step holds.1 permitted stepped⟩
  obtain ⟨_, verdicts⟩ := both
  have rejects : first.phase.rejects = true := by
    rcases guard with rfl | rfl <;> rw [rejected] <;> rfl
  by_cases known : first.id ∈ state.stores.issued
  · obtain ⟨format, judged⟩ := verdicts.judged first.id known
    have accepting : isAccepted state first.id = true := by
      refine isAccepted_iff.mpr (.inl (sameVideo ▸ someCall_of_mem secondMember ?_))
      rw [accepted]
      rfl
    have refused : isRejected state first.id = true := someCall_of_mem firstMember rejects
    rw [judged.apart accepting] at refused
    cases refused
  · have unheard := (verdicts.unheard first.id known).completions first firstMember rfl
    rw [unheard.2.1] at rejects
    cases rejects

/-- What a call has returned. -/
def CompletionPhase.result? :
    CompletionPhase → Option (Except CompleteUploadError CompleteUploadOutput)
  | .returned result => some result
  | _ => none

theorem CompletionPhase.of_result? {phase : CompletionPhase}
    {result : Except CompleteUploadError CompleteUploadOutput}
    (returned : phase.result? = some result) :
    phase = .returned result := by
  cases phase <;> cases returned
  rfl

/-- Sixteen bytes that no format begins with. -/
def blankBody : Body := .bytes ⟨16, fun _ => 0⟩

/-- The client stores a content, and a call looks at it. -/
def judgedUpload (id : VideoId) (index : Nat) (body : Body) : List Event :=
  [.putOriginal id .mkv "video/x-matroska" body, .startCompletion id,
    .completion index (.call .none), .completion index (.call .none),
    .completion index (.call .none)]

/-- A call turns the upload down. -/
def rejectedUpload (id : VideoId) (task : TaskId) : List Event :=
  .initiate id "a title" .mkv true :: judgedUpload id 0 blankBody ++
    [.completion 0 (.reject .none ⟨task, none⟩)]

theorem acceptance_excludes_rejection_rejectedUpload : ∃ state first second,
    Reaches step Steady (State.initial 0) state ∧ state.completions[0]? = some first ∧
    state.completions[1]? = some second ∧
    second.phase ≠ .returned (.ok ⟨⟨.ofNat 7⟩, .uploaded⟩) := by
  have passed : ((run step Steady (State.initial 0)
      (rejectedUpload ⟨.ofNat 7⟩ ⟨.ofNat 8⟩ ++ judgedUpload ⟨.ofNat 7⟩ 1 blankBody)).map fun state =>
        (state.completions[0]?).any fun first => (state.completions[1]?).any fun second =>
          decide (first.id = second.id) && decide (first.phase.result? =
            some (.error .invalidFileSignature))) = some true := by decide
  obtain ⟨state, reached, passed⟩ := reaches_of_check _ passed
  obtain ⟨first, firstSlot, passed⟩ := (Option.any_eq_true _ _).mp passed
  obtain ⟨second, secondSlot, passed⟩ := (Option.any_eq_true _ _).mp passed
  obtain ⟨same, refused⟩ := Bool.and_eq_true_iff.mp passed
  refine ⟨state, first, second, reached, firstSlot, secondSlot, ?_⟩
  exact acceptance_excludes_rejection reached (List.mem_of_getElem? firstSlot)
    (List.mem_of_getElem? secondSlot) (of_decide_eq_true same)
    (CompletionPhase.of_result? (of_decide_eq_true refused)) (.inr rfl)

/-- The upload is turned down, replaced, and accepted. -/
def replacedUpload (id : VideoId) (task later : TaskId) : List Event :=
  rejectedUpload id task ++ judgedUpload id 1 matroska ++
    [.completion 1 (.transition .none ⟨later, none⟩)]

theorem replacedUpload_accepted : ∃ state first second,
    Reaches step Anything (State.initial 0) state ∧
    state.completions[0]? = some first ∧ state.completions[1]? = some second ∧
    first.id = second.id ∧ first.phase = .returned (.error .invalidFileSignature) ∧
    (∃ task ∈ state.stores.tasks.rows, deletesVideo task first.id = true) ∧
    second.phase = .returned (.ok ⟨second.id, .uploaded⟩) := by
  have passed : ((run step Anything (State.initial 0)
      (replacedUpload ⟨.ofNat 7⟩ ⟨.ofNat 8⟩ ⟨.ofNat 9⟩)).map fun state =>
        (state.completions[0]?).any fun first => (state.completions[1]?).any fun second =>
          decide (first.id = second.id) && decide (first.phase.result? =
            some (.error .invalidFileSignature)) && isScheduled state.stores first.id &&
          decide (second.phase.result? = some (.ok ⟨second.id, .uploaded⟩))) = some true := by decide
  obtain ⟨state, reached, passed⟩ := reaches_of_check _ passed
  obtain ⟨first, firstSlot, passed⟩ := (Option.any_eq_true _ _).mp passed
  obtain ⟨second, secondSlot, passed⟩ := (Option.any_eq_true _ _).mp passed
  obtain ⟨passed, accepted⟩ := Bool.and_eq_true_iff.mp passed
  obtain ⟨passed, scheduled⟩ := Bool.and_eq_true_iff.mp passed
  obtain ⟨same, refused⟩ := Bool.and_eq_true_iff.mp passed
  exact ⟨state, first, second, reached, firstSlot, secondSlot, of_decide_eq_true same,
    CompletionPhase.of_result? (of_decide_eq_true refused), List.any_eq_true.mp scheduled,
    CompletionPhase.of_result? (of_decide_eq_true accepted)⟩

end Benri.Service
