import Benri.Service.Claim
import Benri.Service.Outputs

namespace Benri.Service

open Benri.Data Benri.Domain Benri.Postgres Benri.Storage Benri.Transcoder Benri.Transition

/-! # The original of a video

The uploader may replace the original at any time; the service reads it, and
deletes it in the end, but never writes it.  What the guards of `complete_upload`
make of a content depends on the content and the declared format alone.
-/

/-- What is stored where the original of a video belongs. -/
def original (objects : Objects) (id : VideoId) (format : VideoFormat) : Option Body :=
  (objects.find? (originalKey id format)).map Object.body

theorem original_of_keyed {objects : Objects} {id : VideoId} {video : Video} {object : Object}
    (keyed : Keyed id video) (there : objects.find? video.uploadKey = some object) :
    original objects id video.format = some object.body := by
  rw [original, ← keyed.2, there, Option.map_some]

/-! ## The guards -/

def tooLarge (body : Body) : Bool := decide (MAX_UPLOAD_SIZE_BYTES < body.size)

/-- What the signature check makes of a content, if it has a first byte. -/
def signed (format : VideoFormat) (body : Body) : Option Bool :=
  (body.range 0 (FILE_SIGNATURE_READ_BYTES - 1)).map format.validateSignature

/-- Both guards let the content through. -/
def acceptable (format : VideoFormat) (body : Body) : Bool :=
  !tooLarge body && decide (signed format body = some true)

/-- Some guard turns the content down. -/
def rejectable (format : VideoFormat) (body : Body) : Bool :=
  tooLarge body || decide (signed format body = some false)

theorem not_rejectable_of_acceptable {format : VideoFormat} {body : Body}
    (accepted : acceptable format body = true) : rejectable format body = false := by
  obtain ⟨small, valid⟩ := Bool.and_eq_true_iff.mp accepted
  rw [rejectable, of_decide_eq_true valid, (Bool.not_eq_true' _).mp small]
  rfl

/-! ## What a step does to it -/

inductive OriginalEffect (id : VideoId) (format : VideoFormat) (before : Objects) (event : Event)
    (after : Objects) : Prop where
  | same (same : original after id format = original before id format)
  | removed (removed : original after id format = none)
  | put (contentType : String) (body : Body) (put : event = .putOriginal id format contentType body)
      (stored : original after id format = some body)

variable {before after : State} {event : Event} {id : VideoId} {format : VideoFormat}

theorem OriginalEffect.delete (objects : Objects) (key : String) :
    OriginalEffect id format objects event (deleteObject objects key) := by
  by_cases hit : key = originalKey id format
  · exact .removed (by rw [original, find?_deleteObject, if_pos hit]; rfl)
  · exact .same (by rw [original, find?_deleteObject, if_neg hit, original])

theorem OriginalEffect.deletePrefix (objects : Objects) (owner : VideoId) (kept : List String) :
    OriginalEffect id format objects event (deletePrefix objects (storagePrefix owner) kept) := by
  refine .same ?_
  rw [original, find?_deletePrefix, if_neg fun covered => ?_, original]
  rw [not_under_originalKey] at covered
  cases covered.1

/-- An uploader writes nothing where an original belongs. -/
theorem find?_original_upload {owner : VideoId} {objects reached : Objects}
    {upload uploadAfter : Upload} (home : upload.uploader.outputPrefix = storagePrefix owner)
    (effect : UploadEffect objects upload reached uploadAfter) :
    reached.find? (originalKey id format) = objects.find? (originalKey id format) := by
  refine effect.elsewhere fun path same => ?_
  rw [Upload.key, home] at same
  have covered := under_key path owner owner
  rw [← same, not_under_originalKey] at covered
  simp at covered

theorem original_upload {owner : VideoId} {objects reached : Objects} {upload uploadAfter : Upload}
    (home : upload.uploader.outputPrefix = storagePrefix owner)
    (effect : UploadEffect objects upload reached uploadAfter) :
    original reached id format = original objects id format := by
  rw [original, find?_original_upload home effect, original]

theorem Effect.originalEffect (effect : Effect before event after) (snapshots : Snapshots before)
    (id : VideoId) (format : VideoFormat) :
    OriginalEffect id format before.stores.objects event after.stores.objects := by
  cases effect with
  | original owner ownerFormat contentType body =>
      by_cases same : owner = id ∧ ownerFormat = format
      · obtain ⟨rfl, rfl⟩ := same
        refine .put contentType body rfl ?_
        rw [Service.original, State.withStores, putOriginalStep, find?_uploadBytes, if_pos rfl]
        rfl
      · refine .same ?_
        rw [Service.original, State.withStores, putOriginalStep, find?_uploadBytes,
          if_neg fun hit => same (originalKey_inj.mp hit), Service.original]
  | completion index event completion stores next slot effect => cases effect <;> exact .same rfl
  | sweep index event phase next stores slot effect => cases effect <;> exact .same rfl
  | execution index event execution next stores slot effect =>
      have coherent := snapshots.executions execution (List.mem_of_getElem? slot)
      cases effect with
      | cleaned video result phase => exact .delete _ _
      | uploaded upload after objects uploadEvent uploading stepped =>
          exact .same (original_upload (coherent.uploading upload uploading).2
            (uploadStep_effect stepped))
      | quiet | claimed | published | finalized | failed => exact .same rfl
  | deletion index event deletion next stores slot effect =>
      cases effect with
      | prefixed video kept _ phase answered => exact .deletePrefix _ video.id kept
      | objectDeleted video _ phase answered => exact .delete _ _
      | found | ended | rowDeleted => exact .same rfl
  | advance | unborn | born | tasks | startCompletion | startExecution | startSweep |
    startDeletion => exact .same rfl

/-- What holds of a stored content goes on holding unless a PUT breaks it. -/
theorem OriginalEffect.kept {property : Body → Prop} {objects reached : Objects}
    (effect : OriginalEffect id format objects event reached)
    (holds : ∀ body, Service.original objects id format = some body → property body)
    (puts : ∀ contentType body, event = .putOriginal id format contentType body → property body) :
    ∀ body, Service.original reached id format = some body → property body := by
  intro body there
  cases effect with
  | same same => exact holds body (same ▸ there)
  | removed removed =>
      rw [removed] at there
      cases there
  | put contentType stored put found =>
      rw [found] at there
      cases there
      exact puts contentType body put

/-! ## The declared format -/

theorem RowsEffect.format_kept {before after : Stores} (effect : RowsEffect before after)
    (known : id ∈ before.issued) {row : Video} (found : after.videos.find? id = some row) :
    ∃ old, before.videos.find? id = some old ∧ row.format = old.format := by
  cases effect.descends found with
  | born title format fresh => exact absurd known fresh
  | proceeds old written there tokens proceeds =>
      exact ⟨old, there, by cases proceeds <;> rfl⟩
  | uploaded old there pending same => exact ⟨old, there, by rw [same]⟩

/-- A handler remembers its row from before, or has just read it. -/
theorem ExecutionEffect.video {stores reached : Stores} {execution next : Execution}
    {event : ExecutionEvent} (effect : ExecutionEffect stores execution event reached next)
    {video : Video} (remembers : next.phase.video? = some video) :
    execution.phase.video? = some video ∨ stores.videos.find? execution.id = some video := by
  cases effect with
  | quiet _ advance =>
      cases advance with
      | loaded other phase found =>
          cases remembers
          exact .inr found
      | ended | cut | killed => cases remembers
      | failing other phase =>
          refine .inl (Eq.trans ?_ remembers)
          rcases phase with phase | ⟨result, phase⟩ | phase <;> rw [phase] <;> rfl
      | probed other hasAudio shareToken phase =>
          exact .inl (Eq.trans (by rw [phase]; rfl) remembers)
      | unspawned other hasAudio result phase =>
          exact .inl (Eq.trans (by rw [phase]; rfl) remembers)
      | spawned other hasAudio raw phase =>
          exact .inl (Eq.trans (by rw [phase]; rfl) remembers)
      | ready other phase => exact .inl (Eq.trans (by rw [phase]; rfl) remembers)
      | joined other result upload pipeline phase uploading =>
          exact .inl (Eq.trans (by rw [phase]; rfl) remembers)
      | signalled | silenced => exact .inl remembers
  | claimed other row _ phase found uploaded answered =>
      rcases answered with rfl | ⟨error, rfl⟩
      · exact .inl (Eq.trans (by rw [phase]; rfl) remembers)
      · cases remembers
  | finalized shareToken other row videos phase before drawn found processing updated answered =>
      have same : phase.video? = some other := by rcases answered with rfl | rfl <;> rfl
      exact .inl (Eq.trans (by rw [before, same]; rfl) remembers)
  | cleaned | failed => cases remembers
  | published | uploaded => exact .inl remembers

theorem CompletionEffect.video {stores reached : Stores} {completion : Completion}
    {event : CompletionEvent} {next : CompletionPhase}
    (effect : CompletionEffect stores completion event reached next)
    {video : Video} (remembers : next.video? = some video) :
    completion.phase.video? = some video ∨ stores.videos.find? completion.id = some video := by
  cases effect with
  | quiet _ unfinished source => exact source video remembers
  | rejected => cases remembers
  | uploaded other row seed tasks _ phase found pending change answered =>
      rcases answered with rfl | ⟨error, rfl⟩ <;> cases remembers

/-- A video of which every component knows the same format. -/
structure Declares (id : VideoId) (format : VideoFormat) (state : State) : Prop where
  known : id ∈ state.stores.issued
  row : ∀ row, state.stores.videos.find? id = some row → row.format = format
  completions : ∀ completion ∈ state.completions, completion.id = id →
    ∀ video, completion.phase.video? = some video → Keyed id video ∧ video.format = format
  executions : ∀ execution ∈ state.executions, execution.id = id →
    ∀ video, execution.phase.video? = some video → video.format = format

/-- What a step does to the completions. -/
inductive CompletionsEffect (before : State) : Event → State → Prop where
  | same {event : Event} {after : State} (completions : after.completions = before.completions)
      (other : ∀ index inner, event ≠ .completion index inner) :
      CompletionsEffect before event after
  | started (id : VideoId) (after : State)
      (completions : after.completions = before.completions ++ [⟨id, .findById⟩])
      (stores : after.stores = before.stores) :
      CompletionsEffect before (.startCompletion id) after
  | stepped (index : Nat) (event : CompletionEvent) (completion : Completion)
      (next : CompletionPhase) (after : State)
      (slot : before.completions[index]? = some completion)
      (effect : CompletionEffect before.stores completion event after.stores next)
      (completions : after.completions = before.completions.set index ⟨completion.id, next⟩) :
      CompletionsEffect before (.completion index event) after

theorem Effect.completions (effect : Effect before event after) :
    CompletionsEffect before event after := by
  cases effect with
  | startCompletion id => exact .started id _ rfl rfl
  | completion index event completion stores next slot effect =>
      exact .stepped index event completion next _ slot effect rfl
  | advance | unborn | born | original | tasks | startExecution | execution | startSweep | sweep |
    startDeletion | deletion => exact .same rfl fun _ _ same => by cases same

theorem Declares.step (declares : Declares id format before) (snapshots : Snapshots before)
    (effect : Effect before event after) : Declares id format after := by
  refine ⟨effect.rows.issued_subset declares.known, fun row found => ?_, ?_, ?_⟩
  · obtain ⟨old, there, same⟩ := effect.rows.format_kept declares.known found
    exact same.trans (declares.row old there)
  · cases effect.completions with
    | same completions other => exact completions ▸ declares.completions
    | started new _ completions stores =>
        rw [completions]
        exact forall_mem_snoc declares.completions fun _ _ same => by cases same
    | stepped index event completion next _ slot effect completions =>
        rw [completions]
        refine forall_mem_set declares.completions fun named video remembers => ?_
        rcases effect.video remembers with older | found
        · exact declares.completions completion (List.mem_of_getElem? slot) named video older
        · rw [show completion.id = id from named] at found
          exact ⟨snapshots.rows id video found, declares.row video found⟩
  · cases effect.executions with
    | same executions tokens => exact executions ▸ declares.executions
    | started new executions stores =>
        rw [executions]
        exact forall_mem_snoc declares.executions fun _ _ same => by cases same
    | stepped index execution next slot effect executions =>
        have coherent := snapshots.executions execution (List.mem_of_getElem? slot)
        rw [executions]
        refine forall_mem_set declares.executions fun named video remembers => ?_
        rw [(effect.extends coherent).id] at named
        rcases effect.video remembers with older | found
        · exact declares.executions execution (List.mem_of_getElem? slot) named video older
        · exact declares.row video (named ▸ found)

end Benri.Service
