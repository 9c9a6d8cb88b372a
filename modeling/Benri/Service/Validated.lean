import Benri.Service.Acceptance

namespace Benri.Service

open Benri.Data Benri.Domain Benri.Postgres Benri.Storage Benri.Transcoder Benri.Transition

/-! # What the worker reads

The worker reads the original long after the guards looked at it, and the upload
URL stays good all the while.
-/

def ExecutionPhase.reads : ExecutionPhase → Bool
  | .probe _ | .transcode _ _ => true
  | _ => false

/-- The worker reads the original now: it probes it, or a pipeline runs on it, one
that nobody waits for any more included. -/
def Execution.reads (execution : Execution) : Bool :=
  execution.alive && (execution.phase.reads || execution.upload.any Upload.pipeline)

def isReading (state : State) (id : VideoId) : Bool :=
  state.executions.any fun execution => decide (execution.id = id) && execution.reads

def isUploaded (stores : Stores) (id : VideoId) : Bool :=
  (stores.videos.find? id).any fun row => decide (row.status = .uploaded)

/-- The guards have let the content through, and the worker reads it or still will. -/
def isRelied (state : State) (id : VideoId) : Bool :=
  isUploaded state.stores id || isReading state id ||
    (someCall state id CompletionPhase.passed && isPending state.stores id)

/-- Only a content that both guards let through replaces one that the worker relies
on, and only one of an allowed size gets between the two checks of a call. -/
def vetted (state : State) : Event → Bool
  | .putOriginal id format _ body =>
      !(isRelied state id && !acceptable format body) && !(isMeasured state id && tooLarge body)
  | _ => true

def Vetted (state : State) (event : Event) : Prop := vetted state event = true

instance (state : State) (event : Event) : Decidable (Vetted state event) :=
  inferInstanceAs (Decidable (_ = true))

variable {before after : State} {event : Event} {id : VideoId} {format : VideoFormat}

theorem Vetted.put {contentType : String} {body : Body}
    (permitted : Vetted before (.putOriginal id format contentType body)) :
    (isRelied before id = true → acceptable format body = true) ∧
    (isMeasured before id = true → tooLarge body = false) := by
  obtain ⟨first, second⟩ := Bool.and_eq_true_iff.mp permitted
  refine ⟨fun relied => ?_, fun measured => ?_⟩
  · simpa [relied] using first
  · simpa [measured] using second

/-! ## Who begins to read -/

variable {stores reached : Stores} {execution next : Execution}

/-- A pipeline runs after a step that it ran before, or that a transcode began with. -/
theorem executionStep_pipeline {inner : ExecutionEvent}
    (stepped : executionStep stores execution inner = some (reached, next))
    (running : next.upload.any Upload.pipeline = true) :
    execution.phase.reads = true ∨ execution.upload.any Upload.pipeline = true := by
  cases executionStep_turn stepped with
  | spawned video hasAudio raw phase => exact .inl (by rw [phase]; rfl)
  | panicked => cases running
  | joined video upload result answer phase before =>
      rw [before]
      exact .inr running
  | uploaded upload after objects event before moved =>
      rw [before]
      exact .inr ((uploadStep_effect moved).pipeline running)
  | cut =>
      refine .inr (Eq.trans ?_ running)
      cases execution.upload <;> rfl
  | loaded | unloaded | claimed | unclaimed | claimFailed | unprobed | probed | unspawned |
    signalled | silenced | published | untranscoded | transcoded | finalized | cleaned | failed |
    killed => exact .inr running

/-- An execution that comes to the probe has just claimed the video. -/
theorem ExecutionEffect.reads {inner : ExecutionEvent}
    (effect : ExecutionEffect stores execution inner reached next) (coherent : Coherent execution)
    (reads : next.phase.reads = true) :
    execution.phase.reads = true ∨ isUploaded stores execution.id = true := by
  cases effect with
  | quiet _ advance =>
      cases advance with
      | probed video hasAudio shareToken phase => exact .inl (by rw [phase]; rfl)
      | signalled | silenced => exact .inl reads
      | loaded | ended | failing | unspawned | spawned | joined | ready | cut | killed =>
          cases reads
  | claimed video row _ phase found uploaded answered =>
      have named := (coherent.video video (by rw [phase]; rfl)).1
      rw [named] at found
      exact .inr (by rw [isUploaded, found, Option.any_some, uploaded]; rfl)
  | finalized shareToken video row videos _ phase drawn found processing updated answered =>
      rcases answered with rfl | rfl <;> cases reads
  | cleaned | failed => cases reads
  | published | uploaded => exact .inl reads

theorem isReading_iff {state : State} :
    isReading state id = true ↔
      ∃ execution ∈ state.executions, execution.id = id ∧ execution.reads = true := by
  simp [isReading]

/-- The worker begins to read a video by claiming it. -/
theorem isReading_of_step (snapshots : Snapshots before)
    (stepped : step before event = some after) (reading : isReading after id = true) :
    isReading before id = true ∨ isUploaded before.stores id = true := by
  obtain ⟨execution, member, named, reads⟩ := isReading_iff.mp reading
  have older : execution ∈ before.executions → isReading before id = true ∨
      isUploaded before.stores id = true := fun inside =>
    .inl (isReading_iff.mpr ⟨execution, inside, named, reads⟩)
  cases step_effect stepped with
  | startExecution task owner row found processes =>
      rcases List.mem_append.mp member with inside | new
      · exact older inside
      · rw [List.mem_singleton.mp new] at reads
        cases reads
  | execution index inner _ _ _ _ _ =>
      obtain ⟨moving, next, slot, advanced, executions⟩ := execution_of_step stepped
      rw [executions] at member
      rcases List.mem_or_eq_of_mem_set member with inside | rfl
      · exact older inside
      · have inside := List.mem_of_getElem? slot
        have coherent := snapshots.executions moving inside
        have effect := executionStep_effect advanced
        rw [(effect.extends coherent).id] at named
        have source : moving.phase.reads = true ∨ moving.upload.any Upload.pipeline = true ∨
            isUploaded before.stores moving.id = true := by
          rcases (Bool.or_eq_true _ _).mp (Bool.and_eq_true_iff.mp reads).2 with probing | running
          · rcases effect.reads coherent probing with earlier | uploaded
            · exact .inl earlier
            · exact .inr (.inr uploaded)
          · rcases executionStep_pipeline advanced running with earlier | earlier
            · exact .inl earlier
            · exact .inr (.inl earlier)
        have alive := executionStep_alive advanced
        rcases source with phase | pipeline | uploaded
        · refine .inl (isReading_iff.mpr ⟨moving, inside, named, ?_⟩)
          simp [Execution.reads, alive, phase]
        · exact .inl (isReading_iff.mpr
            ⟨moving, inside, named, by simp [Execution.reads, alive, pipeline]⟩)
        · exact .inr (named ▸ uploaded)
  | advance | unborn | born | original | tasks | startCompletion | completion | startSweep | sweep |
    startDeletion | deletion => exact older member

/-! ## Who is accepted -/

theorem isUploaded_iff {stores : Stores} :
    isUploaded stores id = true ↔
      ∃ row, stores.videos.find? id = some row ∧ row.status = .uploaded := by
  simp [isUploaded, Option.any_eq_true]

theorem RowsProceed.isUploaded {before after : Stores} (proceed : RowsProceed before after)
    (uploaded : Service.isUploaded after id = true) : Service.isUploaded before id = true := by
  obtain ⟨row, found, status⟩ := isUploaded_iff.mp uploaded
  obtain ⟨written, rows, issued, tokens, tasks⟩ := proceed
  obtain ⟨old, there, proceeds⟩ := rows id row found
  cases proceeds with
  | same => exact isUploaded_iff.mpr ⟨row, there, status⟩
  | claimed | failed => cases status
  | token shareToken settledAs processing settled recorded =>
      rcases settled with rfl | rfl <;> cases status

/-- A video is uploaded once a call that both guards let through finds its row pending. -/
theorem isUploaded_of_step
    (keyed : ∀ completion ∈ before.completions, ∀ video,
      completion.phase.video? = some video → Keyed completion.id video)
    (effect : Effect before event after) (uploaded : isUploaded after.stores id = true) :
    isUploaded before.stores id = true ∨
      someCall before id CompletionPhase.passed = true ∧ isPending before.stores id = true := by
  cases effect with
  | completion index inner completion stores next slot effect =>
      cases effect with
      | quiet | rejected => exact .inl uploaded
      | uploaded video row seed tasks _ phase found pending change answered =>
          have member := List.mem_of_getElem? slot
          have named := (keyed completion member video (by rw [phase]; rfl)).1
          by_cases same : completion.id = id
          · refine .inr ⟨same ▸ someCall_of_mem member ?_, isPending_iff.mpr ⟨row, ?_, pending⟩⟩
            · rw [phase]
              rfl
            · rw [← same, ← named, found]
          · obtain ⟨other, there, status⟩ := isUploaded_iff.mp uploaded
            dsimp only at there
            rw [find?_updateStatusIf] at there
            obtain ⟨old, present, rfl⟩ := Option.map_eq_some_iff.mp there
            rw [if_neg fun touched => same (named.symm.trans touched.1.symm)] at status
            exact .inl (isUploaded_iff.mpr ⟨old, present, status⟩)
  | born new title declared videos fresh inserted =>
      obtain ⟨row, found, status⟩ := isUploaded_iff.mp uploaded
      dsimp only [State.withStores] at found
      rw [Table.find?_insert? inserted] at found
      split at found
      · cases found
        cases status
      · exact .inl (isUploaded_iff.mpr ⟨row, found, status⟩)
  | execution index inner execution next stores slot effect =>
      exact .inl (effect.proceed.isUploaded uploaded)
  | sweep index inner phase next stores slot effect =>
      exact .inl (effect.proceed.isUploaded uploaded)
  | deletion index inner deletion next stores slot effect =>
      exact .inl (effect.proceed.isUploaded uploaded)
  | advance | unborn | original | tasks | startCompletion | startExecution | startSweep |
    startDeletion => exact .inl uploaded

/-! ## The content that is relied on -/

/-- A video whose stored content bears out what the worker and the guards make of it. -/
structure Trusted (id : VideoId) (format : VideoFormat) (state : State) : Prop where
  declares : Declares id format state
  relied : isRelied state id = true →
    ∀ body, original state.stores.objects id format = some body → acceptable format body = true
  measured : isMeasured state id = true →
    ∀ body, original state.stores.objects id format = some body → tooLarge body = false

theorem isRelied_iff {state : State} :
    isRelied state id = true ↔ isUploaded state.stores id = true ∨ isReading state id = true ∨
      someCall state id CompletionPhase.passed = true ∧ isPending state.stores id = true := by
  simp [isRelied, or_assoc]

/-- Some call comes to a phase only from another one, or by a verdict on the content. -/
theorem someCall_of_step {property : CompletionPhase → Bool} (blank : property .findById = false)
    (stepped : step before event = some after) (holds : someCall after id property = true) :
    someCall before id property = true ∨ ∃ completion ∈ before.completions, ∃ next,
      completion.id = id ∧ property next = true ∧
        CompletionVerdict before.stores completion after.stores next := by
  cases (step_effect stepped).completions with
  | same completions other =>
      rw [someCall, completions] at holds
      exact .inl holds
  | started new _ completions stores =>
      rw [someCall, completions, List.any_append] at holds
      exact .inl (by simpa [someCall, blank] using holds)
  | stepped index inner _ _ _ _ _ _ =>
      obtain ⟨completion, next, slot, verdict, completions⟩ := completion_of_step stepped
      rcases someCall_set completions holds with older | ⟨named, new⟩
      · exact .inl older
      · exact .inr ⟨completion, List.mem_of_getElem? slot, next, named, new, verdict⟩

/-- The size check of a call has just seen a content that is not too large. -/
theorem Trusted.small (trusted : Trusted id format before)
    (stepped : step before event = some after)
    (measured : someCall after id CompletionPhase.measured = true) :
    someCall before id CompletionPhase.measured = true ∨
      ∀ body, original after.stores.objects id format = some body → tooLarge body = false := by
  rcases someCall_of_step rfl stepped measured with
    older | ⟨completion, member, next, named, new, verdict⟩
  · exact .inl older
  refine .inr fun body stored => ?_
  generalize after.stores = reached at verdict stored
  cases verdict with
  | moved _ move =>
      cases move with
      | measured video object phase there small =>
          obtain ⟨keyed, rfl⟩ := trusted.declares.completions completion member named video
            (by rw [phase]; rfl)
          rw [original_of_keyed keyed there] at stored
          cases stored
          exact small
      | loaded | oversized | signed | unsigned | ended | cut => cases new
  | rejected => cases new
  | accepted video row tasks _ phase found pending answered =>
      rcases answered with rfl | ⟨message, rfl⟩ <;> cases new

/-- The signature check of a call has just let through what its size check let through. -/
theorem Trusted.fits (trusted : Trusted id format before)
    (stepped : step before event = some after)
    (pending : isPending before.stores id = true)
    (passed : someCall after id CompletionPhase.passed = true) :
    someCall before id CompletionPhase.passed = true ∨
      ∀ body, original after.stores.objects id format = some body →
        acceptable format body = true := by
  rcases someCall_of_step rfl stepped passed with
    older | ⟨completion, member, next, named, new, verdict⟩
  · exact .inl older
  refine .inr fun body stored => ?_
  generalize after.stores = reached at verdict stored
  cases verdict with
  | moved _ move =>
      cases move with
      | signed video object phase there valid =>
          obtain ⟨keyed, rfl⟩ := trusted.declares.completions completion member named video
            (by rw [phase]; rfl)
          have here := original_of_keyed keyed there
          have measured : isMeasured before id = true := by
            refine isMeasured_iff.mpr ⟨named ▸ someCall_of_mem member ?_, pending⟩
            rw [phase]
            rfl
          have small := trusted.measured measured object.body here
          rw [here] at stored
          cases stored
          rw [acceptable, small, valid]
          rfl
      | loaded | measured | oversized | unsigned | ended | cut => cases new
  | rejected => cases new
  | accepted video row tasks _ phase found pending answered =>
      rcases answered with rfl | ⟨message, rfl⟩ <;> cases new

theorem Trusted.step (trusted : Trusted id format before) (served : Served before)
    (keyed : ∀ completion ∈ before.completions, ∀ video,
      completion.phase.video? = some video → Keyed completion.id video)
    (vetted : Vetted before event) (stepped : Service.step before event = some after) :
    Trusted id format after := by
  have effect := step_effect stepped
  have content := effect.originalEffect served.snapshots id format
  have waits := effect.rows.isPending trusted.declares.known
  -- What was relied on is still there, or was replaced by a content that was vetted.
  have still : isRelied before id = true → ∀ body,
      original after.stores.objects id format = some body → acceptable format body = true := by
    intro older
    refine content.kept (trusted.relied older) ?_
    rintro contentType body rfl
    exact vetted.put.1 older
  refine ⟨trusted.declares.step served.snapshots effect, fun relied => ?_, fun measured => ?_⟩
  · rcases isRelied_iff.mp relied with uploaded | reading | ⟨passed, pending⟩
    · rcases isUploaded_of_step keyed effect uploaded with older | through
      · exact still (isRelied_iff.mpr (.inl older))
      · exact still (isRelied_iff.mpr (.inr (.inr through)))
    · rcases isReading_of_step served.snapshots stepped reading with older | older
      · exact still (isRelied_iff.mpr (.inr (.inl older)))
      · exact still (isRelied_iff.mpr (.inl older))
    · rcases trusted.fits stepped (waits pending) passed with older | fits
      · exact still (isRelied_iff.mpr (.inr (.inr ⟨older, waits pending⟩)))
      · exact fits
  · obtain ⟨measuring, pending⟩ := isMeasured_iff.mp measured
    rcases trusted.small stepped measuring with older | small
    · have before := isMeasured_iff.mpr ⟨older, waits pending⟩
      refine content.kept (trusted.measured before) ?_
      rintro contentType body rfl
      exact vetted.put.2 before
    · exact small

/-! ## Every video -/

/-- Nobody relies on the content of an id that was not given out. -/
theorem not_isRelied_of_unissued (served : Served before) (unheard : Unheard id before)
    (unknown : id ∉ before.stores.issued) : isRelied before id = false := by
  rw [Bool.eq_false_iff]
  intro relied
  rcases isRelied_iff.mp relied with uploaded | reading | ⟨_, pending⟩
  · obtain ⟨row, found, _⟩ := isUploaded_iff.mp uploaded
    exact unknown (served.outbox.issued id row found)
  · obtain ⟨execution, member, named, reads⟩ := isReading_iff.mp reading
    have coherent := served.snapshots.executions execution member
    rcases (Bool.or_eq_true _ _).mp (Bool.and_eq_true_iff.mp reads).2 with probing | running
    · have nothing := unheard.executions execution member named
      generalize execution.phase = phase at probing nothing
      cases phase <;> first | (cases probing; done) | cases nothing
    · obtain ⟨upload, there, _⟩ := (Option.any_eq_true _ _).mp running
      have claimed := (coherent.uploading upload there).1
      exact unknown (named ▸ served.claims.known execution member claimed)
  · obtain ⟨row, found, _⟩ := isPending_iff.mp pending
    exact unknown (served.outbox.issued id row found)

theorem Unheard.someCall {state : State} (unheard : Unheard id state)
    {property : CompletionPhase → Bool}
    (blank : ∀ phase : CompletionPhase, phase.video? = none → property phase = false ∨
      phase.rejects = true ∨ phase.accepts = true) : Service.someCall state id property = false := by
  rw [Bool.eq_false_iff]
  intro holds
  obtain ⟨completion, member, named, there⟩ := someCall_iff.mp holds
  obtain ⟨video, rejects, accepts⟩ := unheard.completions completion member named
  rcases blank _ video with same | same | same
  · rw [same] at there
    cases there
  · rw [same] at rejects
    cases rejects
  · rw [same] at accepts
    cases accepts

/-- A new id, of which the row is pending if there is one. -/
theorem Trusted.of_unheard (served : Served before) (older : Unheard id before)
    (unknown : id ∉ before.stores.issued) (stepped : Service.step before event = some after)
    (declares : Declares id format after)
    (keyed : ∀ completion ∈ before.completions, ∀ video,
      completion.phase.video? = some video → Keyed completion.id video) :
    Trusted id format after := by
  have unheard := older.step served unknown stepped
  have idle := not_isRelied_of_unissued served older unknown
  have contradiction : isRelied before id ≠ true := by simp [idle]
  have passed : someCall after id CompletionPhase.passed = false := unheard.someCall fun phase => by
    cases phase <;> simp [CompletionPhase.video?, CompletionPhase.passed]
  have measured : someCall after id CompletionPhase.measured = false :=
    unheard.someCall fun phase => by
      cases phase <;> simp [CompletionPhase.video?, CompletionPhase.measured]
  refine ⟨declares, fun relied => ?_, fun holds => ?_⟩
  · exfalso
    rcases isRelied_iff.mp relied with uploaded | reading | ⟨through, _⟩
    · rcases isUploaded_of_step keyed (step_effect stepped) uploaded with there | there
      · exact contradiction (isRelied_iff.mpr (.inl there))
      · exact contradiction (isRelied_iff.mpr (.inr (.inr there)))
    · rcases isReading_of_step served.snapshots stepped reading with there | there
      · exact contradiction (isRelied_iff.mpr (.inr (.inl there)))
      · exact contradiction (isRelied_iff.mpr (.inl there))
    · rw [passed] at through
      cases through
  · rw [isMeasured, measured] at holds
    cases holds

structure Trusts (state : State) : Prop where
  trusted : ∀ id ∈ state.stores.issued, ∃ format, Trusted id format state
  unheard : ∀ id, id ∉ state.stores.issued → Unheard id state

theorem Trusts.initial (now : Instant) : Trusts (State.initial now) where
  trusted _ member := absurd member List.not_mem_nil
  unheard _ _ := ⟨fun _ member => absurd member List.not_mem_nil,
    fun _ member => absurd member List.not_mem_nil⟩

theorem Trusts.keyed {state : State} (trusts : Trusts state) :
    ∀ completion ∈ state.completions, ∀ video,
      completion.phase.video? = some video → Keyed completion.id video := by
  intro completion member video remembers
  by_cases known : completion.id ∈ state.stores.issued
  · obtain ⟨format, trusted⟩ := trusts.trusted completion.id known
    exact (trusted.declares.completions completion member rfl video remembers).1
  · rw [((trusts.unheard completion.id known).completions completion member rfl).1] at remembers
    cases remembers

theorem Trusts.step (trusts : Trusts before) (served : Served before)
    (vetted : Vetted before event) (stepped : Service.step before event = some after) :
    Trusts after := by
  refine ⟨fun id known => ?_, fun id unknown => ?_⟩
  · by_cases older : id ∈ before.stores.issued
    · obtain ⟨format, trusted⟩ := trusts.trusted id older
      exact ⟨format, trusted.step served trusts.keyed vetted stepped⟩
    · have unheard := trusts.unheard id older
      obtain ⟨format, declares⟩ := (unheard.step served older stepped).declares known
      exact ⟨format, .of_unheard served unheard older stepped declares trusts.keyed⟩
  · have older : id ∉ before.stores.issued := fun member =>
      unknown ((step_effect stepped).rows.issued_subset member)
    exact (trusts.unheard id older).step served older stepped

theorem trusts_of_reaches {now : Instant} {state : State}
    (reached : Reaches step Vetted (State.initial now) state) : Served state ∧ Trusts state :=
  reached.preserves (fun state => Served state ∧ Trusts state) ⟨.initial now, .initial now⟩
    fun holds permitted stepped =>
      ⟨holds.1.step (step_effect stepped), holds.2.step holds.1 permitted stepped⟩

/-- In every vetted run, what the worker reads as the original of a video it has seen
a row of is of an allowed size and has a header of the row's format. -/
theorem worker_reads_validated {now : Instant} {seen state : State}
    (first : Reaches step Vetted (State.initial now) seen) (later : Reaches step Vetted seen state)
    {row : Video} (found : seen.stores.videos.find? id = some row)
    {execution : Execution} (member : execution ∈ state.executions) (named : execution.id = id)
    (reads : execution.reads = true)
    {object : Object} (there : state.stores.objects.find? row.uploadKey = some object) :
    object.body.size ≤ MAX_UPLOAD_SIZE_BYTES ∧
    (object.body.range 0 (FILE_SIGNATURE_READ_BYTES - 1)).map row.format.validateSignature =
      some true := by
  obtain ⟨served, trusts⟩ := trusts_of_reaches first
  obtain ⟨format, trusted⟩ := trusts.trusted id (served.outbox.issued id row found)
  obtain rfl := trusted.declares.row row found
  have holds : (Served state ∧ Trusts state) ∧ Trusted id row.format state := by
    refine later.preserves (fun state => (Served state ∧ Trusts state) ∧ Trusted id row.format state)
      ⟨⟨served, trusts⟩, trusted⟩ fun holds permitted stepped => ?_
    obtain ⟨⟨served, trusts⟩, trusted⟩ := holds
    exact ⟨⟨served.step (step_effect stepped), trusts.step served permitted stepped⟩,
      trusted.step served trusts.keyed permitted stepped⟩
  have relied : isRelied state id = true :=
    isRelied_iff.mpr (.inr (.inl (isReading_iff.mpr ⟨execution, member, named, reads⟩)))
  have accepted := holds.2.relied relied object.body
    (original_of_keyed (served.snapshots.rows id row found) there)
  obtain ⟨small, valid⟩ := Bool.and_eq_true_iff.mp accepted
  have bounded := of_decide_eq_false ((Bool.not_eq_true' _).mp small)
  exact ⟨Nat.le_of_not_lt bounded, of_decide_eq_true valid⟩

/-- Whether the first execution reads, and what a test says of the row and the object. -/
def readsOriginal (state : State) (id : VideoId) (check : Video → Object → Bool) : Bool :=
  (state.stores.videos.find? id).any fun row =>
    (state.executions[0]?).any fun execution => decide (execution.id = id) && execution.reads &&
      (state.stores.objects.find? row.uploadKey).any (check row)

theorem readsOriginal_iff {state : State} {check : Video → Object → Bool} :
    readsOriginal state id check = true ↔ ∃ row execution object,
      state.stores.videos.find? id = some row ∧ execution ∈ state.executions.head? ∧
      execution.id = id ∧ execution.reads = true ∧
      state.stores.objects.find? row.uploadKey = some object ∧ check row object = true := by
  simp [readsOriginal, Option.any_eq_true, and_assoc, List.head?_eq_getElem?]

theorem worker_reads_validated_claimedVideo : ∃ state row object,
    Reaches step Vetted (State.initial 0) state ∧
    state.stores.videos.find? ⟨.ofNat 7⟩ = some row ∧
    state.stores.objects.find? row.uploadKey = some object ∧
    object.body.size ≤ MAX_UPLOAD_SIZE_BYTES ∧
    (object.body.range 0 (FILE_SIGNATURE_READ_BYTES - 1)).map row.format.validateSignature =
      some true := by
  have passed : ((run step Vetted (State.initial 0)
      (claimedVideo ⟨.ofNat 7⟩ ⟨.ofNat 8⟩)).map fun state =>
        readsOriginal state ⟨.ofNat 7⟩ fun _ _ => true) = some true := by decide
  obtain ⟨state, reached, passed⟩ := reaches_of_check _ passed
  obtain ⟨row, execution, object, found, first, named, reads, there, _⟩ :=
    readsOriginal_iff.mp passed
  exact ⟨state, row, object, reached, found, there, worker_reads_validated reached .refl found
    (List.mem_of_mem_head? first) named reads there⟩

/-- The accepted upload is replaced before the worker looks at it. -/
def replacedOriginal (id : VideoId) (task : TaskId) : List Event :=
  completedUpload id task ++ [.putOriginal id .mkv "video/x-matroska" blankBody,
    .startExecution task id, .execution 0 (.call .none), .execution 0 (.call .none)]

theorem replacedOriginal_read : ∃ state row execution object,
    Reaches step Anything (State.initial 0) state ∧
    state.stores.videos.find? ⟨.ofNat 7⟩ = some row ∧ execution ∈ state.executions ∧
    execution.id = ⟨.ofNat 7⟩ ∧ execution.reads = true ∧
    state.stores.objects.find? row.uploadKey = some object ∧
    (object.body.range 0 (FILE_SIGNATURE_READ_BYTES - 1)).map row.format.validateSignature =
      some false := by
  have passed : ((run step Anything (State.initial 0)
      (replacedOriginal ⟨.ofNat 7⟩ ⟨.ofNat 8⟩)).map fun state =>
        readsOriginal state ⟨.ofNat 7⟩ fun row object => decide
          ((object.body.range 0 (FILE_SIGNATURE_READ_BYTES - 1)).map row.format.validateSignature =
            some false)) = some true := by decide
  obtain ⟨state, reached, passed⟩ := reaches_of_check _ passed
  obtain ⟨row, execution, object, found, first, named, reads, there, refused⟩ :=
    readsOriginal_iff.mp passed
  exact ⟨state, row, execution, object, reached, found, List.mem_of_mem_head? first, named, reads,
    there, of_decide_eq_true refused⟩

end Benri.Service
