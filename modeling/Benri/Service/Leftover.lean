import Benri.Service.Delivered
import Benri.Service.Guards

namespace Benri.Service

open Benri.Data Benri.Domain Benri.Postgres Benri.Storage Benri.Transcoder Benri.Transition

/-! # A leftover original

The handler that finished a video deletes its original, once, and only logs a
failure to.  Neither query of a sweep selects a finished video, so no sweep makes
up for it.
-/

/-- The videos that a sweep has selected so far. -/
def SweepPhase.selected : SweepPhase → List Video
  | .findFailed _ stale => stale
  | .markFailed stale failed | .schedule stale failed => stale ++ failed
  | .findStale _ | .returned _ | .cut => []

/-- Nobody has set about deleting the video, or is about to turn it down. -/
structure Unpursued (id : VideoId) (state : State) : Prop where
  scheduled : isScheduled state.stores id = false
  deletions : ∀ deletion ∈ state.deletions, deletion.id ≠ id
  sweeps : ∀ phase ∈ state.sweeps, ∀ video ∈ phase.selected, video.id ≠ id
  completions : ∀ completion ∈ state.completions, ∀ video ∈ completion.phase.video?,
    video.id ≠ id

instance (id : VideoId) (state : State) : Decidable (Unpursued id state) :=
  decidable_of_iff (isScheduled state.stores id = false ∧
    (∀ deletion ∈ state.deletions, deletion.id ≠ id) ∧
    (∀ phase ∈ state.sweeps, ∀ video ∈ phase.selected, video.id ≠ id) ∧
    ∀ completion ∈ state.completions, ∀ video ∈ completion.phase.video?, video.id ≠ id)
    ⟨fun ⟨scheduled, deletions, sweeps, completions⟩ =>
      ⟨scheduled, deletions, sweeps, completions⟩,
    fun ⟨scheduled, deletions, sweeps, completions⟩ =>
      ⟨scheduled, deletions, sweeps, completions⟩⟩

/-- The uploader does not put the original again. -/
def Unreplaced (video : Video) (_ : State) : Event → Prop
  | .putOriginal id format _ _ => ¬(id = video.id ∧ format = video.format)
  | _ => True

instance (video : Video) (state : State) (event : Event) :
    Decidable (Unreplaced video state event) :=
  match event with
  | .putOriginal id format _ _ =>
      inferInstanceAs (Decidable (¬(id = video.id ∧ format = video.format)))
  | .advance _ | .initiate .. | .tasks _ | .startCompletion _ | .completion .. | .startExecution ..
  | .execution .. | .startSweep | .sweep .. | .startDeletion .. | .deletion .. =>
      inferInstanceAs (Decidable True)

/-- The original is gone, while the `PROCESSED` row and the output are as they were. -/
structure Collected (video : Video) (before final : State) : Prop where
  row : ∃ row, before.stores.videos.find? video.id = some row ∧ row.status = .processed ∧
    final.stores.videos.find? video.id = some row
  output : OutputSame video.id before.stores.objects final.stores.objects
  original : final.stores.objects.find? video.uploadKey = none

/-! ## The queries -/

variable {stores reached : Stores} {id : VideoId} {row : Video}

/-- Neither query selects a finished video. -/
theorem unselected_of_processed (found : stores.videos.find? id = some row)
    (processed : row.status = .processed) {threshold : Instant} {video : Video}
    (selected : video ∈ findStale stores.videos threshold ++
      findFailedBefore stores.videos threshold) : video.id ≠ id := by
  rintro rfl
  rcases List.mem_append.mp selected with stale | failed
  · obtain ⟨member, condition⟩ := List.mem_filter.mp stale
    rw [Table.mem_iff_find?.mp member] at found
    cases found
    simp [processed] at condition
  · obtain ⟨member, condition⟩ := List.mem_filter.mp failed
    rw [Table.mem_iff_find?.mp member] at found
    cases found
    simp [processed] at condition

theorem sweepSchedule_selected {stale failed : List Video} {video : Video}
    (selected : video ∈ (sweepSchedule stale failed).selected) : video ∈ stale ++ failed := by
  unfold sweepSchedule at selected
  split at selected
  · cases selected
  · exact selected

/-- What a sweep has selected it had before, or its queries have found. -/
theorem sweepStep_selected {phase next : SweepPhase} {inner : SweepEvent}
    (stepped : sweepStep stores phase inner = some (reached, next)) {video : Video}
    (selected : video ∈ next.selected) :
    video ∈ phase.selected ∨ ∃ threshold, video ∈ findStale stores.videos threshold ++
      findFailedBefore stores.videos threshold := by
  have queried : ∀ threshold stale, video ∈ stale ++ findFailedBefore stores.videos threshold →
      video ∈ stale ∨ ∃ threshold, video ∈ findStale stores.videos threshold ++
        findFailedBefore stores.videos threshold := fun threshold stale either =>
    (List.mem_append.mp either).imp_right fun new => ⟨threshold, List.mem_append_right _ new⟩
  cases sweepStep_turn stepped with
  | foundStale threshold => exact .inr ⟨threshold, List.mem_append_left _ selected⟩
  | foundFailed threshold stale => exact queried threshold stale selected
  | foundNoneStuck threshold stale =>
      exact queried threshold stale (sweepSchedule_selected selected)
  | marked stale failed next answered =>
      rcases answered with rfl | ⟨error, rfl⟩
      · exact .inl (sweepSchedule_selected selected)
      · cases selected
  | scheduled stale failed seeds tasks next enough inserted answered =>
      rcases answered with rfl | ⟨error, rfl⟩ <;> cases selected
  | gaveUp | cut => cases selected

/-! ## The finished video -/

/-- A finished video that everybody leaves alone: its handler is done, and the
output and the original are as they were in `objects`. -/
structure LeftAlone (row : Video) (format : VideoFormat) (objects : Objects) (state : State) :
    Prop where
  found : state.stores.videos.find? row.id = some row
  unpursued : Unpursued row.id state
  finished : ∀ execution ∈ state.executions, execution.id = row.id → execution.claimed = true →
    execution.phase.over = true ∧ ∀ upload, execution.upload = some upload → Finished upload
  output : OutputSame row.id objects state.stores.objects
  original : state.stores.objects.find? (originalKey row.id format) =
    objects.find? (originalKey row.id format)

section Step

variable {before after : State} {event : Event} {format : VideoFormat} {objects : Objects}

/-- Only a handler that is under way schedules the deletion of its video. -/
theorem LeftAlone.unscheduled (left : LeftAlone row format objects before)
    (snapshots : Snapshots before) (effect : Effect before event after) :
    isScheduled after.stores row.id = false := by
  refine Bool.eq_false_iff.mpr fun scheduled => ?_
  rcases effect.scheduled_by scheduled with older | schedules
  · rw [left.unpursued.scheduled] at older
    cases older
  cases schedules with
  | rejected index fault seed completion video error slot phase named =>
      exact left.unpursued.completions completion (List.mem_of_getElem? slot) video
        (by rw [phase]; rfl) named
  | failed index fault seed execution video slot phase named =>
      have member := List.mem_of_getElem? slot
      have coherent := snapshots.executions execution member
      have mine : video.id = execution.id := (coherent.video video (by rw [phase]; rfl)).1
      have closed := (left.finished execution member (mine.symm.trans named)
        (coherent.claimed (by rw [phase]; rfl))).1
      rw [phase] at closed
      cases closed
  | swept index fault seeds stale failed video slot selected named =>
      exact left.unpursued.sweeps _ (List.mem_of_getElem? slot) video selected named

theorem LeftAlone.sweeps (left : LeftAlone row format objects before)
    (processed : row.status = .processed) (stepped : step before event = some after) :
    ∀ phase ∈ after.sweeps, ∀ video ∈ phase.selected, video.id ≠ row.id := by
  have older := left.unpursued.sweeps
  cases step_effect stepped with
  | startSweep => exact forall_mem_snoc older fun _ selected => by cases selected
  | sweep index inner _ _ _ _ _ =>
      obtain ⟨phase, next, slot, advanced, sweeps⟩ := sweep_of_step stepped
      rw [sweeps]
      refine forall_mem_set older fun video selected => ?_
      rcases sweepStep_selected advanced selected with before | ⟨threshold, found⟩
      · exact older phase (List.mem_of_getElem? slot) video before
      · exact unselected_of_processed left.found processed found
  | advance | unborn | born | original | tasks | startCompletion | completion | startExecution |
    execution | startDeletion | deletion => exact older

theorem CompletionMove.pursues {completion : Completion} {next : CompletionPhase}
    (move : CompletionMove stores completion next) (found : stores.videos.find? id = some row)
    (processed : row.status = .processed)
    (older : ∀ video ∈ completion.phase.video?, video.id ≠ id) :
    ∀ video ∈ next.video?, video.id ≠ id := by
  intro video held
  cases move with
  | loaded other _ there pending =>
      cases held
      rintro rfl
      rw [Table.key_of_find? there, there] at found
      cases found
      rw [processed] at pending
      cases pending
  | measured other object phase | oversized other object phase | signed other object phase
    | unsigned other object phase =>
      cases held
      exact older video (by rw [phase]; rfl)
  | ended | cut => cases held

theorem LeftAlone.completions (left : LeftAlone row format objects before)
    (processed : row.status = .processed) (stepped : step before event = some after) :
    ∀ completion ∈ after.completions, ∀ video ∈ completion.phase.video?, video.id ≠ row.id := by
  have older := left.unpursued.completions
  cases step_effect stepped with
  | startCompletion id => exact forall_mem_snoc older fun _ held => by cases held
  | completion index inner _ _ _ _ _ =>
      obtain ⟨completion, next, slot, verdict, completions⟩ := completion_of_step stepped
      rw [completions]
      refine forall_mem_set older ?_
      cases verdict with
      | moved _ move =>
          exact move.pursues left.found processed (older completion (List.mem_of_getElem? slot))
      | rejected => exact fun _ held => by cases held
      | accepted _ _ _ _ _ _ _ answered =>
          rcases answered with rfl | ⟨message, rfl⟩ <;> exact fun _ held => by cases held
  | advance | unborn | born | original | tasks | startExecution | execution | startSweep | sweep |
    startDeletion | deletion => exact older

theorem LeftAlone.deletions (left : LeftAlone row format objects before)
    (effect : Effect before event after) : ∀ deletion ∈ after.deletions, deletion.id ≠ row.id := by
  have older := left.unpursued.deletions
  cases effect with
  | startDeletion task id scheduled found named =>
      refine forall_mem_snoc older ?_
      rintro rfl
      have hit : isScheduled before.stores row.id = true :=
        List.any_eq_true.mpr ⟨scheduled, Table.mem_of_find? found, named⟩
      rw [left.unpursued.scheduled] at hit
      cases hit
  | deletion index event deletion next stores slot effect =>
      exact forall_mem_set older (older deletion (List.mem_of_getElem? slot))
  | advance | unborn | born | original | tasks | startCompletion | completion | startExecution |
    execution | startSweep | sweep => exact older

/-- A handler that is done leaves its upload as it is. -/
theorem ExecutionEffect.finished_kept {execution next : Execution} {inner : ExecutionEvent}
    (effect : ExecutionEffect stores execution inner reached next)
    (closed : execution.phase.over = true)
    (finished : ∀ upload, execution.upload = some upload → Finished upload) :
    ∀ upload, next.upload = some upload → Finished upload := by
  intro upload there
  cases effect with
  | quiet _ advance =>
      cases advance with
      | spawned video hasAudio raw phase | joined video result older pipeline phase =>
          rw [phase] at closed
          cases closed
      | cut =>
          obtain ⟨older, before, rfl⟩ := Option.map_eq_some_iff.mp there
          exact ⟨(finished older before).ended, (finished older before).returned⟩
      | loaded | ended | probed | failing | unspawned | signalled | silenced | ready | killed =>
          exact finished upload there
  | claimed _ _ _ _ _ _ answered =>
      rcases answered with rfl | ⟨error, rfl⟩ <;> exact finished upload there
  | uploaded running after objects event before stepped =>
      cases there
      exact ((finished running before).step (uploadStep_effect stepped)).2
  | published | finalized | cleaned | failed => exact finished upload there

theorem LeftAlone.finished_step (left : LeftAlone row format objects before)
    (processed : row.status = .processed) (served : Served before)
    (stepped : step before event = some after) :
    ∀ execution ∈ after.executions, execution.id = row.id → execution.claimed = true →
      execution.phase.over = true ∧
        ∀ upload, execution.upload = some upload → Finished upload := by
  rcases executions_of_step stepped with
    executions | ⟨id, executions⟩ |
      ⟨index, inner, execution, next, rfl, slot, advanced, executions⟩
  all_goals rw [executions]
  · exact left.finished
  · exact forall_mem_snoc left.finished fun _ claimed => by cases claimed
  · have inside := List.mem_of_getElem? slot
    have coherent := served.snapshots.executions execution inside
    have effect := executionStep_effect advanced
    refine forall_mem_set left.finished fun named claimed => ?_
    rw [(effect.extends coherent).id] at named
    rcases effect.gains coherent claimed with older | ⟨other, found, uploaded, _⟩
    · obtain ⟨closed, finished⟩ := left.finished execution inside named older
      exact ⟨effect.over closed, effect.finished_kept closed finished⟩
    · rw [named, left.found] at found
      cases found
      rw [processed] at uploaded
      cases uploaded

theorem LeftAlone.output_step (left : LeftAlone row format objects before) (served : Served before)
    (effect : Effect before event after) : OutputSame row.id objects after.stores.objects := by
  intro key covered
  rw [← left.output key covered]
  cases effect.output served.snapshots row.id with
  | same same => exact same key covered
  | uploaded index execution upload uploadAfter uploadEvent _ slot named uploading stepped =>
      have member := List.mem_of_getElem? slot
      have claimed := ((served.snapshots.executions execution member).uploading upload uploading).1
      have finished := (left.finished execution member named claimed).2 upload uploading
      rw [(finished.step (uploadStep_effect stepped)).1]
  | deleted index deletion video fault kept _ slot named =>
      exact absurd named (left.unpursued.deletions deletion (List.mem_of_getElem? slot))

theorem LeftAlone.original_step {video : Video} (left : LeftAlone row video.format objects before)
    (named : video.id = row.id) (served : Served before)
    (permitted : Unreplaced video before event) (effect : Effect before event after) :
    after.stores.objects.find? (originalKey row.id video.format) =
      objects.find? (originalKey row.id video.format) := by
  rw [← left.original]
  cases effect with
  | original owner ownerFormat contentType body =>
      refine (find?_uploadBytes _ _ _ _ _).trans (if_neg fun same => permitted ?_)
      rw [named]
      exact originalKey_inj.mp same
  | execution index event execution next stores slot effect =>
      have member := List.mem_of_getElem? slot
      have coherent := served.snapshots.executions execution member
      cases effect with
      | cleaned other result phase =>
          have key := (coherent.video other (by rw [phase]; rfl)).2
          refine (find?_deleteObject _ _ _).trans (if_neg fun same => ?_)
          have mine := originalKey_video (key.symm.trans same)
          have closed := (left.finished execution member mine
            (coherent.claimed (by rw [phase]; rfl))).1
          rw [phase] at closed
          cases closed
      | uploaded upload after objects uploadEvent uploading stepped =>
          exact find?_original_upload (coherent.uploading upload uploading).2
            (uploadStep_effect stepped)
      | quiet | claimed | published | finalized | failed => rfl
  | deletion index event deletion next stores slot effect =>
      have member := List.mem_of_getElem? slot
      exact effect.original_kept (served.snapshots.deletions deletion member)
        (left.unpursued.deletions deletion member) video.format
  | completion index event completion stores next slot effect => cases effect <;> rfl
  | sweep index event phase next stores slot effect => cases effect <;> rfl
  | advance | unborn | born | tasks | startCompletion | startExecution | startSweep |
    startDeletion => rfl

theorem LeftAlone.step {video : Video} (left : LeftAlone row video.format objects before)
    (processed : row.status = .processed) (named : video.id = row.id) (served : Served before)
    (permitted : Unreplaced video before event) (stepped : Service.step before event = some after) :
    LeftAlone row video.format objects after := by
  have effect := step_effect stepped
  refine ⟨effect.processed_kept served left.unpursued.deletions left.found processed, ?_,
    left.finished_step processed served stepped, left.output_step served effect,
    left.original_step named served permitted effect⟩
  exact ⟨left.unscheduled served.snapshots effect, left.deletions effect,
    left.sweeps processed stepped, left.completions processed stepped⟩

end Step

/-! ## After the failure -/

/-- What the failing `delete_object` leaves. -/
def failedDelete (objects : Objects) (applied : Bool) (key : String) : Objects :=
  if applied then deleteObject objects key else objects

theorem failedCleanup {before after : State} {index : Nat} {execution : Execution} {video : Video}
    {applied : Bool} {message : String} (slot : before.executions[index]? = some execution)
    (phase : execution.phase = .cleanupOriginal video)
    (failed : step before (.execution index (.call (.error applied message))) = some after) :
    after.stores = { before.stores with
      objects := failedDelete before.stores.objects applied video.uploadKey } ∧
    after.executions = before.executions.set index { execution with phase := .returned (.ok ()) } ∧
    after.completions = before.completions ∧ after.sweeps = before.sweeps ∧
    after.deletions = before.deletions := by
  obtain ⟨⟨stores, slots⟩, moved, rfl⟩ := Option.map_eq_some_iff.mp failed
  obtain ⟨other, next, found, advanced, rfl⟩ := slotStep_eq_some moved
  cases slot.symm.trans found
  have alive := executionStep_alive advanced
  rw [executionStep, if_pos alive] at advanced
  simp only [executionCall, phase, cleanupOriginalInline, attempt] at advanced
  cases advanced
  refine ⟨?_, rfl, rfl, rfl, rfl⟩
  cases applied <;> rfl

/-- The failing call leaves a finished video alone. -/
theorem leftAlone_of_failed {before after : State} {index : Nat} {execution : Execution}
    {video row : Video} {applied : Bool} {message : String} (served : Served before)
    (cleanup : Cleanup before) (slot : before.executions[index]? = some execution)
    (phase : execution.phase = .cleanupOriginal video)
    (found : before.stores.videos.find? row.id = some row) (named : video.id = row.id)
    (unpursued : Unpursued row.id before)
    (failed : step before (.execution index (.call (.error applied message))) = some after) :
    LeftAlone row video.format after.stores.objects after := by
  obtain ⟨stores, executions, completions, sweeps, deletions⟩ := failedCleanup slot phase failed
  have inside := List.mem_of_getElem? slot
  have coherent := served.snapshots.executions execution inside
  have mine : video.id = execution.id := (coherent.video video (by rw [phase]; rfl)).1
  have claimed := coherent.claimed (by rw [phase]; rfl)
  have finished := cleanup.delivered execution inside (by rw [phase]; rfl)
  refine ⟨by rw [stores]; exact found, ⟨?_, ?_, ?_, ?_⟩, ?_, .refl _ _, rfl⟩
  · rw [stores]
    exact unpursued.scheduled
  · rw [deletions]
    exact unpursued.deletions
  · rw [sweeps]
    exact unpursued.sweeps
  · rw [completions]
    exact unpursued.completions
  · intro other member owner holds
    rw [executions] at member
    obtain ⟨place, there⟩ := List.mem_iff_getElem?.mp member
    rcases getElem?_set_cases there with ⟨_, rfl⟩ | ⟨different, there⟩
    · exact ⟨rfl, finished⟩
    · refine absurd ?_ different
      exact served.claims.once row.id place index other execution there slot ⟨holds, owner⟩
        ⟨claimed, mine.symm.trans named⟩

/-- No sweep ever selects a video whose inline deletion of the original failed: in
every later state, whatever sweeps and tasks have run, the original is gone exactly
if it was when the failing call had been made. -/
theorem leftover_collected_iff {now : Instant} {before after final : State} {index : Nat}
    {execution : Execution} {video : Video} {applied : Bool} {message : String}
    (reached : Reaches step Anything (State.initial now) before)
    (slot : before.executions[index]? = some execution)
    (phase : execution.phase = .cleanupOriginal video) (unpursued : Unpursued video.id before)
    (failed : step before (.execution index (.call (.error applied message))) = some after)
    (continued : Reaches step (Unreplaced video) after final) :
    (∀ threshold, ∀ row ∈ findStale final.stores.videos threshold ++
      findFailedBefore final.stores.videos threshold, row.id ≠ video.id) ∧
    (Collected video before final ↔
      applied = true ∨ before.stores.objects.find? video.uploadKey = none) := by
  obtain ⟨served, cleanup⟩ := cleanup_of_reaches reached
  have inside := List.mem_of_getElem? slot
  have coherent := served.snapshots.executions execution inside
  have keyed : Keyed execution.id video := coherent.video video (by rw [phase]; rfl)
  have present := cleanup.present execution inside (coherent.claimed (by rw [phase]; rfl))
    (keyed.1 ▸ unpursued.scheduled)
  obtain ⟨row, found⟩ := Option.isSome_iff_exists.mp present
  have processed := (cleanup.processed execution inside video phase).held row found
  have named : video.id = row.id := keyed.1.trans (Table.key_of_find? found).symm
  rw [← keyed.1, named] at found
  have start := leftAlone_of_failed served cleanup slot phase found named (named ▸ unpursued) failed
  have servedAfter := served.step (step_effect failed)
  obtain ⟨_, left⟩ : Served final ∧ LeftAlone row video.format after.stores.objects final := by
    refine continued.preserves (fun state => Served state ∧
      LeftAlone row video.format after.stores.objects state) ⟨servedAfter, start⟩ ?_
    intro _ _ _ holds permitted stepped
    exact ⟨holds.1.step (step_effect stepped),
      holds.2.step processed named holds.1 permitted stepped⟩
  have objects := congrArg Stores.objects (failedCleanup slot phase failed).1
  have key : originalKey row.id video.format = video.uploadKey := by
    rw [keyed.2, ← named, keyed.1]
  have original := left.original
  rw [key, objects] at original
  refine ⟨fun threshold other selected => ?_, fun collected => ?_, fun gone => ?_⟩
  · rw [named]
    exact unselected_of_processed left.found processed selected
  · have none := original.symm.trans collected.original
    cases applied with
    | true => exact .inl rfl
    | false => exact .inr none
  · refine ⟨⟨row, named ▸ found, processed, named ▸ left.found⟩, ?_, original.trans ?_⟩
    · rw [named]
      intro key covered
      rw [left.output key covered, objects]
      cases applied with
      | true => exact OutputSame.delete_original row.id keyed _ key covered
      | false => rfl
    · rcases gone with rfl | none
      · exact (find?_deleteObject _ _ _).trans (if_pos rfl)
      · cases applied with
        | true => exact (find?_deleteObject _ _ _).trans (if_pos rfl)
        | false => exact none

/-! ## A sweep that finds nothing -/

/-- The inline deletion fails, and a sweep runs more than 24 hours later. -/
def failedInline : ExecutionEvent := .call (.error false "connection reset")

def laterSweep : List Event :=
  [.advance (STALE_VIDEO_AGE + 1), .startSweep, .sweep 0 (.call .none), .sweep 0 (.call .none)]

def sweptWithoutTasks (state : State) : Bool :=
  state.sweeps[0]?.any fun phase =>
    match phase with
    | .returned (.ok stats) => decide (stats = ⟨0, 0, 0⟩)
    | _ => false

def beforeCleanup (state : State) (video : Video) : Bool :=
  state.executions[0]?.any fun execution =>
    match execution.phase with
    | .cleanupOriginal held => decide (held = video)
    | _ => false

/-- The video as its handler read it. -/
def handledVideo : Video :=
  { newVideo (.initial 0) ⟨.ofNat 7⟩ "a title" .mkv with status := .uploaded }

theorem leftover_run : ∃ before after final,
    Reaches step Anything (State.initial 0) before ∧ beforeCleanup before handledVideo = true ∧
    Unpursued handledVideo.id before ∧ step before (.execution 0 failedInline) = some after ∧
    Reaches step (Unreplaced handledVideo) after final ∧ sweptWithoutTasks final = true ∧
    isProcessed final.stores handledVideo.id = true ∧
    handledVideo.createdAt + STALE_VIDEO_AGE < final.stores.now ∧
    (final.stores.objects.find? handledVideo.uploadKey).isSome = true := by
  have passed : ((run step Anything (State.initial 0)
      (processedVideo ⟨.ofNat 7⟩ ⟨.ofNat 8⟩ "token")).map fun before =>
        beforeCleanup before handledVideo && decide (Unpursued handledVideo.id before) &&
        (step before (.execution 0 failedInline)).any fun after =>
          (run step (Unreplaced handledVideo) after laterSweep).any fun final =>
            sweptWithoutTasks final && isProcessed final.stores handledVideo.id &&
            decide (handledVideo.createdAt + STALE_VIDEO_AGE < final.stores.now) &&
            (final.stores.objects.find? handledVideo.uploadKey).isSome) = some true := by decide
  obtain ⟨before, reached, passed⟩ := reaches_of_check _ passed
  obtain ⟨ready, passed⟩ := Bool.and_eq_true_iff.mp passed
  obtain ⟨cleaning, unpursued⟩ := Bool.and_eq_true_iff.mp ready
  obtain ⟨after, failed, passed⟩ := (Option.any_eq_true _ _).mp passed
  obtain ⟨final, ran, passed⟩ := (Option.any_eq_true _ _).mp passed
  obtain ⟨passed, stored⟩ := Bool.and_eq_true_iff.mp passed
  obtain ⟨passed, old⟩ := Bool.and_eq_true_iff.mp passed
  obtain ⟨swept, processed⟩ := Bool.and_eq_true_iff.mp passed
  exact ⟨before, after, final, reached, cleaning, of_decide_eq_true unpursued, failed,
    reaches_of_run _ ran, swept, processed, of_decide_eq_true old, stored⟩

theorem beforeCleanup_slot {state : State} {video : Video}
    (cleaning : beforeCleanup state video = true) :
    ∃ execution, state.executions[0]? = some execution ∧
      execution.phase = .cleanupOriginal video := by
  obtain ⟨execution, slot, held⟩ := (Option.any_eq_true _ _).mp cleaning
  refine ⟨execution, slot, ?_⟩
  split at held
  · rename_i phase
    rw [phase, of_decide_eq_true held]
  · cases held

theorem leftover_collected_iff_laterSweep : ∃ before after final,
    Reaches step Anything (State.initial 0) before ∧
    step before (.execution 0 failedInline) = some after ∧
    Reaches step (Unreplaced handledVideo) after final ∧
    (Collected handledVideo before final ↔
      false = true ∨ before.stores.objects.find? handledVideo.uploadKey = none) := by
  obtain ⟨before, after, final, reached, cleaning, unpursued, failed, continued, _⟩ := leftover_run
  obtain ⟨execution, slot, phase⟩ := beforeCleanup_slot cleaning
  exact ⟨before, after, final, reached, failed, continued,
    (leftover_collected_iff reached slot phase unpursued failed continued).2⟩

/-- The sweep succeeds and schedules nothing, and the original is still there. -/
theorem leftover_survives_sweep : ∃ before after final execution,
    Reaches step Anything (State.initial 0) before ∧
    before.executions[0]? = some execution ∧ execution.phase = .cleanupOriginal handledVideo ∧
    Unpursued handledVideo.id before ∧ step before (.execution 0 failedInline) = some after ∧
    Reaches step (Unreplaced handledVideo) after final ∧
    sweptWithoutTasks final = true ∧ isProcessed final.stores handledVideo.id = true ∧
    handledVideo.createdAt + STALE_VIDEO_AGE < final.stores.now ∧
    ¬Collected handledVideo before final := by
  obtain ⟨before, after, final, reached, cleaning, unpursued, failed, continued, swept, processed,
    old, stored⟩ := leftover_run
  obtain ⟨execution, slot, phase⟩ := beforeCleanup_slot cleaning
  refine ⟨before, after, final, execution, reached, slot, phase, unpursued, failed, continued,
    swept, processed, old, fun collected => ?_⟩
  rw [collected.original] at stored
  cases stored

end Benri.Service
