import Benri.Cdn.Nginx
import Benri.Service.EarlyPublish
import Benri.Service.Outputs
import Benri.Service.Uploads
import Benri.Transcoder.Complete
import Benri.Transition.WriteOnce

namespace Benri.Service

open Benri.Cdn Benri.Data Benri.Domain Benri.Postgres Benri.Storage Benri.Transcoder
  Benri.Transition

/-! # Segments are written once

One execution at most uploads for a video, and an uploader sends a segment once,
whatever becomes of the call.  So an object of the output bucket that is not a playlist
is never replaced, nor stored again after it was deleted.
-/

/-- A key of the output bucket that is cached by the CDN. -/
def Cacheable (key : String) : Prop := under OUTPUT_PREFIX key = true ∧ isPlaylist key = false

/-- The uploader will not write this key any more. -/
def Written (key : String) (_ : VideoId) (upload : Upload) : Prop :=
  ∃ level filename, key = upload.key (.tier level filename) ∧ Spent upload level filename

def Closed (key : String) : State → Prop := SomeUpload (Written key)

theorem written_fact (key : String) : UploadFact (Written key) where
  flags _ written := written
  step written effect := by
    obtain ⟨level, filename, rfl, spent⟩ := written
    exact ⟨level, filename, congrFun effect.key.symm _, spent.step effect⟩

variable {key : String}

/-! ## Who stores -/

theorem isPlaylist_append (front : String) {name : String} (playlist : isPlaylist name = true) :
    isPlaylist (front ++ name) = true := by
  simp only [isPlaylist, List.isSuffixOf_iff_suffix, String.toList_append] at playlist ⊢
  exact playlist.trans (List.suffix_append _ _)

/-- The master and the playlists of the tiers end as the CDN expects of playlists. -/
theorem cacheable_path {outputPrefix : String} {path : OutputPath}
    (cached : isPlaylist (path.key outputPrefix) = false) :
    ∃ level filename, path = .tier level filename ∧ filename ≠ PLAYLIST_FILENAME := by
  cases path with
  | master =>
      have playlist : isPlaylist (OutputPath.master.key outputPrefix) = true :=
        isPlaylist_append _ (by decide)
      rw [playlist] at cached
      cases cached
  | tier level filename =>
      refine ⟨level, filename, rfl, ?_⟩
      rintro rfl
      have playlist : isPlaylist ((OutputPath.tier level PLAYLIST_FILENAME).key outputPrefix) =
          true := isPlaylist_append _ (isPlaylist_append _ (by decide))
      rw [playlist] at cached
      cases cached

theorem originalKey_not_output (id : VideoId) (format : VideoFormat) :
    under OUTPUT_PREFIX (originalKey id format) = false := by
  simp [under, OUTPUT_PREFIX, originalKey, List.isPrefixOf]

/-- A step of the execution's upload, which changes nothing else of it. -/
structure UploadTurn (before after : State) (index : Nat) (execution : Execution)
    (upload next : Upload) (event : UploadEvent) : Prop where
  slot : before.executions[index]? = some execution
  uploading : execution.upload = some upload
  stepped : uploadStep before.stores.objects upload event = some (after.stores.objects, next)
  executions : after.executions = before.executions.set index { execution with upload := some next }

/-- Only an upload stores anything in the output bucket. -/
theorem Effect.output_origin {before after : State} {event : Event}
    (effect : Effect before event after) {object : Object} (output : under OUTPUT_PREFIX key = true)
    (found : after.stores.objects.find? key = some object) :
    before.stores.objects.find? key = some object ∨
      ∃ index execution upload next uploadEvent,
        UploadTurn before after index execution upload next uploadEvent := by
  cases effect with
  | original owner format contentType body =>
      have other : originalKey owner format ≠ key := by
        rintro rfl
        rw [originalKey_not_output] at output
        cases output
      simp only [State.withStores, putOriginalStep, find?_uploadBytes, if_neg other] at found
      exact .inl found
  | execution index event execution next stores slot effect =>
      cases effect with
      | cleaned video result phase =>
          simp only [find?_deleteObject] at found
          split at found
          · cases found
          · exact .inl found
      | uploaded upload after objects uploadEvent uploading stepped =>
          exact .inr ⟨index, execution, upload, after, uploadEvent, slot, uploading, stepped, rfl⟩
      | quiet | claimed | published | finalized | failed => exact .inl found
  | deletion index event deletion next stores slot effect =>
      cases effect with
      | prefixed video kept _ phase answered =>
          simp only [find?_deletePrefix] at found
          split at found
          · cases found
          · exact .inl found
      | objectDeleted video _ phase answered =>
          simp only [find?_deleteObject] at found
          split at found
          · cases found
          · exact .inl found
      | found | ended | rowDeleted => exact .inl found
  | completion index event completion stores next slot effect => cases effect <;> exact .inl found
  | sweep index event phase next stores slot effect => cases effect <;> exact .inl found
  | advance | unborn | born | tasks | startCompletion | startExecution | startSweep |
    startDeletion => exact .inl found

/-- An upload that changes a cacheable key sends that segment. -/
theorem sends_of_changed {objects after : Objects} {upload next : Upload} {event : UploadEvent}
    (cached : isPlaylist key = false)
    (stepped : uploadStep objects upload event = some (after, next))
    (changed : after.find? key ≠ objects.find? key) :
    ∃ level filename, key = upload.key (.tier level filename) ∧ Sends upload level filename := by
  have inside : ∃ path, key = upload.key path := by
    by_contra outside
    exact changed ((uploadStep_effect stepped).elsewhere fun path same => outside ⟨path, same⟩)
  obtain ⟨path, rfl⟩ := inside
  obtain ⟨level, filename, rfl, other⟩ := cacheable_path cached
  exact ⟨level, filename, rfl, sends_of_stored other stepped changed⟩

theorem cacheable_segment (id : VideoId) (level : QualityLevel) {filename : String}
    (segment : IsSegment filename) :
    Cacheable ((OutputPath.tier level filename).key (storagePrefix id)) := by
  obtain ⟨index, rfl⟩ := segment
  refine ⟨by simp [under, OUTPUT_PREFIX, OutputPath.key, storagePrefix], ?_⟩
  rw [Bool.eq_false_iff, isPlaylist, ne_eq, List.isSuffixOf_iff_suffix]
  rintro ⟨front, same⟩
  have last := congrArg List.head? (congrArg List.reverse same)
  simp [OutputPath.key, OutputPath.text, segmentName] at last

/-! ## Closed once stored -/

def Attributed (key : String) (state : State) : Prop :=
  ∀ object, state.stores.objects.find? key = some object → Closed key state

theorem Effect.attributed {before after : State} {event : Event}
    (effect : Effect before event after) (snapshots : Snapshots before) (cacheable : Cacheable key)
    (attributed : Attributed key before) : Attributed key after := by
  intro object found
  have older : before.stores.objects.find? key = some object → Closed key after :=
    fun there => (attributed object there).step (written_fact key) snapshots effect
  rcases effect.output_origin cacheable.1 found with
    there | ⟨index, execution, upload, next, uploadEvent, turn⟩
  · exact older there
  · by_cases changed : after.stores.objects.find? key = before.stores.objects.find? key
    · exact older (changed ▸ found)
    · obtain ⟨level, filename, rfl, sends⟩ := sends_of_changed cacheable.2 turn.stepped changed
      obtain ⟨bound, _⟩ := List.getElem?_eq_some_iff.mp turn.slot
      have acted : ∃ fault removed, uploadEvent = .act fault removed := by
        refine (uploadStep_objects turn.stepped).resolve_left fun same => changed ?_
        rw [same]
      obtain ⟨fault, removed, rfl⟩ := acted
      have moved : next.key = upload.key := (uploadStep_effect turn.stepped).key
      refine ⟨{ execution with upload := some next }, ?_, next, rfl, level, filename, ?_, ?_⟩
      · rw [turn.executions]
        exact List.mem_set bound _
      · rw [moved]
      · exact sends.spent turn.stepped

/-- What an execution has written only deletions touch. -/
theorem Effect.fades {before after : State} {event : Event} (effect : Effect before event after)
    (served : Served before) (cached : isPlaylist key = false) (closed : Closed key before) :
    after.stores.objects.find? key = before.stores.objects.find? key ∨
      after.stores.objects.find? key = none := by
  obtain ⟨execution, member, upload, uploading, level, filename, rfl, spent⟩ := closed
  have claimed : ∀ {other : Execution} {otherUpload : Upload}, other ∈ before.executions →
      other.upload = some otherUpload → other.claimed = true := fun inside there =>
    ((served.snapshots.executions _ inside).uploading _ there).1
  have home := ((served.snapshots.executions execution member).uploading upload uploading).2
  have covered : under (storagePrefix execution.id) (upload.key (.tier level filename)) = true := by
    rw [Upload.key, home, under_key]
    exact decide_eq_true rfl
  cases effect.output served.snapshots execution.id with
  | same same => exact .inl (same _ covered)
  | uploaded index other otherUpload otherAfter uploadEvent _ found named there stepped =>
      have inside := List.mem_of_getElem? found
      obtain rfl : other = execution := (served.claims.once execution.id).eq inside member
        ⟨claimed inside there, named⟩ ⟨claimed member uploading, rfl⟩
      obtain rfl := Option.some.inj (there.symm.trans uploading)
      by_contra changed
      obtain ⟨_, _, same, sends⟩ := sends_of_changed cached stepped (not_or.mp changed).1
      obtain ⟨rfl, rfl⟩ := OutputPath.tier.inj (OutputPath.key_inj.mp same)
      exact spent.silent sends
  | deleted index deletion video fault kept _ found named phase objects =>
      rw [objects, find?_deletePrefix]
      split
      · exact .inr rfl
      · exact .inl rfl

theorem segments_written_once (allowed : State → Event → Prop) (cacheable : Cacheable key) :
    WriteOnce step allowed (fun state => Served state ∧ Attributed key state) (Closed key)
      fun state => state.stores.objects.find? key where
  keeps holds _ stepped :=
    have effect := step_effect stepped
    ⟨holds.1.step effect, effect.attributed holds.1.snapshots cacheable holds.2⟩
  closes holds there := holds.2 _ there
  lasts holds closed _ stepped :=
    closed.step (written_fact key) holds.1.snapshots (step_effect stepped)
  fades holds closed _ stepped := (step_effect stepped).fades holds.1 cacheable.2 closed

theorem attributed_initial (key : String) (now : Instant) : Attributed key (State.initial now) := by
  intro object found
  simp [State.initial, Stores.initial] at found

/-- An object of the output bucket that is not a playlist stays what it was when it was
stored, until it is deleted; then it does not come back. -/
theorem segments_immutable {now : Instant} {state middle later : State} {object : Object}
    (reached : Reaches step Anything (State.initial now) state) (cacheable : Cacheable key)
    (stored : state.stores.objects.find? key = some object)
    (first : Reaches step Anything state middle) (second : Reaches step Anything middle later) :
    (middle.stores.objects.find? key = some object ∨ middle.stores.objects.find? key = none) ∧
      (middle.stores.objects.find? key = none → later.stores.objects.find? key = none) := by
  have once := segments_written_once Anything cacheable
  have holds : Served state ∧ Attributed key state :=
    reached.preserves _ ⟨.initial now, attributed_initial key now⟩ once.keeps
  exact once.immutable holds stored first second

/-- The pipeline breaks down, the video is deleted, and the uploader goes on. -/
def deletedWhileUploading (task : TaskId) (id : VideoId) : List Event :=
  [.execution 0 (.pipelinePanic "thread"), .execution 0 .joinPublisher,
    .execution 0 (.fail .none ⟨task, none⟩), .startDeletion task id, .deletion 0 (.call .none),
    .deletion 0 (.deletePrefix .none [])]

def firstSegment : String := (OutputPath.tier .low (segmentName 0)).key (storagePrefix ⟨.ofNat 7⟩)

theorem segments_immutable_deleted : ∃ (state middle later : State) (object : Object),
    Reaches step Anything (State.initial 0) state ∧
    state.stores.objects.find? firstSegment = some object ∧
    Reaches step Anything middle later ∧ later.stores.objects.find? firstSegment = none := by
  have passed : ((run step Anything (State.initial 0)
      (publishedVideo ⟨.ofNat 7⟩ ⟨.ofNat 8⟩ "token")).map fun state =>
        (state.stores.objects.find? firstSegment).isSome &&
        (run step Anything state (deletedWhileUploading ⟨.ofNat 9⟩ ⟨.ofNat 7⟩)).any fun middle =>
          (middle.stores.objects.find? firstSegment).isNone &&
          (run step Anything middle [.execution 0 (.upload (.act .none true))]).isSome) =
      some true := by decide
  obtain ⟨state, reached, passed⟩ := reaches_of_check _ passed
  obtain ⟨stored, passed⟩ := Bool.and_eq_true_iff.mp passed
  obtain ⟨object, stored⟩ := Option.isSome_iff_exists.mp stored
  obtain ⟨middle, deleting, passed⟩ := (Option.any_eq_true _ _).mp passed
  obtain ⟨gone, passed⟩ := Bool.and_eq_true_iff.mp passed
  obtain ⟨later, uploading⟩ := Option.isSome_iff_exists.mp passed
  have second := reaches_of_run _ uploading
  have immutable := segments_immutable reached (cacheable_segment _ _ ⟨0, rfl⟩) stored
    (reaches_of_run _ deleting) second
  exact ⟨state, middle, later, object, reached, stored, second,
    immutable.2 (Option.isNone_iff_eq_none.mp gone)⟩

end Benri.Service
