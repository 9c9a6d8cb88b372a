import Benri.Service.Claim
import Benri.Service.Outputs

namespace Benri.Service

open Benri.Data Benri.Domain Benri.Postgres Benri.Storage Benri.Transcoder Benri.Transition

/-! # Orphaned output

A deletion removes the output first and the row last, and nothing stops the
video's uploader in between or afterwards.  As long as it does not get in there,
and the output really is removed, the output of a video is there only while its
row is.
-/

/-- The output has been deleted, and the row is to follow. -/
def DeletionPhase.pastPrefix : DeletionPhase → Bool
  | .deleteObject _ | .deleteRow _ => true
  | _ => false

/-- The uploader's step stores an object under a key that was not there. -/
def putsNew (objects : Objects) (event : UploadEvent) (upload : Upload) : Bool :=
  (uploadStep objects upload event).any fun answer =>
    answer.1.rows.any fun object => (objects.find? object.key).isNone

/-- An object under the prefix of the video is among the keys. -/
def keeps (objects : Objects) (id : VideoId) (kept : List String) : Bool :=
  objects.rows.any fun object => under (storagePrefix id) object.key && kept.contains object.key

/-- A step in which no uploader stores anything new for a video without a row, or
behind a deletion of the video that is past the output, and in which no deletion
takes output that is still there for deleted. -/
def tidy (state : State) : Event → Bool
  | .execution index (.upload event) => (state.executions[index]?).all fun execution =>
      !execution.upload.any (putsNew state.stores.objects event) ||
        (state.stores.videos.find? execution.id).isSome &&
          state.deletions.all fun deletion =>
            !(decide (deletion.id = execution.id) && deletion.phase.pastPrefix)
  | .deletion index (.deletePrefix .none kept) => (state.deletions[index]?).all fun deletion =>
      !keeps state.stores.objects deletion.id kept
  | _ => true

def Tidy (state : State) (event : Event) : Prop := tidy state event = true

instance (state : State) (event : Event) : Decidable (Tidy state event) :=
  inferInstanceAs (Decidable (_ = true))

/-! ## The rows -/

variable {stores reached : Stores} {execution next : Execution}

theorem isSome_updateStatusIf (videos : VideoTable) (id owner : VideoId)
    (expected newStatus : VideoStatus) :
    ((updateStatusIf videos owner expected newStatus).1.find? id).isSome =
      (videos.find? id).isSome := by
  rw [find?_updateStatusIf, Option.isSome_map]

theorem isSome_updateToken {videos after : VideoTable} {owner : VideoId} {shareToken : String}
    {status : VideoStatus} {touched : Bool}
    (updated : updateToken videos owner shareToken status = some (after, touched)) (id : VideoId) :
    (after.find? id).isSome = (videos.find? id).isSome := by
  rw [find?_updateToken updated, Option.isSome_map]

theorem isSome_bulkMarkFailed (videos : VideoTable) (id : VideoId) (ids : List VideoId)
    (fromStatuses : List VideoStatus) :
    ((bulkMarkFailed videos ids fromStatuses).find? id).isSome = (videos.find? id).isSome := by
  rw [find?_bulkMarkFailed, Option.isSome_map]

/-- A row goes in the last step of a deletion only. -/
theorem Effect.row_kept {before after : State} {event : Event} (effect : Effect before event after)
    (snapshots : Snapshots before) {id : VideoId}
    (there : (before.stores.videos.find? id).isSome = true) :
    (after.stores.videos.find? id).isSome = true ∨ ∃ deletion ∈ before.deletions, ∃ video,
      deletion.id = id ∧ deletion.phase = .deleteRow video := by
  cases effect with
  | born new title format videos fresh inserted =>
      left
      have found : videos.find? id = if new = id then _ else before.stores.videos.find? id :=
        Table.find?_insert? inserted id
      change (videos.find? id).isSome = true
      rw [found]
      split
      · rfl
      · exact there
  | completion index event completion stores next slot effect =>
      left
      cases effect with
      | uploaded => exact (isSome_updateStatusIf _ _ _ _ _).trans there
      | quiet | rejected => exact there
  | execution index event execution next stores slot effect =>
      left
      cases effect with
      | claimed => exact (isSome_updateStatusIf _ _ _ _ _).trans there
      | failed => exact (isSome_updateStatusIf _ _ _ _ _).trans there
      | published shareToken row videos publishing drawn found processing updated =>
          exact (isSome_updateToken updated id).trans there
      | finalized shareToken video row videos phase _ drawn found processing updated answered =>
          exact (isSome_updateToken updated id).trans there
      | quiet | cleaned | uploaded => exact there
  | sweep index event phase next stores slot effect =>
      left
      cases effect with
      | marked => exact (isSome_bulkMarkFailed _ _ _ _).trans there
      | quiet | scheduled => exact there
  | deletion index event deletion next stores slot effect =>
      have member := List.mem_of_getElem? slot
      cases effect with
      | rowDeleted video _ phase answered =>
          have named := (snapshots.deletions deletion member video (by rw [phase]; rfl)).1
          by_cases mine : deletion.id = id
          · exact .inr ⟨deletion, member, video, mine, phase⟩
          · left
            rw [← named] at mine
            change ((deleteVideo before.stores.videos video.id).find? id).isSome = true
            rw [find?_deleteVideo, if_neg mine]
            exact there
      | found | ended | prefixed | objectDeleted => exact .inl there
  | advance | unborn | original | tasks | startCompletion | startExecution | startSweep |
    startDeletion => exact .inl there

/-! ## The invariant -/

/-- Nothing lies under the video's prefix. -/
def Cleared (id : VideoId) (objects : Objects) : Prop :=
  ∀ key, under (storagePrefix id) key = true → objects.find? key = none

structure Owned (state : State) : Prop where
  output : ∀ id key, under (storagePrefix id) key = true →
    (state.stores.objects.find? key).isSome = true → (state.stores.videos.find? id).isSome = true
  cleared : ∀ deletion ∈ state.deletions, deletion.phase.pastPrefix = true →
    Cleared deletion.id state.stores.objects

theorem Owned.initial (now : Instant) : Owned (State.initial now) where
  output id key covered there := by simp [State.initial, Stores.initial] at there
  cleared _ member := absurd member List.not_mem_nil

/-- A step that stores nothing new brings no key. -/
theorem isSome_of_not_putsNew {objects after : Objects} {event : UploadEvent}
    {upload uploadAfter : Upload} (adds : putsNew objects event upload = false)
    (stepped : uploadStep objects upload event = some (after, uploadAfter)) {key : String}
    (there : (after.find? key).isSome = true) : (objects.find? key).isSome = true := by
  obtain ⟨object, found⟩ := Option.isSome_iff_exists.mp there
  have known : ¬(objects.find? object.key).isNone = true := by
    have checked : after.rows.any (fun object => (objects.find? object.key).isNone) = false := by
      simpa only [putsNew, stepped, Option.any_some] using adds
    exact List.any_eq_false.mp checked object (Table.mem_of_find? found)
  rw [show object.key = key from Table.key_of_find? found, Option.isNone_iff_eq_none] at known
  exact Option.isSome_iff_ne_none.mpr known

/-- A step leaves a video's output as it was or with less, unless its uploader
adds to it, which it does for a row that is there and no deletion is done with. -/
theorem Effect.output_tidy {before after : State} {event : Event}
    (effect : Effect before event after) (snapshots : Snapshots before)
    (permitted : Tidy before event) (id : VideoId) :
    (∀ key, under (storagePrefix id) key = true →
      (after.stores.objects.find? key).isSome = true →
      (before.stores.objects.find? key).isSome = true) ∨
    (before.stores.videos.find? id).isSome = true ∧
      (∃ index uploadEvent, event = .execution index (.upload uploadEvent)) ∧
      ∀ deletion ∈ before.deletions, deletion.id = id → deletion.phase.pastPrefix = false := by
  cases effect.output snapshots id with
  | same same => exact .inl fun key covered there => by rw [← same key covered]; exact there
  | uploaded index execution upload uploadAfter uploadEvent _ slot named uploading stepped =>
      cases adds : putsNew before.stores.objects uploadEvent upload with
      | false => exact .inl fun key _ there => isSome_of_not_putsNew adds stepped there
      | true =>
        have safe : ((before.stores.videos.find? execution.id).isSome &&
            before.deletions.all fun deletion =>
              !(decide (deletion.id = execution.id) && deletion.phase.pastPrefix)) = true := by
          simpa only [Tidy, tidy, slot, Option.all_some, uploading, Option.any_some, adds,
            Bool.not_true, Bool.false_or] using permitted
        obtain ⟨there, apart⟩ := Bool.and_eq_true_iff.mp safe
        subst named
        refine .inr ⟨there, ⟨index, _, rfl⟩, fun deletion member same => ?_⟩
        simpa [same] using List.all_eq_true.mp apart deletion member
  | deleted index deletion video fault kept _ slot named phase objects =>
      refine .inl fun key covered there => ?_
      rw [objects, find?_deletePrefix] at there
      split at there
      · cases there
      · exact there

theorem DeletionPhase.video?_of_pastPrefix {phase : DeletionPhase}
    (past : phase.pastPrefix = true) : phase.video? ≠ none := by
  cases phase with
  | deleteObject video | deleteRow video => exact Option.some_ne_none video
  | findById | deletePrefix | returned | cut => cases past

theorem cleared_deletePrefix {objects : Objects} {id : VideoId} {kept : List String}
    (whole : keeps objects id kept = false) :
    Cleared id (deletePrefix objects (storagePrefix id) kept) := by
  intro key covered
  rw [find?_deletePrefix]
  split
  · rfl
  · rename_i spared
    cases found : objects.find? key with
    | none => rfl
    | some object =>
        have keyed : object.key = key := Table.key_of_find? found
        have gone := List.any_eq_false.mp whole object (Table.mem_of_find? found)
        rw [keyed, covered, Bool.true_and, Bool.not_eq_true] at gone
        exact absurd ⟨covered, by simpa using gone⟩ spared

/-- The deletion that takes the step is past the output afterwards only if it
was before, or has just removed it all. -/
theorem DeletionEffect.cleared {deletion : Deletion} {event : DeletionEvent}
    {phase : DeletionPhase} (effect : DeletionEffect stores deletion event reached phase)
    (keyed : ∀ video, deletion.phase.video? = some video → Keyed deletion.id video)
    (permitted : ∀ kept, event = .deletePrefix .none kept →
      keeps stores.objects deletion.id kept = false)
    (past : phase.pastPrefix = true) :
    deletion.phase.pastPrefix = true ∨ Cleared deletion.id reached.objects := by
  have video := DeletionPhase.video?_of_pastPrefix past
  cases effect with
  | found other _ found => cases past
  | ended _ none => exact absurd none video
  | prefixed other kept _ before answered =>
      rcases answered with ⟨rfl, rfl⟩ | none
      · have home : other.storagePrefix = storagePrefix deletion.id :=
          congrArg storagePrefix (keyed other (by rw [before]; rfl)).1
        rw [home]
        exact .inr (cleared_deletePrefix (permitted kept rfl))
      · exact absurd none video
  | objectDeleted other _ before answered => exact .inl (by rw [before]; rfl)
  | rowDeleted other _ before none => exact absurd none video

theorem Owned.step {before after : State} {event : Event} (owned : Owned before)
    (snapshots : Snapshots before) (effect : Effect before event after)
    (permitted : Tidy before event) : Owned after := by
  refine ⟨fun id key covered there => ?_, fun deletion member past => ?_⟩
  · rcases effect.output_tidy snapshots permitted id with fewer | ⟨row, _, apart⟩
    · have present := fewer key covered there
      rcases effect.row_kept snapshots (owned.output id key covered present) with
        kept | ⟨deletion, member, video, rfl, phase⟩
      · exact kept
      · rw [owned.cleared deletion member (by rw [phase]; rfl) key covered] at present
        cases present
    · rcases effect.row_kept snapshots row with kept | ⟨deletion, member, video, same, phase⟩
      · exact kept
      · have outside := apart deletion member same
        rw [phase] at outside
        cases outside
  · have older : ∀ other ∈ before.deletions, other.phase.pastPrefix = true →
        Cleared other.id after.stores.objects := by
      intro other inside past key covered
      rcases effect.output_tidy snapshots permitted other.id with fewer | ⟨_, _, apart⟩
      · cases there : after.stores.objects.find? key with
        | none => rfl
        | some object =>
            have present := fewer key covered (by rw [there]; rfl)
            rw [owned.cleared other inside past key covered] at present
            cases present
      · rw [apart other inside rfl] at past
        cases past
    cases effect with
    | startDeletion task id row found named =>
        rcases List.mem_append.mp member with inside | new
        · exact older deletion inside past
        · rw [List.mem_singleton.mp new] at past
          cases past
    | deletion index event moving next stores slot effect =>
        rcases List.mem_or_eq_of_mem_set member with inside | rfl
        · exact older deletion inside past
        · have inside := List.mem_of_getElem? slot
          have whole : ∀ kept, event = .deletePrefix .none kept →
              keeps before.stores.objects moving.id kept = false := by
            rintro kept rfl
            simpa [Tidy, tidy, slot] using permitted
          rcases effect.cleared (snapshots.deletions moving inside) whole past with
            earlier | cleared
          · exact older moving inside earlier
          · exact cleared
    | advance | unborn | born | original | tasks | startCompletion | completion | startExecution |
      execution | startSweep | sweep => exact older deletion member past

/-- Every stored output belongs to a video whose row is there. -/
def OrphanFree (stores : Stores) : Prop :=
  ∀ id, ∀ object ∈ stores.objects.rows, under (storagePrefix id) object.key = true →
    (stores.videos.find? id).isSome = true

/-- In every run that is tidy no output is ever without its row. -/
theorem orphanFree_of_reaches {now : Instant} {state : State}
    (reached : Reaches step Tidy (State.initial now) state) : OrphanFree state.stores := by
  have both : Snapshots state ∧ Owned state := by
    refine reached.preserves (fun state => Snapshots state ∧ Owned state)
      ⟨.initial now, .initial now⟩ fun holds permitted stepped => ?_
    have effect := step_effect stepped
    exact ⟨holds.1.step effect, holds.2.step holds.1 effect permitted⟩
  intro id object member covered
  exact both.2.output id object.key covered (by rw [Table.find?_of_mem member]; rfl)

/-- A video is processed with its output, which belongs to its row. -/
def storedVideo (id : VideoId) (task : TaskId) (shareToken : String) : List Event :=
  claimedVideo id task ++ startedTranscode shareToken ++ segmentTranscode

set_option maxRecDepth 2000 in
theorem orphanFree_storedVideo : ∃ state master,
    Reaches step Tidy (State.initial 0) state ∧
    master ∈ state.stores.objects.rows ∧ master.key = storagePrefix ⟨.ofNat 7⟩ ++ MASTER_FILENAME ∧
    (state.stores.videos.find? ⟨.ofNat 7⟩).isSome = true := by
  have passed : ((run step Tidy (State.initial 0)
      (storedVideo ⟨.ofNat 7⟩ ⟨.ofNat 8⟩ "token")).map fun state =>
        (state.stores.objects.find? (storagePrefix ⟨.ofNat 7⟩ ++ MASTER_FILENAME)).isSome) =
      some true := by decide
  obtain ⟨state, reached, there⟩ := reaches_of_check _ passed
  obtain ⟨master, found⟩ := Option.isSome_iff_exists.mp there
  have key := Table.key_of_find? found
  refine ⟨state, master, reached, Table.mem_of_find? found, key, ?_⟩
  refine orphanFree_of_reaches reached _ master (Table.mem_of_find? found) ?_
  rw [key]
  exact (under_key .master _ _).trans (decide_eq_true rfl)

/-! ## An orphan -/

def CompletionPhase.isOver : CompletionPhase → Bool
  | .returned _ | .cut => true
  | _ => false

def SweepPhase.isOver : SweepPhase → Bool
  | .returned _ | .cut => true
  | _ => false

def DeletionPhase.isOver : DeletionPhase → Bool
  | .returned _ | .cut => true
  | _ => false

/-- Neither the pipeline nor the uploader is running. -/
def uploadOver (upload : Upload) : Bool :=
  !upload.pipeline && match upload.uploader.phase with
    | .returned _ => true
    | _ => false

/-- Nothing of the execution is running: it went with its process, or its
handler, its publisher and its transcode are all over. -/
def Execution.isOver (execution : Execution) : Bool :=
  !execution.alive || (match execution.phase with
    | .returned _ | .cut => true
    | _ => false) && (decide (execution.publisher = .absent) ||
      decide (execution.publisher = .done)) && execution.upload.all uploadOver

def State.quiescent (state : State) : Bool :=
  state.completions.all (fun completion => completion.phase.isOver) &&
    state.executions.all Execution.isOver && state.sweeps.all SweepPhase.isOver &&
    state.deletions.all fun deletion => deletion.phase.isOver

/-- An upload is completed shortly before its video is a day old; the sweep then
has the video deleted while the transcode is still to upload its first segment. -/
def outlivedVideo (id : VideoId) (task deleteTask : TaskId) (shareToken : String) : List Event :=
  [.initiate id "a title" .mkv true, .putOriginal id .mkv "video/x-matroska" matroska,
    .advance (STALE_VIDEO_AGE - 1000), .startCompletion id, .completion 0 (.call .none),
    .completion 0 (.call .none), .completion 0 (.call .none),
    .completion 0 (.transition .none ⟨task, none⟩), .startExecution task id,
    .execution 0 (.call .none), .execution 0 (.call .none)] ++
  startedTranscode shareToken ++
  [.advance (STALE_VIDEO_AGE + 1), .startSweep, .sweep 0 (.call .none), .sweep 0 (.call .none),
    .sweep 0 (.call .none), .sweep 0 (.schedule .none [⟨deleteTask, none⟩]),
    .startDeletion deleteTask id, .deletion 0 (.call .none),
    .deletion 0 (.deletePrefix .none []), .deletion 0 (.call .none), .deletion 0 (.call .none)] ++
  segmentTranscode ++ [.execution 0 (.call .none)]

set_option maxRecDepth 3000 in
/-- Everything has come to rest, and the output is there without its row. -/
theorem outlivedVideo_orphaned : ∃ state, Reaches step Anything (State.initial 0) state ∧
    state.quiescent = true ∧ ¬ OrphanFree state.stores := by
  have passed : ((run step Anything (State.initial 0)
      (outlivedVideo ⟨.ofNat 7⟩ ⟨.ofNat 8⟩ ⟨.ofNat 9⟩ "token")).map fun state =>
        state.quiescent && (state.stores.videos.find? ⟨.ofNat 7⟩).isNone &&
        (state.stores.objects.find? (storagePrefix ⟨.ofNat 7⟩ ++ MASTER_FILENAME)).isSome) =
      some true := by decide
  obtain ⟨state, reached, passed⟩ := reaches_of_check _ passed
  obtain ⟨rest, there⟩ := Bool.and_eq_true_iff.mp passed
  obtain ⟨quiescent, gone⟩ := Bool.and_eq_true_iff.mp rest
  obtain ⟨master, found⟩ := Option.isSome_iff_exists.mp there
  refine ⟨state, reached, quiescent, fun free => ?_⟩
  have row := free _ master (Table.mem_of_find? found) <| by
    rw [Table.key_of_find? found]
    exact (under_key .master _ _).trans (decide_eq_true rfl)
  rw [Option.isNone_iff_eq_none.mp gone] at row
  cases row

end Benri.Service
