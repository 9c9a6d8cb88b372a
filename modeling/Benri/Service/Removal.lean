import Benri.Service.Original
import Benri.Service.Orphans

namespace Benri.Service

open Benri.Data Benri.Domain Benri.Postgres Benri.Storage Benri.Transcoder Benri.Transition

/-! # Deletions of one video

Any number of executions of `DeleteVideo` for one video, each of them left alone
at any step, while nobody stores anything for the video.
-/

/-- Nothing is stored for the video, and a prefix deletion that is answered with
`Ok` has removed what was there. -/
def undisturbed (id : VideoId) (state : State) : Event → Bool
  | .putOriginal owner _ _ _ => decide (owner ≠ id)
  | .execution index (.upload _) => (state.executions[index]?).all fun execution =>
      decide (execution.id ≠ id)
  | .deletion index (.deletePrefix .none kept) => (state.deletions[index]?).all fun deletion =>
      decide (deletion.id ≠ id) || kept.all fun key =>
        !under (storagePrefix id) key || (state.stores.objects.find? key).isNone
  | _ => true

def Undisturbed (id : VideoId) (state : State) (event : Event) : Prop :=
  undisturbed id state event = true

instance (id : VideoId) (state : State) (event : Event) : Decidable (Undisturbed id state event) :=
  inferInstanceAs (Decidable (_ = true))

/-- The execution ended with `Ok`, or found no row. -/
def DeletionPhase.converged : DeletionPhase → Bool
  | .returned (.ok ()) | .returned (.error .videoNotFound) => true
  | _ => false

theorem DeletionPhase.converged_iff {phase : DeletionPhase} :
    phase.converged = true ↔
      phase = .returned (.ok ()) ∨ phase = .returned (.error .videoNotFound) := by
  constructor
  · intro closed
    unfold converged at closed
    split at closed
    · exact .inl rfl
    · exact .inr rfl
    · cases closed
  · rintro (rfl | rfl) <;> rfl

/-- No object of the video is left: no output, and no original. -/
structure Emptied (id : VideoId) (format : VideoFormat) (objects : Objects) : Prop where
  output : Cleared id objects
  original : original objects id format = none

/-! ## What a step leaves of the objects -/

variable {before after : State} {event : Event} {id : VideoId} {format : VideoFormat}

theorem Effect.cleared_kept (effect : Effect before event after) (snapshots : Snapshots before)
    (permitted : Undisturbed id before event) (cleared : Cleared id before.stores.objects) :
    Cleared id after.stores.objects := by
  intro key covered
  cases effect.output snapshots id with
  | same same => rw [same key covered, cleared key covered]
  | uploaded index execution upload uploadAfter uploadEvent _ slot named =>
      simp [Undisturbed, undisturbed, slot, named] at permitted
  | deleted index deletion video fault kept _ slot named phase objects =>
      rw [objects, find?_deletePrefix, cleared key covered, ite_self]

theorem Effect.original_kept (effect : Effect before event after) (snapshots : Snapshots before)
    (permitted : Undisturbed id before event)
    (removed : Service.original before.stores.objects id format = none) :
    Service.original after.stores.objects id format = none := by
  cases effect.originalEffect snapshots id format with
  | same same => rw [same, removed]
  | removed removed => exact removed
  | put contentType body put stored =>
      subst put
      simp [Undisturbed, undisturbed] at permitted

theorem Effect.emptied_kept (effect : Effect before event after) (snapshots : Snapshots before)
    (permitted : Undisturbed id before event) (emptied : Emptied id format before.stores.objects) :
    Emptied id format after.stores.objects :=
  ⟨effect.cleared_kept snapshots permitted emptied.output,
    effect.original_kept snapshots permitted emptied.original⟩

/-- A row that is gone stays gone: its id is not given out again. -/
theorem RowsEffect.gone_kept {before after : Stores} (effect : RowsEffect before after)
    (known : id ∈ before.issued) (gone : before.videos.find? id = none) :
    after.videos.find? id = none := by
  cases found : after.videos.find? id with
  | none => rfl
  | some row =>
      obtain ⟨old, there, _⟩ := effect.format_kept known found
      rw [gone] at there
      cases there

/-! ## One deletion -/

/-- What the place of a deletion in its code says about the stores. -/
structure DeletionPlace (id : VideoId) (format : VideoFormat) (stores : Stores)
    (phase : DeletionPhase) : Prop where
  video : ∀ video, phase.video? = some video → video.format = format
  output : phase.pastPrefix = true → Cleared id stores.objects
  original : ∀ video, phase = .deleteRow video → original stores.objects id format = none
  row : phase.converged = true → stores.videos.find? id = none

/-- A deletion that has not begun, or has given up, says nothing. -/
theorem DeletionPlace.of_blank {stores : Stores} {phase : DeletionPhase}
    (blank : phase.video? = none) (unfinished : phase.converged = false) :
    DeletionPlace id format stores phase where
  video video same := by
    rw [blank] at same
    cases same
  output past := absurd blank (DeletionPhase.video?_of_pastPrefix past)
  original video same := by
    subst same
    cases blank
  row converged := by
    rw [unfinished] at converged
    cases converged

theorem deletionStep_place {stores reached : Stores} {deletion : Deletion} {event : DeletionEvent}
    {next : DeletionPhase} (stepped : deletionStep stores deletion event = some (reached, next))
    (keyed : ∀ video, deletion.phase.video? = some video → Keyed deletion.id video)
    (formats : ∀ row, stores.videos.find? deletion.id = some row → row.format = format)
    (whole : ∀ kept, event = .deletePrefix .none kept → ∀ key ∈ kept,
      under (storagePrefix deletion.id) key = true → stores.objects.find? key = none)
    (place : DeletionPlace deletion.id format stores deletion.phase) :
    DeletionPlace deletion.id format reached next := by
  obtain ⟨id, phase⟩ := deletion
  cases deletionStep_turn stepped with
  | found video found =>
      refine ⟨fun other same => ?_, fun past => (by cases past), fun _ same => (by cases same),
        fun closed => (by cases closed)⟩
      cases same
      exact formats video found
  | absent absent =>
      exact ⟨fun _ same => (by cases same), fun past => (by cases past),
        fun _ same => (by cases same), fun _ => absent⟩
  | prefixed video kept next answered =>
      rcases answered with ⟨rfl, rfl⟩ | ⟨error, rfl⟩
      · refine ⟨place.video, fun _ key covered => ?_, fun _ same => (by cases same),
          fun closed => (by cases closed)⟩
        have home : video.storagePrefix = storagePrefix id :=
          congrArg storagePrefix (keyed video rfl).1
        rw [home, find?_deletePrefix]
        split
        · rfl
        · rename_i spared
          exact whole kept rfl key (by_contra fun absent => spared ⟨covered, absent⟩) covered
      · exact .of_blank rfl rfl
  | objectDeleted video next answered =>
      rcases answered with rfl | ⟨error, rfl⟩
      · refine ⟨place.video, fun _ key covered => ?_, fun _ _ => ?_,
          fun closed => (by cases closed)⟩
        · rw [find?_deleteObject, place.output rfl key covered, ite_self]
        · have target : video.uploadKey = originalKey id format := by
            rw [(keyed video rfl).2, place.video video rfl]
          rw [Service.original, find?_deleteObject, if_pos target]
          rfl
      · exact .of_blank rfl rfl
  | rowDeleted video next answered =>
      rcases answered with rfl | ⟨error, rfl⟩
      · refine ⟨fun _ same => (by cases same), fun past => (by cases past),
          fun _ same => (by cases same), fun _ => ?_⟩
        rw [find?_deleteVideo, if_pos (keyed video rfl).1]
      · exact .of_blank rfl rfl
  | gaveUp | cut => exact .of_blank rfl rfl

theorem DeletionPlace.kept {phase : DeletionPhase} (effect : Effect before event after)
    (snapshots : Snapshots before) (permitted : Undisturbed id before event)
    (known : id ∈ before.stores.issued) (place : DeletionPlace id format before.stores phase) :
    DeletionPlace id format after.stores phase where
  video := place.video
  output past := effect.cleared_kept snapshots permitted (place.output past)
  original video same := effect.original_kept snapshots permitted (place.original video same)
  row converged := effect.rows.gone_kept known (place.row converged)

/-! ## All deletions of the video -/

structure Removing (id : VideoId) (format : VideoFormat) (state : State) : Prop where
  known : id ∈ state.stores.issued
  formats : ∀ row, state.stores.videos.find? id = some row → row.format = format
  gone : state.stores.videos.find? id = none → Emptied id format state.stores.objects
  places : ∀ deletion ∈ state.deletions, deletion.id = id →
    DeletionPlace id format state.stores deletion.phase

theorem deletion_of_step {index : Nat} {inner : DeletionEvent}
    (stepped : step before (.deletion index inner) = some after) :
    ∃ deletion next, before.deletions[index]? = some deletion ∧
      deletionStep before.stores deletion inner = some (after.stores, next) ∧
      after.deletions = before.deletions.set index ⟨deletion.id, next⟩ := by
  obtain ⟨⟨stores, slots⟩, moved, rfl⟩ := Option.map_eq_some_iff.mp stepped
  obtain ⟨deletion, next, slot, advanced, rfl⟩ := slotStep_eq_some moved
  obtain ⟨⟨reached, phase⟩, inner, same⟩ := Option.map_eq_some_iff.mp advanced
  cases same
  exact ⟨deletion, phase, slot, inner, rfl⟩

theorem Removing.step (removing : Removing id format before) (snapshots : Snapshots before)
    (permitted : Undisturbed id before event) (stepped : step before event = some after) :
    Removing id format after := by
  have effect := step_effect stepped
  refine ⟨effect.rows.issued_subset removing.known, fun row found => ?_, fun gone => ?_,
    fun deletion member mine => ?_⟩
  · obtain ⟨old, there, same⟩ := effect.rows.format_kept removing.known found
    rw [same, removing.formats old there]
  · cases there : before.stores.videos.find? id with
    | none => exact effect.emptied_kept snapshots permitted (removing.gone there)
    | some row =>
        rcases effect.row_kept snapshots (by rw [there]; rfl) with
          kept | ⟨deletion, member, video, same, phase⟩
        · rw [gone] at kept
          cases kept
        · have place := removing.places deletion member same
          exact effect.emptied_kept snapshots permitted
            ⟨place.output (by rw [phase]; rfl), place.original video phase⟩
  · have older : ∀ other ∈ before.deletions, other.id = id →
        DeletionPlace id format after.stores other.phase := fun other inside same =>
      (removing.places other inside same).kept effect snapshots permitted removing.known
    cases event with
    | startDeletion task owner =>
        simp only [Service.step] at stepped
        split at stepped
        · cases stepped
          rcases List.mem_append.mp member with inside | new
          · exact older deletion inside mine
          · rw [List.mem_singleton.mp new]
            exact .of_blank rfl rfl
        · cases stepped
    | deletion index inner =>
        obtain ⟨moving, next, slot, advanced, deletions⟩ := deletion_of_step stepped
        rw [deletions] at member
        rcases List.mem_or_eq_of_mem_set member with inside | rfl
        · exact older deletion inside mine
        · have inside := List.mem_of_getElem? slot
          obtain rfl : moving.id = id := mine
          refine deletionStep_place advanced (snapshots.deletions moving inside) removing.formats
            ?_ (removing.places moving inside rfl)
          rintro kept rfl key spared covered
          simp only [Undisturbed, undisturbed, slot, Option.all_some, ne_eq, not_true_eq_false,
            decide_false, Bool.false_or, List.all_eq_true, Bool.or_eq_true, Bool.not_eq_true',
            Option.isNone_iff_eq_none] at permitted
          rcases permitted key spared with outside | absent
          · rw [covered] at outside
            cases outside
          · exact absent
    | advance | initiate | putOriginal | tasks | startCompletion | completion | startExecution |
      execution | startSweep | sweep =>
        refine older deletion ?_ mine
        cases effect <;> exact member

/-! ## Convergence -/

/-- An execution that nothing gets in the way of. -/
def soloDeletion (state : Stores × DeletionPhase) (id : VideoId) (event : DeletionEvent) :
    Option (Stores × DeletionPhase) :=
  deletionStep state.1 ⟨id, state.2⟩ event

def singleDeletion (stores : Stores) (id : VideoId) : Option (Stores × DeletionPhase) :=
  [DeletionEvent.call .none, .deletePrefix .none [], .call .none, .call .none].foldlM
    (fun state event => soloDeletion state id event) (stores, .findById)

/-- What two stores hold of a video: its row, its output and its original. -/
def SameVideo (id : VideoId) (uploadKey : String) (left right : Stores) : Prop :=
  left.videos.find? id = right.videos.find? id ∧
    ∀ key, under (storagePrefix id) key = true ∨ key = uploadKey →
      left.objects.find? key = right.objects.find? key

theorem singleDeletion_eq {stores : Stores} {row : Video} (keyed : Keyed id row)
    (found : stores.videos.find? id = some row) :
    ∃ single, singleDeletion stores id = some (single, .returned (.ok ())) ∧
      single.videos.find? id = none ∧
      ∀ key, under (storagePrefix id) key = true ∨ key = row.uploadKey →
        single.objects.find? key = none := by
  refine ⟨{ stores with
    videos := deleteVideo stores.videos row.id
    objects := deleteObject (deletePrefix stores.objects row.storagePrefix []) row.uploadKey },
    by simp [singleDeletion, soloDeletion, deletionStep, deletionFind, found, deletionPrefix,
      deletionObject, deletionRow], ?_, fun key mine => ?_⟩
  · rw [find?_deleteVideo, if_pos keyed.1]
  · rw [find?_deleteObject]
    split
    · rfl
    · rename_i other
      have covered := mine.resolve_right (Ne.symm other)
      have home : row.storagePrefix = storagePrefix id := congrArg storagePrefix keyed.1
      rw [home, find?_deletePrefix, if_pos ⟨covered, List.not_mem_nil⟩]

/-- Where the row is gone, so is everything else of the video; and an execution
that converged has left what a single undisturbed one would. -/
theorem deletions_converge {now : Instant} {start state : State} {id : VideoId} {row : Video}
    (reached : Reaches step Anything (State.initial now) start)
    (found : start.stores.videos.find? id = some row)
    (unstarted : ∀ deletion ∈ start.deletions, deletion.id ≠ id)
    (ran : Reaches step (Undisturbed id) start state) :
    (state.stores.videos.find? id = none →
      (∀ key, under (storagePrefix id) key = true → state.stores.objects.find? key = none) ∧
        state.stores.objects.find? row.uploadKey = none) ∧
    ∀ deletion ∈ state.deletions, deletion.id = id →
      deletion.phase = .returned (.ok ()) ∨ deletion.phase = .returned (.error .videoNotFound) →
      state.stores.videos.find? id = none ∧
        (∀ key, under (storagePrefix id) key = true → state.stores.objects.find? key = none) ∧
        state.stores.objects.find? row.uploadKey = none ∧
        ∃ single, singleDeletion start.stores id = some (single, .returned (.ok ())) ∧
          SameVideo id row.uploadKey state.stores single := by
  have served := served_of_reaches (.initial now) reached
  have keyed := served.snapshots.rows id row found
  have removing : Snapshots state ∧ Removing id row.format state := by
    refine ran.preserves (fun state => Snapshots state ∧ Removing id row.format state)
      ⟨served.snapshots, served.outbox.issued id row found, fun other there => ?_, fun gone => ?_,
        fun deletion member mine => absurd mine (unstarted deletion member)⟩
      fun holds permitted stepped =>
        ⟨holds.1.step (step_effect stepped), holds.2.step holds.1 permitted stepped⟩
    · rw [found] at there
      rw [Option.some.inj there]
    · rw [found] at gone
      cases gone
  obtain ⟨_, removing⟩ := removing
  have empty : state.stores.videos.find? id = none →
      (∀ key, under (storagePrefix id) key = true → state.stores.objects.find? key = none) ∧
        state.stores.objects.find? row.uploadKey = none := by
    intro gone
    obtain ⟨output, removed⟩ := removing.gone gone
    rw [Service.original, Option.map_eq_none_iff, ← keyed.2] at removed
    exact ⟨output, removed⟩
  refine ⟨empty, fun deletion member mine converged => ?_⟩
  have gone : state.stores.videos.find? id = none :=
    (removing.places deletion member mine).row (DeletionPhase.converged_iff.mpr converged)
  obtain ⟨output, removed⟩ := empty gone
  obtain ⟨single, ran, rowless, objectless⟩ := singleDeletion_eq keyed found
  refine ⟨gone, output, removed, single, ran, by rw [gone, rowless], fun key mine => ?_⟩
  rw [objectless key mine]
  rcases mine with covered | same
  · exact output key covered
  · rw [same, removed]

/-- A video is left alone for a day, and the sweep schedules its deletion. -/
def agedVideo (id : VideoId) (deleteTask : TaskId) : List Event :=
  [.initiate id "a title" .mkv true, .putOriginal id .mkv "video/x-matroska" matroska,
    .advance (STALE_VIDEO_AGE + 1), .startSweep, .sweep 0 (.call .none), .sweep 0 (.call .none),
    .sweep 0 (.schedule .none [⟨deleteTask, none⟩])]

/-- One deletion fails after the original is gone, another one that ran beside it
goes through, and a third finds nothing. -/
def retriedDeletion (id : VideoId) (deleteTask : TaskId) : List Event :=
  [.startDeletion deleteTask id, .startDeletion deleteTask id, .deletion 0 (.call .none),
    .deletion 1 (.call .none), .deletion 0 (.deletePrefix .none []),
    .deletion 0 (.call (.error true "timeout")), .deletion 1 (.deletePrefix .none []),
    .deletion 1 (.call .none), .deletion 1 (.call .none), .startDeletion deleteTask id,
    .deletion 2 (.call .none)]

set_option maxRecDepth 2000 in
theorem deletions_converge_retriedDeletion : ∃ (state : State) (row : Video),
    row.id = ⟨.ofNat 7⟩ ∧ state.stores.objects.find? row.uploadKey = none ∧
    ∃ deletion ∈ state.deletions, deletion.phase.converged = true := by
  have passed : ((run step Anything (State.initial 0) (agedVideo ⟨.ofNat 7⟩ ⟨.ofNat 8⟩)).bind
      fun start => (run step (Undisturbed ⟨.ofNat 7⟩) start
        (retriedDeletion ⟨.ofNat 7⟩ ⟨.ofNat 8⟩)).map fun state =>
          (start.stores.videos.find? ⟨.ofNat 7⟩).isSome && start.deletions.isEmpty &&
          (state.deletions[2]?).any fun deletion =>
            decide (deletion.id = ⟨.ofNat 7⟩) && deletion.phase.converged) = some true := by decide
  obtain ⟨start, begun, passed⟩ := Option.bind_eq_some_iff.mp passed
  obtain ⟨state, reached, passed⟩ := reaches_of_check _ passed
  obtain ⟨passed, third⟩ := Bool.and_eq_true_iff.mp passed
  obtain ⟨there, unstarted⟩ := Bool.and_eq_true_iff.mp passed
  obtain ⟨row, found⟩ := Option.isSome_iff_exists.mp there
  obtain ⟨deletion, slot, passed⟩ := (Option.any_eq_true _ _).mp third
  obtain ⟨named, converged⟩ := Bool.and_eq_true_iff.mp passed
  have emptied := (deletions_converge (reaches_of_run _ begun) found
    (fun other member => by rw [List.isEmpty_iff.mp unstarted] at member; cases member)
    reached).2 deletion (List.mem_of_getElem? slot) (of_decide_eq_true named)
    (DeletionPhase.converged_iff.mp converged)
  exact ⟨state, row, Table.key_of_find? found, emptied.2.2.1, deletion,
    List.mem_of_getElem? slot, converged⟩

end Benri.Service
