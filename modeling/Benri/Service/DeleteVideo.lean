import Benri.Service.Stores

namespace Benri.Service

open Benri.Data Benri.Domain Benri.Postgres Benri.Storage Benri.Transition

/-! # `DeleteVideoUseCase::execute` -/

inductive DeleteVideoError where
  | videoNotFound
  | internal (message : String)
deriving DecidableEq, Repr

inductive DeletionPhase where
  | findById
  | deletePrefix (video : Video)
  | deleteObject (video : Video)
  | deleteRow (video : Video)
  | returned (result : Except DeleteVideoError Unit)
  | cut

structure Deletion where
  id : VideoId
  phase : DeletionPhase

inductive DeletionEvent where
  | call (fault : Fault)
  | deletePrefix (fault : Fault) (kept : List String)
  | cut

def deletionFind (stores : Stores) (fault : Fault) (id : VideoId) : DeletionPhase :=
  match (attempt fault databaseError stores stores (stores.videos.find? id)).2 with
  | .error error => .returned (.error (.internal error))
  | .ok none => .returned (.error .videoNotFound)
  | .ok (some video) => .deletePrefix video

/-- `kept` are the keys under the prefix that survive: a failed call stops between
two pages, an object stored during the call may not be listed any more, and
`delete_objects` reports the keys it could not delete in a list that
`delete_prefix` does not read. -/
def deletionPrefix (stores : Stores) (fault : Fault) (kept : List String) (video : Video) :
    Stores × DeletionPhase :=
  match attempt fault storageError stores { stores with
    objects := Storage.deletePrefix stores.objects video.storagePrefix kept } () with
  | (reached, .error error) => (reached, .returned (.error (.internal error)))
  | (reached, .ok ()) => (reached, .deleteObject video)

def deletionObject (stores : Stores) (fault : Fault) (video : Video) : Stores × DeletionPhase :=
  match attempt fault storageError stores { stores with
    objects := Storage.deleteObject stores.objects video.uploadKey } () with
  | (reached, .error error) => (reached, .returned (.error (.internal error)))
  | (reached, .ok ()) => (reached, .deleteRow video)

def deletionRow (stores : Stores) (fault : Fault) (video : Video) : Stores × DeletionPhase :=
  match attempt fault databaseError stores { stores with
    videos := deleteVideo stores.videos video.id } () with
  | (reached, .error error) => (reached, .returned (.error (.internal error)))
  | (reached, .ok ()) => (reached, .returned (.ok ()))

def deletionStep (stores : Stores) (deletion : Deletion) :
    DeletionEvent → Option (Stores × DeletionPhase)
  | .call fault =>
      match deletion.phase with
      | .findById => some (stores, deletionFind stores fault deletion.id)
      | .deleteObject video => some (deletionObject stores fault video)
      | .deleteRow video => some (deletionRow stores fault video)
      | _ => none
  | .deletePrefix fault kept =>
      match deletion.phase with
      | .deletePrefix video => some (deletionPrefix stores fault kept video)
      | _ => none
  | .cut =>
      match deletion.phase with
      | .returned _ => none
      | _ => some (stores, .cut)

/-! ## What one step does -/

/-- A step of a deletion of `id`, with its guards.  A call that errs has taken
effect or has not, and ends the deletion either way. -/
inductive DeletionTurn (stores : Stores) (id : VideoId) :
    DeletionPhase → DeletionEvent → Stores → DeletionPhase → Prop where
  | found (video : Video) (found : stores.videos.find? id = some video) :
      DeletionTurn stores id .findById (.call .none) stores (.deletePrefix video)
  | absent (absent : stores.videos.find? id = none) :
      DeletionTurn stores id .findById (.call .none) stores (.returned (.error .videoNotFound))
  | prefixed {fault : Fault} (video : Video) (kept : List String) (next : DeletionPhase)
      (answered : fault = .none ∧ next = .deleteObject video ∨
        ∃ error, next = .returned (.error (.internal error))) :
      DeletionTurn stores id (.deletePrefix video) (.deletePrefix fault kept) { stores with
        objects := Storage.deletePrefix stores.objects video.storagePrefix kept } next
  | objectDeleted {fault : Fault} (video : Video) (next : DeletionPhase)
      (answered : next = .deleteRow video ∨ ∃ error, next = .returned (.error (.internal error))) :
      DeletionTurn stores id (.deleteObject video) (.call fault) { stores with
        objects := Storage.deleteObject stores.objects video.uploadKey } next
  | rowDeleted {fault : Fault} (video : Video) (next : DeletionPhase)
      (answered : next = .returned (.ok ()) ∨
        ∃ error, next = .returned (.error (.internal error))) :
      DeletionTurn stores id (.deleteRow video) (.call fault) { stores with
        videos := deleteVideo stores.videos video.id } next
  | gaveUp {phase : DeletionPhase} {event : DeletionEvent} (error : String) :
      DeletionTurn stores id phase event stores (.returned (.error (.internal error)))
  | cut {phase : DeletionPhase} : DeletionTurn stores id phase .cut stores .cut

variable {stores reached : Stores} {id : VideoId} {video : Video} {next : DeletionPhase}
  {fault : Fault}

theorem deletionFind_turn (stores : Stores) (fault : Fault) (id : VideoId) :
    DeletionTurn stores id .findById (.call fault) stores (deletionFind stores fault id) := by
  unfold deletionFind
  cases fault with
  | error applied message => exact .gaveUp _
  | none =>
      simp only [attempt_none]
      cases found : stores.videos.find? id with
      | none => exact .absent found
      | some video => exact .found video found

theorem deletionPrefix_turn {kept : List String}
    (moved : deletionPrefix stores fault kept video = (reached, next)) :
    DeletionTurn stores id (.deletePrefix video) (.deletePrefix fault kept) reached next := by
  unfold deletionPrefix at moved
  cases fault with
  | none => cases moved; exact .prefixed video kept _ (.inl ⟨rfl, rfl⟩)
  | error applied message =>
      cases applied <;> cases moved
      · exact .gaveUp _
      · exact .prefixed video kept _ (.inr ⟨_, rfl⟩)

theorem deletionObject_turn (moved : deletionObject stores fault video = (reached, next)) :
    DeletionTurn stores id (.deleteObject video) (.call fault) reached next := by
  unfold deletionObject at moved
  cases fault with
  | none => cases moved; exact .objectDeleted video _ (.inl rfl)
  | error applied message =>
      cases applied <;> cases moved
      · exact .gaveUp _
      · exact .objectDeleted video _ (.inr ⟨_, rfl⟩)

theorem deletionRow_turn (moved : deletionRow stores fault video = (reached, next)) :
    DeletionTurn stores id (.deleteRow video) (.call fault) reached next := by
  unfold deletionRow at moved
  cases fault with
  | none => cases moved; exact .rowDeleted video _ (.inl rfl)
  | error applied message =>
      cases applied <;> cases moved
      · exact .gaveUp _
      · exact .rowDeleted video _ (.inr ⟨_, rfl⟩)

theorem deletionStep_turn {phase : DeletionPhase} {event : DeletionEvent}
    (stepped : deletionStep stores ⟨id, phase⟩ event = some (reached, next)) :
    DeletionTurn stores id phase event reached next := by
  cases event with
  | call fault =>
      cases phase <;> simp only [deletionStep, reduceCtorEq] at stepped
      · cases stepped; exact deletionFind_turn stores fault id
      · exact deletionObject_turn (Option.some.inj stepped)
      · exact deletionRow_turn (Option.some.inj stepped)
  | deletePrefix fault kept =>
      cases phase <;> simp only [deletionStep, reduceCtorEq] at stepped
      exact deletionPrefix_turn (Option.some.inj stepped)
  | cut =>
      cases phase <;> simp only [deletionStep, reduceCtorEq] at stepped <;> cases stepped <;>
        exact .cut

end Benri.Service
