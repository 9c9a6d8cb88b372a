import Benri.Data.Table
import Benri.Domain.Video

namespace Benri.Postgres

open Benri.Data Benri.Domain

/-! # The `videos` table

One definition for each statement of `PostgresVideoRepository`.  A conditional
update also answers whether it touched a row.  The two statements that write a
share token fail when another row holds it already.
-/

abbrev VideoTable := Table VideoId Video Video.id

def findByShareToken (videos : VideoTable) (token : String) : Option Video :=
  videos.rows.find? fun row => decide (row.shareToken = some token)

def findStale (videos : VideoTable) (before : Instant) : List Video :=
  videos.select fun row =>
    [VideoStatus.pendingUpload, .uploaded, .processing].contains row.status &&
      decide (row.createdAt < before)

def findFailedBefore (videos : VideoTable) (before : Instant) : List Video :=
  videos.select fun row => decide (row.status = .failed) && decide (row.createdAt < before)

/-- `WHERE id = $1 AND status = $2`. -/
def statusIs (id : VideoId) (status : VideoStatus) (row : Video) : Bool :=
  decide (row.id = id) && decide (row.status = status)

def updateStatusIf (videos : VideoTable) (id : VideoId) (expected newStatus : VideoStatus) :
    VideoTable × Bool :=
  (videos.update (statusIs id expected) (fun row => { row with status := newStatus }) fun _ => rfl,
    !(videos.select (statusIs id expected)).isEmpty)

/-- `UNIQUE (share_token)`, as an update of one row can violate it. -/
def tokenTaken (videos : VideoTable) (id : VideoId) (shareToken : String) : Bool :=
  videos.rows.any fun row => decide (row.id ≠ id) && decide (row.shareToken = some shareToken)

/-- The row a token statement leaves behind. -/
def withToken (shareToken : String) (status : VideoStatus) (row : Video) : Video :=
  { row with shareToken := some shareToken, status }

theorem withToken_id (shareToken : String) (status : VideoStatus) (row : Video) :
    (withToken shareToken status row).id = row.id := rfl

/-- Both token statements; they write to a row that is `PROCESSING` only. -/
def updateToken (videos : VideoTable) (id : VideoId) (shareToken : String)
    (status : VideoStatus) : Option (VideoTable × Bool) :=
  let touched := !(videos.select (statusIs id .processing)).isEmpty
  if touched && tokenTaken videos id shareToken then none
  else some (videos.update (statusIs id .processing) (withToken shareToken status)
    (withToken_id shareToken status), touched)

def setShareToken (videos : VideoTable) (id : VideoId) (shareToken : String) :
    Option (VideoTable × Bool) :=
  updateToken videos id shareToken .processing

def markProcessed (videos : VideoTable) (id : VideoId) (shareToken : String) :
    Option (VideoTable × Bool) :=
  updateToken videos id shareToken .processed

def deleteVideo (videos : VideoTable) (id : VideoId) : VideoTable :=
  videos.delete fun row => decide (row.id = id)

def bulkMarkFailed (videos : VideoTable) (ids : List VideoId) (fromStatuses : List VideoStatus) :
    VideoTable :=
  videos.update (fun row => ids.contains row.id && fromStatuses.contains row.status)
    (fun row => { row with status := .failed }) fun _ => rfl

/-! ## What the statements do to one row -/

/-- An update that selects nothing changes nothing. -/
theorem update_untouched {videos : VideoTable} {condition : Video → Bool} {assign : Video → Video}
    {keeps : ∀ row, (assign row).id = row.id}
    (none : (!(videos.select condition).isEmpty) = false) :
    videos.update condition assign keeps = videos := by
  have unselected : ∀ row ∈ videos.rows, condition row = false := by
    intro row member
    have empty : videos.select condition = [] := by simpa using none
    simpa using List.filter_eq_nil_iff.mp empty row member
  have same : (videos.rows.map fun row => if condition row then assign row else row) =
      videos.rows := by
    refine (List.map_congr_left fun row member => ?_).trans (List.map_id _)
    simp [unselected row member]
  cases videos
  simpa [Table.update] using same

/-- Whether a conditional update touches a row. -/
theorem touched_iff (videos : VideoTable) (id : VideoId) (status : VideoStatus) :
    (!(videos.select (statusIs id status)).isEmpty) = true ↔
      ∃ row, videos.find? id = some row ∧ row.status = status := by
  have split : videos.select (statusIs id status) =
      (videos.select fun row => decide (row.id = id)).filter fun row =>
        decide (row.status = status) := by
    simp only [Table.select, List.filter_filter]
    refine List.filter_congr fun row _ => ?_
    rw [statusIs, Bool.and_comm]
  rw [split, Table.select_key]
  cases found : videos.find? id with
  | none => simp
  | some row => by_cases same : row.status = status <;> simp [same]

theorem updateStatusIf_cases (videos : VideoTable) (id : VideoId)
    (expected newStatus : VideoStatus) :
    updateStatusIf videos id expected newStatus = (videos, false) ∨
      ∃ row, videos.find? id = some row ∧ row.status = expected ∧
        updateStatusIf videos id expected newStatus =
          ((updateStatusIf videos id expected newStatus).1, true) := by
  cases touched : !(videos.select (statusIs id expected)).isEmpty with
  | false =>
      left
      rw [updateStatusIf, update_untouched touched, touched]
  | true =>
      obtain ⟨row, found, status⟩ := (touched_iff videos id expected).mp touched
      refine .inr ⟨row, found, status, ?_⟩
      rw [updateStatusIf, touched]

theorem find?_updateStatusIf (videos : VideoTable) (id : VideoId)
    (expected newStatus : VideoStatus) (wanted : VideoId) :
    (updateStatusIf videos id expected newStatus).1.find? wanted =
      (videos.find? wanted).map fun row =>
        if wanted = id ∧ row.status = expected then { row with status := newStatus } else row := by
  rw [updateStatusIf, Table.find?_update]
  refine Option.map_congr fun row found => ?_
  simp [statusIs, Table.key_of_find? found]

theorem find?_updateToken {videos after : VideoTable} {id : VideoId} {shareToken : String}
    {status : VideoStatus} {touched : Bool}
    (updated : updateToken videos id shareToken status = some (after, touched))
    (wanted : VideoId) :
    after.find? wanted = (videos.find? wanted).map fun row =>
      if wanted = id ∧ row.status = .processing then withToken shareToken status row else row := by
  simp only [updateToken] at updated
  split at updated
  · contradiction
  · cases updated
    rw [Table.find?_update]
    refine Option.map_congr fun row found => ?_
    simp [statusIs, Table.key_of_find? found]

@[simp] theorem find?_deleteVideo (videos : VideoTable) (id wanted : VideoId) :
    (deleteVideo videos id).find? wanted = if id = wanted then none else videos.find? wanted := by
  rw [deleteVideo, Table.find?_delete]
  cases found : videos.find? wanted with
  | none => simp
  | some row =>
      have same : row.id = wanted := Table.key_of_find? found
      by_cases hit : id = wanted
      · simp [Option.filter_some, same, hit]
      · simp [Option.filter_some, same, hit, Ne.symm hit]

theorem find?_bulkMarkFailed (videos : VideoTable) (ids : List VideoId)
    (fromStatuses : List VideoStatus) (wanted : VideoId) :
    (bulkMarkFailed videos ids fromStatuses).find? wanted =
      (videos.find? wanted).map fun row =>
        if wanted ∈ ids ∧ row.status ∈ fromStatuses then { row with status := .failed }
        else row := by
  rw [bulkMarkFailed, Table.find?_update]
  refine Option.map_congr fun row found => ?_
  simp [Table.key_of_find? found]

end Benri.Postgres
