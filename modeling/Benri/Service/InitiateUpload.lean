import Benri.Postgres.Schema
import Benri.Service.System

namespace Benri.Service

open Benri.Data Benri.Domain Benri.Postgres Benri.Storage Benri.Transition

/-! # `InitiateUploadUseCase::execute` -/

structure InitiateUploadInput where
  title : String
  mimeType : String
deriving DecidableEq, Repr

structure InitiateUploadOutput where
  id : VideoId
  uploadUrl : String
deriving DecidableEq, Repr

inductive InitiateUploadError where
  | titleRequired
  | titleTooLong
  | unsupportedFormat
  | internal (message : String)
deriving DecidableEq, Repr

/-- `char::is_whitespace`. -/
def isWhitespace (char : Char) : Bool :=
  let code := char.toNat
  (decide (0x09 ≤ code) && decide (code ≤ 0x0d)) ||
    (decide (0x2000 ≤ code) && decide (code ≤ 0x200a)) ||
    [0x20, 0x85, 0xa0, 0x1680, 0x2028, 0x2029, 0x202f, 0x205f, 0x3000].contains code

/-- `str::trim`. -/
def trim (text : String) : String :=
  String.ofList ((text.toList.dropWhile isWhitespace).reverse.dropWhile isWhitespace).reverse

/-- The checks of `execute`, and the row that a request which passes them inserts. -/
def buildVideo (stores : Stores) (input : InitiateUploadInput) (id : VideoId) :
    Except InitiateUploadError Video :=
  let title := trim input.title
  let titleChars := title.length
  if title.isEmpty then .error .titleRequired
  else if MAX_TITLE_LENGTH < titleChars then .error .titleTooLong
  else match VideoFormat.fromMimeType input.mimeType with
    | none => .error .unsupportedFormat
    | some format => .ok (newVideo stores id title format)

/-- `VideoRepository::insert`; the columns and the key have their say. -/
def insertVideo (videos : VideoTable) (video : Video) : Except String VideoTable :=
  if videoFits video then
    match videos.insert? video with
    | none => .error duplicateKey
    | some after => .ok after
  else .error (databaseError "value violates a column constraint")

/-- `presigned` is the answer of `generate_presigned_upload_url`. -/
def initiateUpload (stores : Stores) (fault : Fault) (presigned : Except String String)
    (input : InitiateUploadInput) (id : VideoId) :
    Stores × Except InitiateUploadError InitiateUploadOutput :=
  match buildVideo stores input id with
  | .error error => (stores, .error error)
  | .ok video =>
      match insertVideo stores.videos video with
      | .error error => (stores, .error (.internal error))
      | .ok videos =>
          match attempt fault databaseError stores { stores with
            videos, issued := stores.issued ++ [id] } () with
          | (reached, .error error) => (reached, .error (.internal error))
          | (reached, .ok ()) =>
              match presigned with
              | .error error => (reached, .error (.internal error))
              | .ok url => (reached, .ok ⟨id, url⟩)

variable {stores : Stores} {input : InitiateUploadInput} {id : VideoId} {video : Video}

/-- A row that is built has a title of 1 to 100 characters, and a known format. -/
theorem buildVideo_ok (built : buildVideo stores input id = .ok video) :
    (trim input.title).length ≤ MAX_TITLE_LENGTH ∧
      ∃ format, VideoFormat.fromMimeType input.mimeType = some format ∧
        video = newVideo stores id (trim input.title) format := by
  simp only [buildVideo] at built
  by_cases empty : (trim input.title).isEmpty = true
  · rw [if_pos empty] at built
    cases built
  · rw [if_neg empty] at built
    by_cases long : MAX_TITLE_LENGTH < (trim input.title).length
    · rw [if_pos long] at built
      cases built
    · rw [if_neg long] at built
      refine ⟨Nat.le_of_not_lt long, ?_⟩
      cases known : VideoFormat.fromMimeType input.mimeType with
      | none =>
          rw [known] at built
          cases built
      | some format =>
          rw [known] at built
          cases built
          exact ⟨format, rfl, rfl⟩

theorem insertVideo_ok {videos after : VideoTable} (inserted : insertVideo videos video = .ok after) :
    videoFits video = true ∧ videos.insert? video = some after := by
  unfold insertVideo at inserted
  split at inserted
  · rename_i fits
    split at inserted
    · contradiction
    · rename_i table there
      cases inserted
      exact ⟨fits, there⟩
  · contradiction

/-- The call leaves the stores alone, or it is the step that gives the id to a new
video. -/
theorem initiateUpload_step {fault : Fault} {presigned : Except String String}
    (fresh : id ∉ stores.issued) :
    (initiateUpload stores fault presigned input id).1 = stores ∨
      ∃ format, initiateStep stores id (trim input.title) format true =
        some (initiateUpload stores fault presigned input id).1 := by
  unfold initiateUpload
  cases built : buildVideo stores input id with
  | error error => exact .inl rfl
  | ok video =>
      obtain ⟨_, format, _, rfl⟩ := buildVideo_ok built
      dsimp only
      cases inserted : insertVideo stores.videos (newVideo stores id (trim input.title) format) with
      | error error => exact .inl rfl
      | ok videos =>
          have stepped : initiateStep stores id (trim input.title) format true =
              some { stores with videos, issued := stores.issued ++ [id] } := by
            rw [initiateStep, if_neg fresh, if_pos rfl, (insertVideo_ok inserted).2, Option.map_some]
          cases fault with
          | none => cases presigned <;> exact .inr ⟨format, stepped⟩
          | error applied message =>
              cases applied
              · exact .inl rfl
              · exact .inr ⟨format, stepped⟩

/-- A call that goes through has given the id to the video that was asked for. -/
theorem initiateUpload_ok {fault : Fault} {presigned : Except String String} {reached : Stores}
    {output : InitiateUploadOutput} (fresh : id ∉ stores.issued)
    (answered : initiateUpload stores fault presigned input id = (reached, .ok output)) :
    output.id = id ∧ ∃ format, VideoFormat.fromMimeType input.mimeType = some format ∧
      initiateStep stores id (trim input.title) format true = some reached := by
  unfold initiateUpload at answered
  cases built : buildVideo stores input id with
  | error error =>
      rw [built] at answered
      cases answered
  | ok video =>
      obtain ⟨_, format, known, rfl⟩ := buildVideo_ok built
      rw [built] at answered
      dsimp only at answered
      cases inserted : insertVideo stores.videos (newVideo stores id (trim input.title) format) with
      | error error =>
          rw [inserted] at answered
          cases answered
      | ok videos =>
          rw [inserted] at answered
          cases fault with
          | error applied message => cases answered
          | none =>
              cases presigned with
              | error message => cases answered
              | ok url =>
                  cases answered
                  refine ⟨rfl, format, known, ?_⟩
                  rw [initiateStep, if_neg fresh, if_pos rfl, (insertVideo_ok inserted).2,
                    Option.map_some]

/-! ## The columns -/

/-- A validated row fits its columns unless the title holds a NUL, which `trim`
keeps and no check looks for. -/
theorem videoFits_iff (built : buildVideo stores input id = .ok video) :
    videoFits video = true ↔ NulFree (trim input.title) := by
  obtain ⟨short, format, _, rfl⟩ := buildVideo_ok built
  have key : NulFree (originalKey id format) := by
    simp only [originalKey, NulFree.append]
    exact ⟨⟨⟨by decide, id.uuid.text_nul⟩, by decide⟩, by cases format <;> decide⟩
  have formatText : TextColumn.fits ⟨some 10, false⟩ (some format.asStr) = true := by
    cases format <;> decide
  have statusText : TextColumn.fits ⟨some 20, false⟩ (some VideoStatus.pendingUpload.asStr) =
      true := by decide
  have keyText : TextColumn.fits ⟨none, false⟩ (some (originalKey id format)) = true := by
    rw [TextColumn.fits, decide_eq_true key]
    rfl
  have titleText : TextColumn.fits ⟨some 100, false⟩ (some (trim input.title)) = true ↔
      NulFree (trim input.title) := by
    have short : (trim input.title).length ≤ 100 := short
    simp [TextColumn.fits, short]
  have token : TextColumn.fits ⟨some 21, true⟩ none = true := rfl
  rw [videoFits, newVideo, formatText, statusText, keyText, token, Bool.true_and, Bool.and_true,
    Bool.and_true, Bool.and_true, titleText]

/-- With nothing else in its way, a validated request goes through just when its row
fits. -/
theorem initiateUpload_ok_iff (built : buildVideo stores input id = .ok video)
    (fresh : stores.videos.find? id = none) (url : String) :
    (initiateUpload stores .none (.ok url) input id).2 = .ok ⟨id, url⟩ ↔
      videoFits video = true := by
  obtain ⟨_, format, _, rfl⟩ := buildVideo_ok built
  rw [initiateUpload, built]
  have absent : stores.videos.find? (newVideo stores id (trim input.title) format).id = none := fresh
  obtain ⟨videos, inserted⟩ := Table.insert?_of_absent absent
  by_cases fits : videoFits (newVideo stores id (trim input.title) format) = true
  · simp [insertVideo, fits, inserted]
  · simp [insertVideo, fits]

end Benri.Service
