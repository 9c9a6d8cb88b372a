import Benri.Domain.Task

namespace Benri.Domain

/-! # Videos -/

def MAX_UPLOAD_SIZE_BYTES : Nat := 1073741824
def MAX_TITLE_LENGTH : Nat := 100

inductive VideoStatus where
  | pendingUpload
  | uploaded
  | processing
  | processed
  | failed
deriving DecidableEq, Repr

def VideoStatus.asStr : VideoStatus → String
  | .pendingUpload => "PENDING_UPLOAD"
  | .uploaded => "UPLOADED"
  | .processing => "PROCESSING"
  | .processed => "PROCESSED"
  | .failed => "FAILED"

inductive VideoFormat where
  | mp4
  | webm
  | mov
  | avi
  | mkv
deriving DecidableEq, Repr

def VideoFormat.fromMimeType (mime : String) : Option VideoFormat :=
  match mime with
  | "video/mp4" => some .mp4
  | "video/webm" => some .webm
  | "video/quicktime" => some .mov
  | "video/x-msvideo" => some .avi
  | "video/x-matroska" => some .mkv
  | _ => none

def VideoFormat.asStr : VideoFormat → String
  | .mp4 => "MP4"
  | .webm => "WEBM"
  | .mov => "MOV"
  | .avi => "AVI"
  | .mkv => "MKV"

def VideoFormat.extension : VideoFormat → String
  | .mp4 => ".mp4"
  | .webm => ".webm"
  | .mov => ".mov"
  | .avi => ".avi"
  | .mkv => ".mkv"

/-- Magic bytes; no format is recognised in fewer than twelve bytes. -/
def VideoFormat.validateSignature (format : VideoFormat) (bytes : List UInt8) : Bool :=
  if bytes.length < 12 then false
  else match format with
    | .mp4 | .mov => decide ((bytes.drop 4).take 4 = [0x66, 0x74, 0x79, 0x70])
    | .webm | .mkv => [0x1A, 0x45, 0xDF, 0xA3].isPrefixOf bytes
    | .avi => [0x52, 0x49, 0x46, 0x46].isPrefixOf bytes

structure Video where
  id : VideoId
  shareToken : Option String
  title : String
  format : VideoFormat
  status : VideoStatus
  uploadKey : String
  createdAt : Instant
deriving DecidableEq, Repr

/-- `storage_prefix`, which depends on the id alone. -/
def storagePrefix (id : VideoId) : String := "videos/" ++ id.uuid.text ++ "/"

def Video.storagePrefix (video : Video) : String := Domain.storagePrefix video.id

def Video.shareUrl (video : Video) (baseUrl : String) : Option String :=
  video.shareToken.map fun token => baseUrl ++ "/v/" ++ token

def Video.isStreamable (video : Video) : Bool :=
  decide (video.status = .processed) ||
    (decide (video.status = .processing) && video.shareToken.isSome)

def Video.streamUrl (video : Video) (cdnBaseUrl : String) : Option String :=
  if video.isStreamable then some (cdnBaseUrl ++ "/" ++ video.storagePrefix ++ "master.m3u8")
  else none

/-- The key that `initiate_upload` gives a new video's original. -/
def originalKey (id : VideoId) (format : VideoFormat) : String :=
  "uploads/" ++ id.uuid.text ++ "/original" ++ format.extension

theorem storagePrefix_length (id : VideoId) : (storagePrefix id).toList.length = 44 := by
  simp [storagePrefix, Uuid.text_length]

/-- The prefix of one video starts a key of another only if they are the same. -/
theorem storagePrefix_starts {left right : VideoId} {rest : List Char}
    (starts : (storagePrefix left).toList <+: (storagePrefix right).toList ++ rest) :
    left = right := by
  have equal := List.prefix_append (storagePrefix right).toList rest
  have same := (List.prefix_of_prefix_length_le starts equal
    (by rw [storagePrefix_length, storagePrefix_length])).eq_of_length
    (by rw [storagePrefix_length, storagePrefix_length])
  simp only [storagePrefix, String.toList_append, List.append_assoc, List.append_cancel_left_eq,
    List.append_cancel_right_eq] at same
  have texts := Uuid.text_injective (String.toList_inj.mp same)
  cases left
  cases right
  exact congrArg VideoId.mk texts

/-- The originals of different videos have different keys. -/
theorem originalKey_video {left right : VideoId} {leftFormat rightFormat : VideoFormat}
    (same : originalKey left leftFormat = originalKey right rightFormat) : left = right := by
  have chars := congrArg String.toList same
  simp only [originalKey, String.toList_append, List.append_assoc,
    List.append_cancel_left_eq] at chars
  have texts := Uuid.text_injective (String.toList_inj.mp
    (List.append_inj_left chars (by rw [Uuid.text_length, Uuid.text_length])))
  cases left
  cases right
  exact congrArg VideoId.mk texts

/-- The key of an original tells its format, too. -/
theorem originalKey_inj {left right : VideoId} {leftFormat rightFormat : VideoFormat} :
    originalKey left leftFormat = originalKey right rightFormat ↔
      left = right ∧ leftFormat = rightFormat := by
  refine ⟨fun same => ?_, fun same => by rw [same.1, same.2]⟩
  obtain rfl := originalKey_video same
  have chars := congrArg String.toList same
  simp only [originalKey, String.toList_append, List.append_cancel_left_eq] at chars
  refine ⟨rfl, ?_⟩
  cases leftFormat <;> cases rightFormat <;>
    first | rfl | simp [VideoFormat.extension] at chars

/-- No upload lies under a video's output prefix. -/
theorem originalKey_outside (id : VideoId) (owner : VideoId) (format : VideoFormat) :
    ¬ (storagePrefix id).toList <+: (originalKey owner format).toList := by
  intro starts
  obtain ⟨rest, same⟩ := starts
  simp [storagePrefix, originalKey] at same

end Benri.Domain
