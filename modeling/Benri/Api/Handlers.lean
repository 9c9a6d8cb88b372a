import Benri.Service.GetVideo
import Benri.Service.InitiateUpload

namespace Benri.Api

open Benri.Domain Benri.Postgres Benri.Service Benri.Storage Benri.Transition

/-! # The handlers of the API

A handler calls its use case and puts the answer into JSON; an error becomes a status
with a code and a message.  The id in a path is read as a UUID first.
-/

structure Response where
  status : Nat
  body : Json

def jsonOk (fields : List (String × Json)) : Response := ⟨200, .object fields⟩

structure ApiError where
  status : Nat
  error : String
  code : String
deriving DecidableEq, Repr

def ApiError.intoResponse (error : ApiError) : Response :=
  ⟨error.status, .object [("error", .string error.error), ("code", .string error.code)]⟩

def internalError (message : String) : ApiError :=
  ⟨500, "internal error: " ++ message, "INTERNAL_ERROR"⟩

def initiateUploadError : InitiateUploadError → ApiError
  | .titleRequired => ⟨400, "title is required", "TITLE_REQUIRED"⟩
  | .titleTooLong => ⟨400, "title exceeds maximum length", "TITLE_TOO_LONG"⟩
  | .unsupportedFormat => ⟨400, "unsupported video format", "UNSUPPORTED_FORMAT"⟩
  | .internal message => internalError message

def completeUploadError : CompleteUploadError → ApiError
  | .videoNotFound => ⟨404, "video not found", "VIDEO_NOT_FOUND"⟩
  | .alreadyCompleted => ⟨409, "already completed", "ALREADY_COMPLETED"⟩
  | .fileNotFoundInStorage => ⟨404, "file not found in storage", "FILE_NOT_FOUND_IN_STORAGE"⟩
  | .fileTooLarge => ⟨413, "file exceeds maximum size", "FILE_TOO_LARGE"⟩
  | .invalidFileSignature =>
      ⟨422, "file signature does not match declared format", "INVALID_FILE_SIGNATURE"⟩
  | .internal message => internalError message

def getVideoStatusError : GetVideoStatusError → ApiError
  | .videoNotFound => ⟨404, "video not found", "VIDEO_NOT_FOUND"⟩
  | .internal message => internalError message

def getVideoByTokenError : GetVideoByTokenError → ApiError
  | .videoNotFound => ⟨404, "video not found", "VIDEO_NOT_FOUND"⟩
  | .internal message => internalError message

def parseUuid (raw : String) : Except ApiError Uuid :=
  match Uuid.parseStr raw with
  | some uuid => .ok uuid
  | none => .error ⟨400, "'" ++ raw ++ "' is not a valid video id", "INVALID_VIDEO_ID"⟩

/-- An absent field of a response is `null`. -/
def optionalText : Option String → Json
  | some text => .string text
  | none => .null

def initiateUpload (stores : Stores) (fault : Fault) (presigned : Except String String)
    (body : InitiateUploadInput) (id : VideoId) : Stores × Response :=
  match Service.initiateUpload stores fault presigned body id with
  | (reached, .ok output) => (reached,
      jsonOk [("id", .string output.id.uuid.text), ("upload_url", .string output.uploadUrl)])
  | (reached, .error error) => (reached, (initiateUploadError error).intoResponse)

/-- What `complete_upload` answers once its use case has returned. -/
def completeUpload : Except CompleteUploadError CompleteUploadOutput → Response
  | .ok output =>
      jsonOk [("id", .string output.id.uuid.text), ("status", .string output.status.asStr)]
  | .error error => (completeUploadError error).intoResponse

def getVideoStatus (stores : Stores) (fault : Fault) (baseUrl raw : String) : Response :=
  match parseUuid raw with
  | .error error => error.intoResponse
  | .ok uuid =>
      match Service.getVideoStatus stores fault baseUrl ⟨uuid⟩ with
      | .ok output => jsonOk [("status", .string output.status.asStr),
          ("share_url", optionalText output.shareUrl)]
      | .error error => (getVideoStatusError error).intoResponse

def getVideoByToken (stores : Stores) (fault : Fault) (cdnBaseUrl shareToken : String) : Response :=
  match Service.getVideoByToken stores fault cdnBaseUrl shareToken with
  | .ok output =>
      jsonOk [("title", .string output.title), ("stream_url", optionalText output.streamUrl)]
  | .error error => (getVideoByTokenError error).intoResponse

theorem parseUuid_text (uuid : Uuid) : parseUuid uuid.text = .ok uuid := by
  rw [parseUuid, Uuid.parseStr_text]

end Benri.Api
