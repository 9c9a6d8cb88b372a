import Benri.Api.Handlers

namespace Benri.Frontend

open Benri.Api Benri.Domain Benri.Service Benri.Storage

/-! # The pages

`api.js`, the upload page and the share page.  A page is what its state variables say,
and `handleUpload` and the loops by the point at which they wait.  What a page reads of a
response is a field of the JSON, and a text that is empty counts as absent.
-/

/-- JavaScript's `trim` takes the byte order mark for a space, too, but not U+0085. -/
def isJsSpace (char : Char) : Bool :=
  decide (char.toNat = 0xfeff) || (isWhitespace char && decide (char.toNat ≠ 0x85))

def jsTrim (text : String) : String :=
  String.ofList ((text.toList.dropWhile isJsSpace).reverse.dropWhile isJsSpace).reverse

structure LocalFile where
  mimeType : String
  body : Body

/-! ## `api.js` -/

/-- What `fetch` comes to; a failure has a message of the browser's. -/
abbrev Reply := Except String Response

def Response.isOk (response : Response) : Bool :=
  decide (200 ≤ response.status) && decide (response.status < 300)

def textField (body : Json) (name : String) : Option String :=
  match body with
  | .object fields =>
      match (fields.find? fun field => decide (field.1 = name)).map Prod.snd with
      | some (.string text) => if text = "" then none else some text
      | _ => none
  | _ => none

/-- The body of a good response, or the error that is thrown. -/
def bodyOf (fallback : String) : Reply → Except String Json
  | .error message => .error message
  | .ok response =>
      if Response.isOk response then .ok response.body
      else .error ((textField response.body "error").getD fallback)

def SUPPORTED_TYPES : List String :=
  ["video/mp4", "video/webm", "video/quicktime", "video/x-msvideo", "video/x-matroska"]

def MAX_SIZE : Nat := 1073741824

def validateFile (file : LocalFile) : Option String :=
  if ¬ SUPPORTED_TYPES.contains file.mimeType then
    some "Unsupported file format. Accepted: MP4, WebM, MOV, AVI, MKV"
  else if MAX_SIZE < file.body.size then some "File exceeds 1 GB limit"
  else none

/-! ## The upload page -/

inductive UploadStatus where
  | idle
  | initiating
  | uploading (videoId uploadUrl : String) (file : LocalFile)
  | completing (videoId : String)
  | requesting (videoId : String) (attempt : Nat)
  | pausing (videoId : String) (attempt : Nat)
  | done (shareUrl : String)
  | error (errorMessage : String)

structure UploadPage where
  title : String
  file : Option LocalFile
  status : UploadStatus

def UploadPage.initial : UploadPage := ⟨"", none, .idle⟩

def UploadPage.to (page : UploadPage) (status : UploadStatus) : UploadPage := { page with status }

/-- The field for the title is there until an upload was started. -/
def UploadPage.typeTitle (page : UploadPage) (title : String) : Option UploadPage :=
  match page.status with
  | .idle => some { page with title }
  | _ => none

/-- A file can be chosen or dropped at any time. -/
def UploadPage.choose (page : UploadPage) (file : Option LocalFile) : UploadPage :=
  { page with file }

/-- Whether the upload button can be pressed, as far as the status goes. -/
def UploadStatus.enabled : UploadStatus → Bool
  | .idle | .error _ => true
  | .initiating | .uploading _ _ _ | .completing _ | .requesting _ _ | .pausing _ _ | .done _ =>
      false

/-- `handleUpload` up to its first request, and what that declares. -/
def UploadPage.submit (page : UploadPage) : Option (UploadPage × InitiateUploadInput) :=
  page.file.bind fun file =>
    if page.status.enabled && decide (jsTrim page.title ≠ "") then
      match validateFile file with
      | some message => some (page.to (.error message), ⟨jsTrim page.title, file.mimeType⟩)
      | none => some (page.to .initiating, ⟨jsTrim page.title, file.mimeType⟩)
    else none

/-- The file is the one that is chosen by now. -/
def UploadPage.initiated (page : UploadPage) (reply : Reply) : UploadPage :=
  match bodyOf "Failed to initiate upload" reply with
  | .error message => page.to (.error message)
  | .ok body =>
      match page.file with
      | none => page.to (.error "Cannot read properties of null (reading 'type')")
      | some file => page.to (.uploading ((textField body "id").getD "undefined")
          ((textField body "upload_url").getD "undefined") file)

def UploadPage.uploaded (page : UploadPage) (videoId : String) (stored : Bool) : UploadPage :=
  if stored then page.to (.completing videoId)
  else page.to (.error "Upload to storage failed")

def UploadPage.completed (page : UploadPage) (videoId : String) (reply : Reply) : UploadPage :=
  match bodyOf "Failed to complete upload" reply with
  | .error message => page.to (.error message)
  | .ok _ => page.to (.requesting videoId 0)

def MAX_ATTEMPTS : Nat := 120

/-- An answer in the loop of `pollForShareUrl`. -/
def UploadPage.polled (page : UploadPage) (videoId : String) (attempt : Nat) (reply : Reply) :
    UploadPage :=
  match bodyOf "Failed to get status" reply with
  | .error message => page.to (.error message)
  | .ok body =>
      match textField body "share_url" with
      | some shareUrl => page.to (.done shareUrl)
      | none =>
          if textField body "status" = some "FAILED" then
            page.to (.error ((textField body "error_message").getD "Processing failed"))
          else page.to (.pausing videoId attempt)

def UploadPage.paused (page : UploadPage) (videoId : String) (attempt : Nat) : UploadPage :=
  if attempt + 1 < MAX_ATTEMPTS then page.to (.requesting videoId (attempt + 1))
  else page.to (.error "Processing timed out")

/-- The request under way fails. -/
def UploadPage.disconnected (page : UploadPage) (message : String) : Option UploadPage :=
  match page.status with
  | .initiating | .uploading _ _ _ | .completing _ | .requesting _ _ =>
      some (page.to (.error message))
  | _ => none

/-- The button that starts over is on the page of a finished upload. -/
def UploadPage.reset (page : UploadPage) : Option UploadPage :=
  match page.status with
  | .done _ => some .initial
  | _ => none

/-! ## The share page -/

structure SharePage where
  video : Option Json
  error : Option String
  player : Option String
  polling : Bool

/-- `loadAndPlay`. -/
def loadAndPlay (reply : Reply) : SharePage :=
  match bodyOf "Video not found" reply with
  | .error message => ⟨none, some message, none, false⟩
  | .ok body =>
      match textField body "stream_url" with
      | some streamUrl => ⟨some body, none, some streamUrl, false⟩
      | none => ⟨some body, none, none,
          decide (textField body "status" = some "PROCESSING" ∨
            textField body "status" = some "UPLOADED")⟩

end Benri.Frontend
