import Benri.Storage.Objects
import Benri.Transcoder.Playlist
import Benri.Transition.Run
import Mathlib.Data.List.Sort

namespace Benri.Transcoder

open Benri.Data Benri.Domain Benri.Storage Benri.Transition

/-! # The HLS uploader

`HlsUploader::run` as a machine that makes one storage call a step.  What the
nested loops of a tick have left to do is a list of actions: starting a tier
puts its uploads in front of the remaining tiers, and the first low segment puts
the low playlist and the master in front of everything else.
-/

structure PerTier (Value : Type) where
  low : Value
  medium : Value
  high : Value
deriving DecidableEq, Repr

namespace PerTier

variable {Value : Type}

def all (value : Value) : PerTier Value := ⟨value, value, value⟩

def get (tiers : PerTier Value) : QualityLevel → Value
  | .low => tiers.low
  | .medium => tiers.medium
  | .high => tiers.high

def set (tiers : PerTier Value) (level : QualityLevel) (value : Value) : PerTier Value :=
  match level with
  | .low => { tiers with low := value }
  | .medium => { tiers with medium := value }
  | .high => { tiers with high := value }

@[simp] theorem get_set (tiers : PerTier Value) (level wanted : QualityLevel) (value : Value) :
    (tiers.set level value).get wanted = if level = wanted then value else tiers.get wanted := by
  cases level <;> cases wanted <;> rfl

end PerTier

inductive TranscoderError where
  | probeFailed (message : String)
  | transcodeFailed (message : String)
deriving DecidableEq, Repr

/-! ## The temp directory -/

structure File where
  name : String
  content : Content

/-- The tier directories; one that was never made, or is gone, is `none`. -/
abbrev Disk := PerTier (Option (List File))

/-- `%05d`. -/
def padded (index : Nat) : String :=
  let digits := toString index
  String.ofList (List.replicate (5 - digits.length) '0') ++ digits

def segmentName (index : Nat) : String := "segment_" ++ padded index ++ ".ts"

/-- What `hlssink2` writes into a tier directory. -/
inductive PipelineFile where
  | segment (index : Nat)
  | playlist
deriving DecidableEq, Repr

def PipelineFile.name : PipelineFile → String
  | .segment index => segmentName index
  | .playlist => "playlist.m3u8"

/-- `Path::extension`: what follows the last dot, unless the dot comes first. -/
def extension (name : List Char) : Option (List Char) :=
  match name.reverse.dropWhile (· ≠ '.') with
  | [] | [_] => none
  | _ :: _ :: _ => some (name.reverse.takeWhile (· ≠ '.')).reverse

def SEGMENT_EXTENSION : String := "ts"
def MASTER_FILENAME : String := "master.m3u8"
def PLAYLIST_FILENAME : String := "playlist.m3u8"
def TS_CONTENT_TYPE : String := "video/mp2t"
def HLS_CONTENT_TYPE : String := "application/vnd.apple.mpegurl"

def isSegmentFile (name : String) : Bool :=
  decide (extension name.toList = some SEGMENT_EXTENSION.toList)

/-- The segment files of a directory in filename order. -/
def scanSegments (files : List File) : List String :=
  ((files.map File.name).filter isSegmentFile).insertionSort (· ≤ ·)

inductive TickMode where
  | running
  | finalDrain
deriving DecidableEq, Repr

def selectUploadableSegments (segments : List String) : TickMode → List String
  | .finalDrain => segments
  | .running => segments.take (segments.length - 1)

def tierObjectKey (outputPrefix : String) (level : QualityLevel) (filename : String) : String :=
  outputPrefix ++ level.name ++ "/" ++ filename

/-! ## The uploader -/

structure UploadState where
  uploadedSegments : PerTier (List String)
  lastPublishedPlaylist : PerTier (Option String)
  firstLowSegmentUploaded : Bool
  masterUploaded : Bool
deriving DecidableEq, Repr

def UploadState.default : UploadState where
  uploadedSegments := .all []
  lastPublishedPlaylist := .all none
  firstLowSegmentUploaded := false
  masterUploaded := false

/-- A step of a tick that is still to come. -/
inductive Action where
  | tier (level : QualityLevel) (mode : TickMode)
  | segment (level : QualityLevel) (filename : String)
  | publish (level : QualityLevel) (mode : TickMode)
  | master
deriving DecidableEq, Repr

inductive UploaderPhase where
  | sleeping
  | working (mode : TickMode) (todo : List Action)
  | returned (result : Except TranscoderError Unit)

structure HlsUploader where
  outputPrefix : String
  qualityLevels : List QualityLevel
  hasAudio : Bool
  /-- Whether the notifier is still there to be fired. -/
  notifier : Bool
  state : UploadState
  phase : UploaderPhase

/-- One transcode from `tokio::spawn(uploader.run(..))` on: the uploader task, the
pipeline thread, the directory between them, and the two channels. -/
structure Upload where
  uploader : HlsUploader
  disk : Disk
  /-- The pipeline thread is still running. -/
  pipeline : Bool
  /-- `transcode_to_hls` is still waiting; it is not once it was cancelled. -/
  awaited : Bool
  /-- `stop_tx` has been used or dropped. -/
  stopped : Bool
  /-- How often the notifier has been fired. -/
  signals : Nat
  /-- Every segment the pipeline has written so far, tier by tier. -/
  produced : PerTier (List String)

/-- The uploader right after the pipeline was built, which made the directories. -/
def Upload.start (outputPrefix : String) (qualityLevels : List QualityLevel) (hasAudio : Bool) :
    Upload where
  uploader := {
    outputPrefix, qualityLevels, hasAudio, notifier := true, state := .default
    phase := .sleeping }
  disk := qualityLevels.foldl (fun disk level => disk.set level (some [])) (.all none)
  pipeline := true
  awaited := true
  stopped := false
  signals := 0
  produced := .all []

/-- What an action leaves: the world, and what it asks to be done next. -/
structure Outcome where
  objects : Objects
  upload : Upload
  next : Except TranscoderError (List Action)

def Upload.withState (upload : Upload) (state : UploadState) : Upload :=
  { upload with uploader := { upload.uploader with state } }

/-- The body of `upload_tier`, once the directory was read. -/
def tierActions (level : QualityLevel) (mode : TickMode) (files : List File) : List Action :=
  (selectUploadableSegments (scanSegments files) mode).flatMap
    (fun filename => [.segment level filename, .publish level .running]) ++ [.publish level mode]

/-- `upload_tier` up to its first upload. -/
def uploadTier (objects : Objects) (upload : Upload) (fault : Fault) (level : QualityLevel)
    (mode : TickMode) : Outcome :=
  match upload.disk.get level with
  | none => ⟨objects, upload, .ok []⟩
  | some files =>
      match fault with
      | .error _ message => ⟨objects, upload, .error (.transcodeFailed ("readdir " ++ message))⟩
      | .none => ⟨objects, upload, .ok (tierActions level mode files)⟩

/-- `publish_master_and_notify` up to its first upload. -/
def publishMasterAndNotify (state : UploadState) : List Action :=
  if state.masterUploaded then [] else [.publish .low .running, .master]

/-- The bookkeeping of `upload_one_segment` once the segment is stored. -/
def recordSegment (upload : Upload) (level : QualityLevel) (filename : String) :
    Upload × List Action :=
  let state := upload.uploader.state
  let recorded := { state with
    uploadedSegments := state.uploadedSegments.set level
      (state.uploadedSegments.get level ++ [filename]) }
  if level = .low ∧ state.firstLowSegmentUploaded = false then
    let first := { recorded with firstLowSegmentUploaded := true }
    (upload.withState first, publishMasterAndNotify first)
  else (upload.withState recorded, [])

def without (files : List File) (filename : String) : List File :=
  files.filter fun file => decide (file.name ≠ filename)

def removeFile (upload : Upload) (level : QualityLevel) (filename : String) : Upload :=
  { upload with
    disk := upload.disk.set level ((upload.disk.get level).map fun files =>
      without files filename) }

/-- `removed` says whether deleting the local file succeeds. -/
def uploadOneSegment (objects : Objects) (upload : Upload) (fault : Fault) (removed : Bool)
    (level : QualityLevel) (filename : String) : Outcome :=
  if filename ∈ upload.uploader.state.uploadedSegments.get level then ⟨objects, upload, .ok []⟩
  else
    match ((upload.disk.get level).getD []).find? fun file => decide (file.name = filename) with
    | none => ⟨objects, upload, .error (.transcodeFailed ("upload segment: " ++
        storageError ("failed to read " ++ filename)))⟩
    | some file =>
        let key := tierObjectKey upload.uploader.outputPrefix level filename
        match attempt fault storageError objects
          (uploadBytes objects key (.bytes file.content) TS_CONTENT_TYPE) () with
        | (reached, .error error) =>
            ⟨reached, upload, .error (.transcodeFailed ("upload segment: " ++ error))⟩
        | (reached, .ok ()) =>
            let kept := if removed then removeFile upload level filename else upload
            let recorded := recordSegment kept level filename
            ⟨reached, recorded.1, .ok recorded.2⟩

def publishVariantPlaylistIfChanged (objects : Objects) (upload : Upload) (fault : Fault)
    (level : QualityLevel) (mode : TickMode) : Outcome :=
  let state := upload.uploader.state
  let segments := state.uploadedSegments.get level
  if segments = [] then ⟨objects, upload, .ok []⟩
  else
    let body := synthesizeVariantPlaylist segments (decide (mode = .finalDrain))
    if state.lastPublishedPlaylist.get level = some body then ⟨objects, upload, .ok []⟩
    else
      let key := tierObjectKey upload.uploader.outputPrefix level PLAYLIST_FILENAME
      match attempt fault storageError objects
        (uploadBytes objects key (.text body) HLS_CONTENT_TYPE) () with
      | (reached, .error error) =>
          ⟨reached, upload, .error (.transcodeFailed ("upload playlist: " ++ error))⟩
      | (reached, .ok ()) =>
          ⟨reached, upload.withState { state with
            lastPublishedPlaylist := state.lastPublishedPlaylist.set level (some body) }, .ok []⟩

def fireNotifierOnce (upload : Upload) : Upload :=
  if upload.uploader.notifier then
    { upload with
      uploader := { upload.uploader with notifier := false }, signals := upload.signals + 1 }
  else upload

/-- The last upload of `publish_master_and_notify`, and the signal. -/
def uploadMaster (objects : Objects) (upload : Upload) (fault : Fault) : Outcome :=
  let content := generateMasterPlaylist upload.uploader.qualityLevels upload.uploader.hasAudio
  let key := upload.uploader.outputPrefix ++ MASTER_FILENAME
  match attempt fault storageError objects
    (uploadBytes objects key (.text content) HLS_CONTENT_TYPE) () with
  | (reached, .error error) =>
      ⟨reached, upload, .error (.transcodeFailed ("upload master: " ++ error))⟩
  | (reached, .ok ()) =>
      ⟨reached, fireNotifierOnce
        (upload.withState { upload.uploader.state with masterUploaded := true }), .ok []⟩

def perform (objects : Objects) (upload : Upload) (fault : Fault) (removed : Bool) :
    Action → Outcome
  | .tier level mode => uploadTier objects upload fault level mode
  | .segment level filename => uploadOneSegment objects upload fault removed level filename
  | .publish level mode => publishVariantPlaylistIfChanged objects upload fault level mode
  | .master => uploadMaster objects upload fault

/-- A tick with nothing left to do is over; after the final drain so is the run. -/
def settle : TickMode → List Action → UploaderPhase
  | .running, [] => .sleeping
  | .finalDrain, [] => .returned (.ok ())
  | mode, action :: rest => .working mode (action :: rest)

def Upload.withPhase (upload : Upload) (phase : UploaderPhase) : Upload :=
  { upload with uploader := { upload.uploader with phase } }

def tick (mode : TickMode) (levels : List QualityLevel) : List Action :=
  levels.map fun level => .tier level mode

inductive UploadEvent where
  | write (level : QualityLevel) (file : PipelineFile) (content : Content)
  | endPipeline
  | stop
  | abandon
  | dropDisk
  | tick
  | drain
  | act (fault : Fault) (removed : Bool)

/-- The pipeline writes into a tier directory that is there.  It may write to a
segment again, but one that was deleted in the meantime is not made again. -/
def writeStep (upload : Upload) (level : QualityLevel) (file : PipelineFile)
    (content : Content) : Option Upload :=
  match upload.disk.get level with
  | none => none
  | some files =>
      let written := { upload with
        disk := upload.disk.set level (some (without files file.name ++ [⟨file.name, content⟩])) }
      match file with
      | .playlist => some written
      | .segment index =>
          if segmentName index ∈ upload.produced.get level then
            if segmentName index ∈ files.map File.name then some written else none
          else some { written with
            produced := upload.produced.set level
              (upload.produced.get level ++ [segmentName index]) }

def actStep (objects : Objects) (upload : Upload) (fault : Fault) (removed : Bool) :
    Option (Objects × Upload) :=
  match upload.uploader.phase with
  | .working mode (action :: rest) =>
      let outcome := perform objects upload fault removed action
      match outcome.next with
      | .ok more => some (outcome.objects, outcome.upload.withPhase (settle mode (more ++ rest)))
      | .error error => some (outcome.objects, outcome.upload.withPhase (.returned (.error error)))
  | _ => none

/-- What is left of a transcode nobody waits for. -/
def Upload.abandon (upload : Upload) : Upload := { upload with awaited := false, stopped := true }

/-- The select of `HlsUploader::run`: a tick once the sleep is over. -/
def tickStep (upload : Upload) (mode : TickMode) : Option Upload :=
  match upload.uploader.phase with
  | .sleeping => some (upload.withPhase (settle mode (tick mode upload.uploader.qualityLevels)))
  | _ => none

/-- `stop_tx` is used once the pipeline has ended, and dropped when the transcode
is cancelled, which leaves the pipeline thread and the uploader to themselves. -/
def uploadStep (objects : Objects) (upload : Upload) : UploadEvent → Option (Objects × Upload)
  | .write level file content =>
      if upload.pipeline then
        (writeStep upload level file content).map fun written => (objects, written)
      else none
  | .endPipeline => some (objects, { upload with pipeline := false })
  | .stop =>
      if upload.awaited ∧ upload.pipeline = false then
        some (objects, { upload with stopped := true })
      else none
  | .abandon => some (objects, upload.abandon)
  | .dropDisk =>
      if upload.awaited then none else some (objects, { upload with disk := .all none })
  | .tick => (tickStep upload .running).map fun ticked => (objects, ticked)
  | .drain =>
      if upload.stopped then
        (tickStep upload .finalDrain).map fun ticked => (objects, ticked)
      else none
  | .act fault removed => actStep objects upload fault removed

end Benri.Transcoder
