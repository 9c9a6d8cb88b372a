import Benri.Data.Wiring
import Benri.Data.Yields
import Benri.Transcoder.HlsUploader

namespace Benri.Transcoder

open Benri.Data

/-! # `GstreamerTranscoder::build_parallel_pipeline`

The elements of the pipeline and the links between their pads.  What GStreamer and the
file system answer to the calls is the host's to say; of GStreamer itself only this is
taken for known, that a pad is linked once.
-/

inductive Caps where
  | video (width height : Nat)
  | h264 (profile level : String)
deriving DecidableEq, Repr

/-- An element by its factory, with the properties that are set. -/
inductive Element where
  | uridecodebin3 (uri : String)
  | videoconvert
  | tee
  | audioconvert
  | audioresample
  | avencAac (bitrate : Nat)
  | aacparse
  | queue
  | videoscale
  | capsfilter (caps : Caps)
  | x264enc (bitrate : Nat) (tune speedPreset : String) (keyIntMax : Nat)
  | h264parse
  | hlssink2 (targetDuration playlistLength maxFiles : Nat) (playlistLocation location : String)
deriving DecidableEq, Repr

/-- Static pads, the request pads of a tee and of `hlssink2`, and the pads that
`uridecodebin3` adds. -/
inductive PadName where
  | sink
  | src
  | requested (index : Nat)
  | video
  | audio
  | dynamic (name : String)
deriving DecidableEq, Repr

abbrev Graph := Wiring Element PadName

/-- What the host answers to the calls, each made with some graph built so far:
`ElementFactory::make`, `create_dir_all`, `Bin::add`, `static_pad` and `request_pad_simple`
for a pad of that name, `request_pad_simple` for the next `src_%u` pad of a tee, and
`Pad::link`. -/
structure Host where
  make : Graph → Element → Except String Unit
  createDirAll : String → Except String Unit
  add : Graph → List Element → Except String Unit
  hasPad : Graph → Pad PadName → Bool
  requestSrc : Graph → Nat → Option Nat
  link : Graph → Pad PadName → Pad PadName → Except String Unit

/-- A pad that a tee gives out is a new one. -/
def FreshPads (host : Host) : Prop :=
  ∀ graph tee index, host.requestSrc graph tee = some index →
    (⟨tee, .requested index⟩ : Pad PadName) ∉ graph.links.map Prod.fst

def failed (label message : String) : TranscoderError := .transcodeFailed (label ++ ": " ++ message)

def make (host : Host) (label : String) (graph : Graph) (element : Element) :
    Except TranscoderError Element :=
  match host.make graph element with
  | .ok () => .ok element
  | .error message => .error (failed label message)

def mkdir (host : Host) (path : String) : Except TranscoderError Unit :=
  match host.createDirAll path with
  | .ok () => .ok ()
  | .error message => .error (failed "mkdir" message)

def add (host : Host) (label : String) (graph : Graph) (elements : List Element) :
    Except TranscoderError Graph :=
  match host.add graph elements with
  | .ok () => .ok (graph.add elements)
  | .error message => .error (failed label message)

def getPad (host : Host) (label : String) (graph : Graph) (pad : Pad PadName) :
    Except TranscoderError (Pad PadName) :=
  if host.hasPad graph pad then .ok pad else .error (.transcodeFailed label)

def requestSrc (host : Host) (label : String) (graph : Graph) (tee : Nat) :
    Except TranscoderError (Pad PadName) :=
  match host.requestSrc graph tee with
  | some index => .ok ⟨tee, .requested index⟩
  | none => .error (.transcodeFailed label)

def link (host : Host) (label : String) (graph : Graph) (source sink : Pad PadName) :
    Except TranscoderError Graph :=
  match host.link graph source sink with
  | .error message => .error (failed label message)
  | .ok () =>
      match graph.link? source sink with
      | some linked => .ok linked
      | none => .error (failed label "Pad is already linked")

/-- `Element::link_many` of elements with one source pad and one sink pad each. -/
def linkMany (host : Host) (label : String) : Graph → List Nat → Except TranscoderError Graph
  | graph, first :: second :: rest => do
      let graph ← link host label graph ⟨first, .src⟩ ⟨second, .sink⟩
      linkMany host label graph (second :: rest)
  | graph, _ => .ok graph

def buildVideoFrontend (host : Host) (graph : Graph) :
    Except TranscoderError (Graph × Nat × Nat) := do
  let videoConvert ← make host "videoconvert" graph .videoconvert
  let videoTee ← make host "video tee" graph .tee
  let place := graph.elements.length
  let graph ← add host "add video front-end" graph [videoConvert, videoTee]
  let graph ← linkMany host "link video front-end" graph [place, place + 1]
  .ok (graph, place, place + 1)

def buildAudioFrontend (host : Host) (graph : Graph) :
    Except TranscoderError (Graph × Nat × Nat) := do
  let audioConvert ← make host "audioconvert" graph .audioconvert
  let audioResample ← make host "audioresample" graph .audioresample
  let audioEnc ← make host "avenc_aac" graph (.avencAac 128000)
  let audioParse ← make host "aacparse" graph .aacparse
  let audioTee ← make host "audio tee" graph .tee
  let place := graph.elements.length
  let graph ← add host "add audio front-end" graph
    [audioConvert, audioResample, audioEnc, audioParse, audioTee]
  let graph ← linkMany host "link audio front-end" graph
    [place, place + 1, place + 2, place + 3, place + 4]
  .ok (graph, place, place + 4)

/-- The audio front-end, only if the source has audio. -/
def audioChain (host : Host) (graph : Graph) :
    Bool → Except TranscoderError (Graph × Option (Nat × Nat))
  | true => (buildAudioFrontend host graph).map fun audio => (audio.1, some audio.2)
  | false => .ok (graph, none)

def hlssink (levelDir : String) : Element :=
  .hlssink2 SEGMENT_DURATION_SECS 0 0 (levelDir ++ "/playlist.m3u8")
    (levelDir ++ "/segment_%05d.ts")

def buildLevelBranch (host : Host) (graph : Graph) (videoTee : Nat) (level : QualityLevel)
    (levelDir : String) : Except TranscoderError (Graph × Nat) := do
  let vqueue ← make host "vqueue" graph .queue
  let vscale ← make host "videoscale" graph .videoscale
  let vcaps ← make host "capsfilter" graph
    (.capsfilter (.video level.resolution.1 level.resolution.2))
  let venc ← make host "x264enc" graph (.x264enc (level.targetBitrateBps / 1000) "zerolatency"
    "ultrafast" (SEGMENT_DURATION_SECS * 30))
  let h264Caps ← make host "h264 capsfilter" graph (.capsfilter (.h264 "high" "4"))
  let vparse ← make host "h264parse" graph .h264parse
  let sink ← make host "hlssink2" graph (hlssink levelDir)
  let place := graph.elements.length
  let graph ← add host "add level branch" graph
    [vqueue, vscale, vcaps, venc, h264Caps, vparse, sink]
  let graph ← linkMany host "link video chain" graph
    [place, place + 1, place + 2, place + 3, place + 4, place + 5]
  let hlsVideoSink ← getPad host "hlssink2 video pad" graph ⟨place + 6, .video⟩
  let vparseSrc ← getPad host "vparse src pad" graph ⟨place + 5, .src⟩
  let graph ← link host "link vparse→hlssink" graph vparseSrc hlsVideoSink
  let videoTeeSrc ← requestSrc host "video tee src pad" graph videoTee
  let vqueueSink ← getPad host "vqueue sink pad" graph ⟨place, .sink⟩
  let graph ← link host "link video tee" graph videoTeeSrc vqueueSink
  .ok (graph, place + 6)

def linkAudioBranch (host : Host) (graph : Graph) (audioTee sink : Nat) :
    Except TranscoderError Graph := do
  let aqueue ← make host "aqueue" graph .queue
  let place := graph.elements.length
  let graph ← add host "add aqueue" graph [aqueue]
  let audioTeeSrc ← requestSrc host "audio tee src pad" graph audioTee
  let aqueueSink ← getPad host "aqueue sink pad" graph ⟨place, .sink⟩
  let graph ← link host "link audio tee" graph audioTeeSrc aqueueSink
  let hlsAudioSink ← getPad host "hlssink2 audio pad" graph ⟨sink, .audio⟩
  let aqueueSrc ← getPad host "aqueue src pad" graph ⟨place, .src⟩
  link host "link aqueue→hlssink" graph aqueueSrc hlsAudioSink

def levelDir (outputDir : String) (level : QualityLevel) : String := outputDir ++ "/" ++ level.name

/-- The body of the loop over the tiers. -/
def buildLevel (host : Host) (outputDir : String) (videoTee : Nat) (audioTee : Option Nat)
    (graph : Graph) (level : QualityLevel) : Except TranscoderError Graph := do
  mkdir host (levelDir outputDir level)
  let (graph, sink) ← buildLevelBranch host graph videoTee level (levelDir outputDir level)
  match audioTee with
  | some audioTee => linkAudioBranch host graph audioTee sink
  | none => .ok graph

/-- A pipeline, and what its `pad-added` handler holds on to. -/
structure Pipeline where
  graph : Graph
  source : Nat
  videoConvert : Nat
  audioConvert : Option Nat

def buildParallelPipeline (host : Host) (inputUrl outputDir : String)
    (qualityLevels : List QualityLevel) (hasAudio : Bool) : Except TranscoderError Pipeline := do
  let src ← make host "uridecodebin3" .empty (.uridecodebin3 inputUrl)
  let video ← buildVideoFrontend host .empty
  let audio ← audioChain host video.1 hasAudio
  let source := audio.1.elements.length
  let graph ← add host "add src" audio.1 [src]
  let graph ← qualityLevels.foldlM
    (buildLevel host outputDir video.2.2 (audio.2.map Prod.snd)) graph
  .ok ⟨graph, source, video.2.1, audio.2.map Prod.fst⟩

/-- `accepted` says whether the target has its sink pad and `Pad::link` takes the two; what
goes wrong is only logged. -/
def linkDynamicPad (pipeline : Pipeline) (name : String) (accepted : Bool) (target : Nat) :
    Pipeline :=
  if (⟨target, .sink⟩ : Pad PadName) ∈ pipeline.graph.links.map Prod.snd then pipeline
  else if accepted then
    match pipeline.graph.link? ⟨pipeline.source, .dynamic name⟩ ⟨target, .sink⟩ with
    | some graph => { pipeline with graph }
    | none => pipeline
  else pipeline

structure DynamicPad where
  name : String
  accepted : Bool

def DynamicPad.isVideo (pad : DynamicPad) : Bool := "video_".toList.isPrefixOf pad.name.toList

def DynamicPad.isAudio (pad : DynamicPad) : Bool := "audio_".toList.isPrefixOf pad.name.toList

/-- The `pad-added` handler. -/
def padAdded (pipeline : Pipeline) (pad : DynamicPad) : Pipeline :=
  if pad.isVideo then linkDynamicPad pipeline pad.name pad.accepted pipeline.videoConvert
  else if pad.isAudio then
    match pipeline.audioConvert with
    | some target => linkDynamicPad pipeline pad.name pad.accepted target
    | none => pipeline
  else pipeline

end Benri.Transcoder
