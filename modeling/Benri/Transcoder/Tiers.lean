import Benri.Transcoder.Builder

namespace Benri.Transcoder

open Benri.Data Benri.Data.Wiring

/-! # The tiers of a pipeline

The body of the loop adds the branch of one tier, and leaves both tees ready for the
next one.
-/

/-- The place of a tier's first element, and the numbers of its pads at the tees. -/
structure Branch where
  place : Nat
  videoPad : Nat
  audioPad : Nat
deriving DecidableEq, Repr

def Branch.sink (branch : Branch) : Nat := branch.place + 6

def Branch.audioQueue (branch : Branch) : Nat := branch.place + 7

variable {host : Host} {graph before after : Graph} {level : QualityLevel}
  {outputDir : String} {videoTee : Nat} {audioTee : Option Nat} {branch : Branch}

def audioElements : Option Nat → List Element
  | some _ => [.queue]
  | none => []

def audioLinks (branch : Branch) : Option Nat → List (Pad PadName × Pad PadName)
  | some tee => [(⟨tee, .requested branch.audioPad⟩, ⟨branch.audioQueue, .sink⟩),
      (⟨branch.audioQueue, .src⟩, ⟨branch.sink, .audio⟩)]
  | none => []

/-- The elements of a tier, and the links that come with them. -/
def branchElements (level : QualityLevel) (levelDir : String) (audioTee : Option Nat) :
    List Element :=
  levelElements level levelDir ++ audioElements audioTee

def branchLinks (videoTee : Nat) (audioTee : Option Nat) (branch : Branch) :
    List (Pad PadName × Pad PadName) :=
  levelLinks branch.place videoTee branch.videoPad ++ audioLinks branch audioTee

/-- The graph in the loop: the tees are there, and the source is not linked yet. -/
structure Ready (graph : Graph) (videoTee : Nat) (audioTee : Option Nat) : Prop where
  video : graph.elements[videoTee]? = some .tee
  audio : ∀ tee, audioTee = some tee → graph.elements[tee]? = some .tee
  static : ∀ linked ∈ graph.links, ∀ name, linked.1.name ≠ .dynamic name

theorem element_there {graph : Graph} {place : Nat} {element : Element}
    (found : graph.elements[place]? = some element) : place < graph.elements.length :=
  (List.getElem?_eq_some_iff.mp found).1

theorem buildLevel_yields (fresh : FreshPads host) (ready : Ready graph videoTee audioTee) :
    Yields (Refused host)
      (fun after => ∃ branch : Branch, branch.place = graph.elements.length ∧
        Grown graph after (branchElements level (levelDir outputDir level) audioTee)
          (branchLinks videoTee audioTee branch))
      (buildLevel host outputDir videoTee audioTee graph level) := by
  unfold buildLevel
  apply mkdir_bind
  apply (buildLevelBranch_yields fresh (element_there ready.video)).bind
  rintro ⟨built, sink⟩ ⟨rfl, videoPad, grown⟩
  cases audioTee with
  | none =>
      refine ⟨⟨graph.elements.length, videoPad, 0⟩, rfl, ?_⟩
      simpa [branchElements, branchLinks, audioElements, audioLinks] using grown
  | some tee =>
      have there := element_there (ready.audio tee rfl)
      have idle : (⟨graph.elements.length + 6, .audio⟩ : Pad PadName) ∉
          built.links.map Prod.snd := by
        intro taken
        rcases grown.sink_iff.mp taken with older | newer
        · exact sink_fresh (by simp) older
        · simp [levelLinks, chain] at newer
      have length : built.elements.length = graph.elements.length + 7 := by
        rw [grown.length]
        rfl
      have teeThere : tee < built.elements.length := by
        rw [length]
        omega
      have sinkThere : graph.elements.length + 6 < built.elements.length := by
        rw [length]
        omega
      apply (linkAudioBranch_yields fresh teeThere sinkThere idle).mono
      rintro after ⟨audioPad, grownAudio⟩
      rw [length] at grownAudio
      exact ⟨⟨graph.elements.length, videoPad, audioPad⟩, rfl, grown.trans grownAudio⟩

/-- A branch is linked into its own elements only, and from static and request pads. -/
theorem branchLinks_into {linked : Pad PadName × Pad PadName}
    (member : linked ∈ branchLinks videoTee audioTee branch) :
    branch.place ≤ linked.2.element ∧ ∀ name, linked.1.name ≠ .dynamic name := by
  rcases List.mem_append.mp member with video | audio
  · simp only [levelLinks, chain, List.mem_append, List.mem_cons, List.not_mem_nil,
      or_false] at video
    rcases video with ((rfl | rfl | rfl | rfl | rfl) | rfl) | rfl <;> simp <;> omega
  · cases audioTee with
    | none => simp [audioLinks] at audio
    | some tee =>
        simp only [audioLinks, List.mem_cons, List.not_mem_nil, or_false] at audio
        rcases audio with rfl | rfl <;> simp [Branch.sink, Branch.audioQueue]

theorem branch_grafted {added : List Element} (behind : branch.place = before.elements.length)
    (grown : Grown before after added (branchLinks videoTee audioTee branch)) :
    Grafted before after :=
  ⟨_, _, grown, fun _ member => behind ▸ (branchLinks_into member).1⟩

theorem Ready.grown {added : List Element} (ready : Ready before videoTee audioTee)
    (grown : Grown before after added (branchLinks videoTee audioTee branch)) :
    Ready after videoTee audioTee where
  video := grown.element ready.video
  audio tee same := grown.element (ready.audio tee same)
  static := by
    intro linked member name
    rw [grown.links] at member
    rcases List.mem_append.mp member with older | newer
    · exact ready.static linked older name
    · exact (branchLinks_into newer).2 name

/-! ## What a tier's sink is fed with -/

/-- The encoder of a tier, from its output back to its queue. -/
def encoder (level : QualityLevel) : List (Element × PadName) :=
  [(.h264parse, .src), (.capsfilter (.h264 "high" "4"), .src),
    (.x264enc (level.targetBitrateBps / 1000) "zerolatency" "ultrafast"
      (SEGMENT_DURATION_SECS * 30), .src),
    (.capsfilter (.video level.resolution.1 level.resolution.2), .src), (.videoscale, .src),
    (.queue, .src)]

/-- The branch of a tier, up to the tees. -/
structure Branched (graph : Graph) (videoTee : Nat) (audioTee : Option Nat) (outputDir : String)
    (level : QualityLevel) (branch : Branch) : Prop where
  element : graph.elements[branch.sink]? = some (hlssink (levelDir outputDir level))
  video : Routed .sink graph ⟨branch.sink, .video⟩ (encoder level) ⟨branch.place, .sink⟩
  videoTeed : (⟨videoTee, .requested branch.videoPad⟩, ⟨branch.place, .sink⟩) ∈ graph.links
  audio : ∀ tee, audioTee = some tee →
    Routed .sink graph ⟨branch.sink, .audio⟩ [(.queue, .src)] ⟨branch.audioQueue, .sink⟩
  audioTeed : ∀ tee, audioTee = some tee →
    (⟨tee, .requested branch.audioPad⟩, ⟨branch.audioQueue, .sink⟩) ∈ graph.links
  silent : audioTee = none → (⟨branch.sink, .audio⟩ : Pad PadName) ∉ graph.links.map Prod.snd

theorem Branched.grafted (branched : Branched before videoTee audioTee outputDir level branch)
    (grafted : Grafted before after) : Branched after videoTee audioTee outputDir level branch where
  element := grafted.element branched.element
  video := branched.video.grafted grafted
  videoTeed := grafted.link branched.videoTeed
  audio tee same := (branched.audio tee same).grafted grafted
  audioTeed tee same := grafted.link (branched.audioTeed tee same)
  silent same := grafted.idle (element_there branched.element) (branched.silent same)

theorem branched_of_grown (behind : branch.place = before.elements.length)
    (grown : Grown before after (branchElements level (levelDir outputDir level) audioTee)
      (branchLinks videoTee audioTee branch)) :
    Branched after videoTee audioTee outputDir level branch where
  element := by
    rw [Branch.sink, behind, grown.behind]
    rfl
  video := by
    have scaled := chain_routed grown ((levelElements level (levelDir outputDir level)).take 5) 0
      ⟨_, rfl⟩ (fun linked member => List.mem_append_left _ (List.mem_append_left _
        (List.mem_append_left _ (behind ▸ member))))
    have parsed : Routed PadName.sink after ⟨branch.sink, .video⟩
        [(.h264parse, .src)] ⟨branch.place + 5, .sink⟩ := by
      refine .back (branch.place + 5) .src .h264parse (grown.joined ?_) ?_ (.here _)
      · simp [branchLinks, levelLinks, Branch.sink]
      · rw [behind, grown.behind]
        rfl
    rw [← behind] at scaled
    exact parsed.append scaled
  videoTeed := grown.joined (by simp [branchLinks, levelLinks])
  audio := by
    intro tee same
    subst same
    refine .back branch.audioQueue .src .queue (grown.joined ?_) ?_ (.here _)
    · simp [branchLinks, audioLinks]
    · rw [Branch.audioQueue, behind, grown.behind]
      rfl
  audioTeed := by
    intro tee same
    subst same
    exact grown.joined (by simp [branchLinks, audioLinks])
  silent := by
    intro same
    subst same
    intro taken
    rcases grown.sink_iff.mp taken with older | newer
    · exact sink_fresh (by simp [Branch.sink, behind]) older
    · simp [branchLinks, levelLinks, audioLinks, chain, Branch.sink] at newer

/-! ## The loop -/

theorem buildLevels_yields {levels : List QualityLevel} (fresh : FreshPads host)
    (ready : Ready graph videoTee audioTee) :
    Yields (Refused host)
      (fun after => Ready after videoTee audioTee ∧ Grafted graph after ∧
        ∃ branches : List Branch, (branches.map Branch.place).Nodup ∧
          (∀ branch ∈ branches, graph.elements.length ≤ branch.place) ∧
          List.Forall₂ (Branched after videoTee audioTee outputDir) levels branches)
      (levels.foldlM (buildLevel host outputDir videoTee audioTee) graph) := by
  induction levels generalizing graph with
  | nil => exact ⟨ready, .refl graph, [], List.nodup_nil, by simp, .nil⟩
  | cons level rest ih =>
      rw [List.foldlM_cons]
      apply (buildLevel_yields fresh ready).bind
      rintro middle ⟨branch, behind, grown⟩
      have grafted := branch_grafted behind grown
      have branched := branched_of_grown behind grown
      apply (ih (ready.grown grown)).mono
      rintro after ⟨readyAfter, graftedAfter, branches, nodup, beyond, tiers⟩
      have longer : branch.sink < middle.elements.length := element_there branched.element
      have own : branch.place ∉ branches.map Branch.place := by
        intro member
        obtain ⟨later, listed, same⟩ := List.mem_map.mp member
        have after := beyond later listed
        unfold Branch.sink at longer
        omega
      refine ⟨readyAfter, grafted.trans graftedAfter, branch :: branches,
        List.nodup_cons.mpr ⟨own, nodup⟩, ?_, .cons (branched.grafted graftedAfter) tiers⟩
      intro other member
      rcases List.mem_cons.mp member with rfl | later
      · exact behind.ge
      · exact grafted.length_le.trans (beyond other later)

/-! ## The pads of the tees -/

variable {levels : List QualityLevel} {branches : List Branch}

/-- Every branch is some tier's. -/
theorem exists_tier {P : QualityLevel → Branch → Prop} (tiers : List.Forall₂ P levels branches)
    (member : branch ∈ branches) : ∃ level, P level branch := by
  induction tiers with
  | nil => cases member
  | cons first _ ih =>
      rcases List.mem_cons.mp member with rfl | later
      · exact ⟨_, first⟩
      · exact ih later

/-- Branches at different places are linked to different pads of a tee. -/
theorem nodup_pads {tee : Nat} {pad queue : Branch → Nat}
    (places : (branches.map Branch.place).Nodup)
    (apart : ∀ first second : Branch, queue first = queue second → first.place = second.place)
    (teed : ∀ branch ∈ branches,
      (⟨tee, .requested (pad branch)⟩, ⟨queue branch, .sink⟩) ∈ graph.links) :
    (branches.map pad).Nodup := by
  apply List.Nodup.map_on _ (List.Nodup.of_map _ places)
  intro first firstIn second secondIn same
  have firstLink := teed first firstIn
  rw [same] at firstLink
  have queues := congrArg Pad.element (sink_unique firstLink (teed second secondIn))
  exact List.inj_on_of_nodup_map places firstIn secondIn (apart first second queues)

end Benri.Transcoder
