import Benri.Transcoder.Pipeline

namespace Benri.Transcoder

open Benri.Data Benri.Data.Wiring

/-! # Building a pipeline

What each builder adds to the graph, as lists of elements and of links.  Every link is
made to pads that have none: static pads of elements that were just added, and pads that
a tee has just given out.  So only the host can make the builder fail.
-/

/-- The error passes on what the host answered to a call. -/
inductive Refused (host : Host) : TranscoderError → Prop where
  | make (label message : String) (graph : Graph) (element : Element)
      (answer : host.make graph element = .error message) : Refused host (failed label message)
  | mkdir (path message : String) (answer : host.createDirAll path = .error message) :
      Refused host (failed "mkdir" message)
  | add (label message : String) (graph : Graph) (elements : List Element)
      (answer : host.add graph elements = .error message) : Refused host (failed label message)
  | getPad (label : String) (graph : Graph) (pad : Pad PadName)
      (answer : host.hasPad graph pad = false) : Refused host (.transcodeFailed label)
  | requestSrc (label : String) (graph : Graph) (tee : Nat)
      (answer : host.requestSrc graph tee = none) : Refused host (.transcodeFailed label)
  | link (label message : String) (graph : Graph) (source sink : Pad PadName)
      (answer : host.link graph source sink = .error message) : Refused host (failed label message)

variable {host : Host} {graph before after : Graph} {label : String}

section Calls

variable {Next : Type} {post : Next → Prop}

theorem make_bind {element : Element} {next : Element → Except TranscoderError Next}
    (rest : Yields (Refused host) post (next element)) :
    Yields (Refused host) post (make host label graph element >>= next) := by
  unfold make
  cases answer : host.make graph element with
  | ok => exact rest
  | error message => exact .make label message graph element answer

theorem mkdir_bind {path : String} {next : Unit → Except TranscoderError Next}
    (rest : Yields (Refused host) post (next ())) :
    Yields (Refused host) post (mkdir host path >>= next) := by
  unfold mkdir
  cases answer : host.createDirAll path with
  | ok => exact rest
  | error message => exact .mkdir path message answer

theorem add_bind {elements : List Element} {next : Graph → Except TranscoderError Next}
    (rest : Yields (Refused host) post (next (graph.add elements))) :
    Yields (Refused host) post (add host label graph elements >>= next) := by
  unfold add
  cases answer : host.add graph elements with
  | ok => exact rest
  | error message => exact .add label message graph elements answer

theorem getPad_bind {pad : Pad PadName} {next : Pad PadName → Except TranscoderError Next}
    (rest : Yields (Refused host) post (next pad)) :
    Yields (Refused host) post (getPad host label graph pad >>= next) := by
  unfold getPad
  cases answer : host.hasPad graph pad with
  | true => exact rest
  | false => exact .getPad label graph pad answer

/-- The pad that a tee gives out has no link. -/
theorem requestSrc_bind {tee : Nat} {next : Pad PadName → Except TranscoderError Next}
    (fresh : FreshPads host)
    (rest : ∀ index, (⟨tee, .requested index⟩ : Pad PadName) ∉ graph.links.map Prod.fst →
      Yields (Refused host) post (next ⟨tee, .requested index⟩)) :
    Yields (Refused host) post (requestSrc host label graph tee >>= next) := by
  unfold requestSrc
  cases answer : host.requestSrc graph tee with
  | some index => exact rest index (fresh graph tee index answer)
  | none => exact .requestSrc label graph tee answer

end Calls

theorem link_yields {source sink : Pad PadName} (free : graph.Free source sink) :
    Yields (Refused host) (fun after => Grown graph after [] [(source, sink)])
      (link host label graph source sink) := by
  unfold link
  cases answer : host.link graph source sink with
  | error message => exact .link label message graph source sink answer
  | ok =>
      obtain ⟨after, linked, grown⟩ := link?_of_free free
      rw [linked]
      exact grown

/-! ## Chains -/

/-- The links of a chain of elements that stand one behind the other. -/
def chain : Nat → Nat → List (Pad PadName × Pad PadName)
  | _, 0 => []
  | first, count + 1 => (⟨first, .src⟩, ⟨first + 1, .sink⟩) :: chain (first + 1) count

theorem linkMany_yields (count first : Nat) (room : first + count < graph.elements.length)
    (sources : ∀ linked ∈ graph.links, linked.1.element < first)
    (sinks : ∀ linked ∈ graph.links, linked.2.element ≤ first) :
    Yields (Refused host) (fun after => Grown graph after [] (chain first count))
      (linkMany host label graph (List.range' first (count + 1))) := by
  induction count generalizing first graph with
  | zero => exact .refl graph
  | succ count ih =>
      have free : graph.Free ⟨first, .src⟩ ⟨first + 1, .sink⟩ := by
        refine ⟨show first < _ by omega, show first + 1 < _ by omega, ?_, ?_⟩
        · intro taken
          obtain ⟨linked, member, same⟩ := List.mem_map.mp taken
          have earlier := sources linked member
          simp [same] at earlier
        · intro taken
          obtain ⟨linked, member, same⟩ := List.mem_map.mp taken
          have earlier := sinks linked member
          simp [same] at earlier
      simp only [List.range'_succ, linkMany]
      apply (link_yields free).bind
      intro next grown
      have settled : ∀ linked ∈ next.links,
          linked.1.element < first + 1 ∧ linked.2.element ≤ first + 1 := by
        intro linked member
        rw [grown.links] at member
        rcases List.mem_append.mp member with older | newer
        · have source := sources linked older
          have sink := sinks linked older
          omega
        · simp [List.mem_singleton.mp newer]
      have room : first + 1 + count < next.elements.length := by
        rw [grown.length, List.length_nil]
        omega
      have rest := ih (first + 1) room (fun linked member => (settled linked member).1)
        (fun linked member => (settled linked member).2)
      rw [List.range'_succ] at rest
      apply rest.mono
      intro after grownMore
      simpa [chain] using grown.trans grownMore

/-- A chain of elements that were just added. -/
theorem linkMany_added (added : List Element) (count : Nat) (few : count < added.length) :
    Yields (Refused host) (fun after => Grown graph after added (chain graph.elements.length count))
      (linkMany host label (graph.add added) (List.range' graph.elements.length (count + 1))) := by
  have grown := grown_add graph added
  have room : graph.elements.length + count < (graph.add added).elements.length := by
    rw [grown.length]
    omega
  apply (linkMany_yields count graph.elements.length room
    (fun linked member => (graph.within linked member).1)
    (fun linked member => Nat.le_of_lt (graph.within linked member).2)).mono
  intro after grownMore
  simpa using grown.trans grownMore

/-- Through a chain of new elements one comes from the last to the first. -/
theorem chain_routed {added : List Element} {new : List (Pad PadName × Pad PadName)}
    (grown : Grown before after added new) (elements : List Element) (skipped : Nat)
    (there : elements <+: added.drop skipped)
    (linked : ∀ link ∈ chain (before.elements.length + skipped) elements.length, link ∈ new) :
    Routed .sink after ⟨before.elements.length + skipped + elements.length, .sink⟩
      (elements.reverse.map fun element => (element, .src))
      ⟨before.elements.length + skipped, .sink⟩ := by
  induction elements generalizing skipped with
  | nil => exact .here _
  | cons element rest ih =>
      obtain ⟨others, split⟩ := there
      have found : after.elements[before.elements.length + skipped]? = some element := by
        rw [grown.behind, ← Nat.add_zero skipped, ← List.getElem?_drop, ← split]
        rfl
      have further := ih (skipped + 1)
        ⟨others, by rw [← List.drop_drop, ← split]; rfl⟩
        (fun link member => linked link (List.mem_cons_of_mem _ member))
      have first : Routed PadName.sink after ⟨before.elements.length + (skipped + 1), .sink⟩
          [(element, .src)] ⟨before.elements.length + skipped, .sink⟩ :=
        .back _ _ element (grown.joined (linked _ List.mem_cons_self)) found (.here _)
      have whole := further.append first
      simpa [Nat.add_assoc, Nat.add_comm 1] using whole

/-! ## The front-ends -/

theorem buildVideoFrontend_yields :
    Yields (Refused host)
      (fun front => Grown graph front.1 [.videoconvert, .tee] (chain graph.elements.length 1) ∧
        front.2 = (graph.elements.length, graph.elements.length + 1))
      (buildVideoFrontend host graph) := by
  unfold buildVideoFrontend
  apply make_bind
  apply make_bind
  apply add_bind
  apply (linkMany_added _ 1 (by simp)).bind
  intro linked grown
  exact ⟨grown, rfl⟩

theorem buildAudioFrontend_yields :
    Yields (Refused host)
      (fun front => Grown graph front.1
          [.audioconvert, .audioresample, .avencAac 128000, .aacparse, .tee]
          (chain graph.elements.length 4) ∧
        front.2 = (graph.elements.length, graph.elements.length + 4))
      (buildAudioFrontend host graph) := by
  unfold buildAudioFrontend
  apply make_bind
  apply make_bind
  apply make_bind
  apply make_bind
  apply make_bind
  apply add_bind
  apply (linkMany_added _ 4 (by simp)).bind
  intro linked grown
  exact ⟨grown, rfl⟩

/-! ## One tier -/

def levelElements (level : QualityLevel) (levelDir : String) : List Element :=
  [.queue, .videoscale, .capsfilter (.video level.resolution.1 level.resolution.2),
    .x264enc (level.targetBitrateBps / 1000) "zerolatency" "ultrafast"
      (SEGMENT_DURATION_SECS * 30),
    .capsfilter (.h264 "high" "4"), .h264parse, hlssink levelDir]

/-- The links of a tier's video; `index` is the number of its tee pad. -/
def levelLinks (place tee index : Nat) : List (Pad PadName × Pad PadName) :=
  chain place 5 ++ [(⟨place + 5, .src⟩, ⟨place + 6, .video⟩)] ++
    [(⟨tee, .requested index⟩, ⟨place, .sink⟩)]

theorem buildLevelBranch_yields {level : QualityLevel} {levelDir : String} {tee : Nat}
    (fresh : FreshPads host) (there : tee < graph.elements.length) :
    Yields (Refused host)
      (fun branch => branch.2 = graph.elements.length + 6 ∧ ∃ index,
        Grown graph branch.1 (levelElements level levelDir)
          (levelLinks graph.elements.length tee index))
      (buildLevelBranch host graph tee level levelDir) := by
  unfold buildLevelBranch
  apply make_bind
  apply make_bind
  apply make_bind
  apply make_bind
  apply make_bind
  apply make_bind
  apply make_bind
  apply add_bind
  apply (linkMany_added (levelElements level levelDir) 5 (by simp [levelElements])).bind
  intro chained grownChain
  apply getPad_bind
  apply getPad_bind
  have outputFree : chained.Free ⟨graph.elements.length + 5, .src⟩
      ⟨graph.elements.length + 6, .video⟩ :=
    grownChain.free (by simp [levelElements]) (by simp [levelElements])
      (source_fresh (by simp)) (by simp [chain]) (sink_fresh (by simp)) (by simp [chain])
  apply (link_yields outputFree).bind
  intro delivering grownOutput
  have grownDelivering := grownChain.trans grownOutput
  apply requestSrc_bind fresh
  intro index unlinked
  apply getPad_bind
  have idle : (⟨tee, .requested index⟩ : Pad PadName) ∉ graph.links.map Prod.fst :=
    fun linked => unlinked (grownDelivering.source_iff.mpr (.inl linked))
  have teeFree : delivering.Free ⟨tee, .requested index⟩ ⟨graph.elements.length, .sink⟩ :=
    grownDelivering.free (by simp [levelElements]; omega) (by simp [levelElements])
      idle (by simp [chain]) (sink_fresh (by simp)) (by simp [chain]; omega)
  apply (link_yields teeFree).bind
  intro teed grownTee
  have grownLevel := grownDelivering.trans grownTee
  simp only [List.append_nil] at grownLevel
  exact ⟨rfl, index, grownLevel⟩

theorem linkAudioBranch_yields {tee sink : Nat} (fresh : FreshPads host)
    (there : tee < graph.elements.length) (sinkThere : sink < graph.elements.length)
    (idle : (⟨sink, .audio⟩ : Pad PadName) ∉ graph.links.map Prod.snd) :
    Yields (Refused host)
      (fun after => ∃ index, Grown graph after [.queue]
        [(⟨tee, .requested index⟩, ⟨graph.elements.length, .sink⟩),
          (⟨graph.elements.length, .src⟩, ⟨sink, .audio⟩)])
      (linkAudioBranch host graph tee sink) := by
  unfold linkAudioBranch
  apply make_bind
  apply add_bind
  have grownAdd := grown_add graph [Element.queue]
  apply requestSrc_bind fresh
  intro index unlinked
  apply getPad_bind
  have teeFree : (graph.add [.queue]).Free ⟨tee, .requested index⟩
      ⟨graph.elements.length, .sink⟩ :=
    grownAdd.free (by simp; omega) (by simp) unlinked (by simp) (sink_fresh (by simp))
      (by simp)
  apply (link_yields teeFree).bind
  intro teed grownTee
  apply getPad_bind
  apply getPad_bind
  have grownTeed := grownAdd.trans grownTee
  have sinkFree : teed.Free ⟨graph.elements.length, .src⟩ ⟨sink, .audio⟩ :=
    grownTeed.free (by simp) (by simp; omega) (source_fresh (by simp)) (by simp) idle (by simp)
  apply (link_yields sinkFree).mono
  intro after grownSink
  exact ⟨index, grownTeed.trans grownSink⟩

end Benri.Transcoder
