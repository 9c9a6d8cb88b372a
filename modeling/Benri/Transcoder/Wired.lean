import Mathlib.Data.List.MinMax
import Benri.Transcoder.Tiers

namespace Benri.Transcoder

open Benri.Data Benri.Data.Wiring

/-! # What a built pipeline plays

The front-ends lead from the tees back to the two converters.  The pads of the source
appear while the pipeline runs; of those that are routed to a converter, it is the first
accepted one that feeds it.
-/

/-- The shared audio encoder, from its output back to `audioconvert`. -/
def audioEncoder : List (Element × PadName) :=
  [(.aacparse, .src), (.avencAac 128000, .src), (.audioresample, .src), (.audioconvert, .src)]

/-! ## The front-ends -/

/-- An element that a pad of the source may still be linked to. -/
structure Open (graph : Graph) (source place : Nat) : Prop where
  there : place < graph.elements.length
  idle : (⟨place, .sink⟩ : Pad PadName) ∉ graph.links.map Prod.snd
  apart : place ≠ source

theorem Open.grafted {before after : Graph} {source place : Nat} (isOpen : Open before source place)
    (grafted : Grafted before after) : Open after source place where
  there := isOpen.there.trans_le grafted.length_le
  idle := grafted.idle isOpen.there isOpen.idle
  apart := isOpen.apart

/-- The graph before the loop over the tiers. -/
structure Front (graph : Graph) (inputUrl : String) (source videoConvert videoTee : Nat)
    (audio : Option (Nat × Nat)) : Prop where
  ready : Ready graph videoTee (audio.map Prod.snd)
  decoder : graph.elements[source]? = some (.uridecodebin3 inputUrl)
  decoding : (⟨source, .sink⟩ : Pad PadName) ∉ graph.links.map Prod.snd
  converted : Routed .sink graph ⟨videoTee, .sink⟩ [(.videoconvert, .src)] ⟨videoConvert, .sink⟩
  isOpen : Open graph source videoConvert
  sound : ∀ audioConvert audioTee, audio = some (audioConvert, audioTee) →
    Routed .sink graph ⟨audioTee, .sink⟩ audioEncoder ⟨audioConvert, .sink⟩ ∧
      Open graph source audioConvert ∧ audioConvert ≠ videoConvert

theorem front_silent {graph : Graph} {inputUrl : String}
    (grown : Grown .empty graph [.videoconvert, .tee, .uridecodebin3 inputUrl] (chain 0 1)) :
    Front graph inputUrl 2 0 1 none where
  ready :=
    { video := by simp [grown.elements, Wiring.empty]
      audio := by simp
      static := by simp [grown.links, Wiring.empty, chain] }
  decoder := by simp [grown.elements, Wiring.empty]
  decoding := by simp [grown.links, Wiring.empty, chain]
  converted := chain_routed grown [.videoconvert] 0 ⟨_, rfl⟩ fun _ member => member
  isOpen := ⟨by simp [grown.elements, Wiring.empty],
    by simp [grown.links, Wiring.empty, chain], by simp⟩
  sound := by simp

theorem front_sound {graph : Graph} {inputUrl : String}
    (grown : Grown .empty graph [.videoconvert, .tee, .audioconvert, .audioresample,
      .avencAac 128000, .aacparse, .tee, .uridecodebin3 inputUrl] (chain 0 1 ++ chain 2 4)) :
    Front graph inputUrl 7 0 1 (some (2, 6)) where
  ready :=
    { video := by simp [grown.elements, Wiring.empty]
      audio := by
        intro tee same
        cases same
        simp [grown.elements, Wiring.empty]
      static := by simp [grown.links, Wiring.empty, chain] }
  decoder := by simp [grown.elements, Wiring.empty]
  decoding := by simp [grown.links, Wiring.empty, chain]
  converted := chain_routed grown [.videoconvert] 0 ⟨_, rfl⟩
    fun _ member => List.mem_append_left _ member
  isOpen := ⟨by simp [grown.elements, Wiring.empty],
    by simp [grown.links, Wiring.empty, chain], by simp⟩
  sound := by
    intro audioConvert audioTee same
    cases same
    exact ⟨chain_routed grown [.audioconvert, .audioresample, .avencAac 128000, .aacparse] 2
        ⟨_, rfl⟩ (fun _ member => List.mem_append_right _ member),
      ⟨by simp [grown.elements, Wiring.empty], by simp [grown.links, Wiring.empty, chain], by simp⟩,
      by simp⟩

/-! ## The built pipeline -/

/-- A tier whose sink is fed from the converters. -/
structure Fed (graph : Graph) (videoConvert : Nat) (audioConvert : Option Nat)
    (outputDir : String) (level : QualityLevel) (branch : Branch) : Prop where
  element : graph.elements[branch.sink]? = some (hlssink (levelDir outputDir level))
  video : Routed .sink graph ⟨branch.sink, .video⟩
    (encoder level ++ [(.tee, .requested branch.videoPad), (.videoconvert, .src)])
    ⟨videoConvert, .sink⟩
  audio : ∀ convert, audioConvert = some convert → Routed .sink graph ⟨branch.sink, .audio⟩
    ([(.queue, .src), (.tee, .requested branch.audioPad)] ++ audioEncoder) ⟨convert, .sink⟩
  silent : audioConvert = none →
    (⟨branch.sink, .audio⟩ : Pad PadName) ∉ graph.links.map Prod.snd

/-- Each tier has elements and tee pads of its own. -/
structure SeparateBranches (branches : List Branch) (hasAudio : Bool) : Prop where
  sinks : (branches.map Branch.sink).Nodup
  videoPads : (branches.map Branch.videoPad).Nodup
  audioPads : hasAudio = true → (branches.map Branch.audioPad).Nodup

/-- A pipeline that only waits for the pads of its source. -/
structure Assembled (pipeline : Pipeline) (inputUrl outputDir : String)
    (levels : List QualityLevel) (hasAudio : Bool) : Prop where
  decoder : pipeline.graph.elements[pipeline.source]? = some (.uridecodebin3 inputUrl)
  decoding : (⟨pipeline.source, .sink⟩ : Pad PadName) ∉ pipeline.graph.links.map Prod.snd
  static : ∀ linked ∈ pipeline.graph.links, ∀ name, linked.1.name ≠ .dynamic name
  isOpen : Open pipeline.graph pipeline.source pipeline.videoConvert
  sound : pipeline.audioConvert.isSome = hasAudio
  soundOpen : ∀ convert, pipeline.audioConvert = some convert →
    Open pipeline.graph pipeline.source convert ∧ convert ≠ pipeline.videoConvert
  tiers : ∃ branches, SeparateBranches branches hasAudio ∧ List.Forall₂
    (Fed pipeline.graph pipeline.videoConvert pipeline.audioConvert outputDir) levels branches

variable {host : Host} {inputUrl outputDir : String} {levels : List QualityLevel}

section Tiers

variable {graph front : Graph} {source videoConvert videoTee : Nat} {audio : Option (Nat × Nat)}

theorem Branched.fed {level : QualityLevel} {branch : Branch}
    (branched : Branched graph videoTee (audio.map Prod.snd) outputDir level branch)
    (fronted : Front front inputUrl source videoConvert videoTee audio)
    (grafted : Grafted front graph) :
    Fed graph videoConvert (audio.map Prod.fst) outputDir level branch where
  element := branched.element
  video := by
    have shared := Routed.back videoTee _ .tee branched.videoTeed
      (grafted.element fronted.ready.video) (fronted.converted.grafted grafted)
    exact branched.video.append shared
  audio := by
    intro convert same
    obtain ⟨⟨audioConvert, audioTee⟩, rfl, rfl⟩ := Option.map_eq_some_iff.mp same
    have shared := Routed.back audioTee _ .tee (branched.audioTeed audioTee rfl)
      (grafted.element (fronted.ready.audio audioTee rfl))
      ((fronted.sound audioConvert audioTee rfl).1.grafted grafted)
    exact (branched.audio audioTee rfl).append shared
  silent := by
    intro same
    rw [Option.map_eq_none_iff] at same
    subst same
    exact branched.silent rfl

theorem branches_apart {branches : List Branch} (places : (branches.map Branch.place).Nodup)
    (tiers : List.Forall₂ (Branched graph videoTee (audio.map Prod.snd) outputDir) levels
      branches) : SeparateBranches branches audio.isSome where
  sinks := by
    have nodup := places.map (add_left_injective 6)
    rwa [List.map_map] at nodup
  videoPads := by
    have teed : ∀ branch ∈ branches,
        (⟨videoTee, .requested branch.videoPad⟩, ⟨branch.place, .sink⟩) ∈ graph.links := by
      intro branch member
      obtain ⟨level, branched⟩ := exists_tier tiers member
      exact branched.videoTeed
    exact nodup_pads places (fun _ _ same => same) teed
  audioPads := by
    intro hasAudio
    obtain ⟨⟨convert, tee⟩, rfl⟩ := Option.isSome_iff_exists.mp hasAudio
    have teed : ∀ branch ∈ branches,
        (⟨tee, .requested branch.audioPad⟩, ⟨branch.audioQueue, .sink⟩) ∈ graph.links := by
      intro branch member
      obtain ⟨level, branched⟩ := exists_tier tiers member
      exact branched.audioTeed tee rfl
    exact nodup_pads places (fun _ _ same => Nat.add_right_cancel same) teed

/-- The loop over the tiers, behind a front-end. -/
theorem Front.assembled (fresh : FreshPads host)
    (front : Front graph inputUrl source videoConvert videoTee audio) :
    Yields (Refused host)
      (fun after => Assembled ⟨after, source, videoConvert, audio.map Prod.fst⟩ inputUrl outputDir
        levels audio.isSome)
      (levels.foldlM (buildLevel host outputDir videoTee (audio.map Prod.snd)) graph) := by
  apply (buildLevels_yields fresh front.ready).mono
  rintro after ⟨ready, grafted, branches, places, _, tiers⟩
  exact {
    decoder := grafted.element front.decoder
    decoding := grafted.idle (element_there front.decoder) front.decoding
    static := ready.static
    isOpen := front.isOpen.grafted grafted
    sound := Option.isSome_map
    soundOpen := by
      intro convert same
      obtain ⟨⟨audioConvert, audioTee⟩, rfl, rfl⟩ := Option.map_eq_some_iff.mp same
      obtain ⟨_, isOpen, apart⟩ := front.sound audioConvert audioTee rfl
      exact ⟨isOpen.grafted grafted, apart⟩
    tiers := ⟨branches, branches_apart places tiers,
      tiers.imp fun _ _ branched => branched.fed front grafted⟩ }

end Tiers

theorem audioChain_yields {video : Graph} (hasAudio : Bool)
    (grownVideo : Grown .empty video [.videoconvert, .tee] (chain 0 1)) :
    Yields (Refused host)
      (fun audio => audio.2.isSome = hasAudio ∧
        Front (audio.1.add [.uridecodebin3 inputUrl]) inputUrl audio.1.elements.length 0 1 audio.2)
      (audioChain host video hasAudio) := by
  have two : video.elements.length = 2 := grownVideo.length
  cases hasAudio with
  | false =>
      have front := front_silent (grownVideo.trans (grown_add video [.uridecodebin3 inputUrl]))
      rw [← two] at front
      exact ⟨rfl, front⟩
  | true =>
      apply Yields.map
      apply buildAudioFrontend_yields.mono
      rintro ⟨sound, audioConvert, audioTee⟩ ⟨grownAudio, places⟩
      rw [two] at grownAudio places
      cases places
      have grown := grownVideo.trans grownAudio
      have seven : sound.elements.length = 7 := grown.length
      have front := front_sound (grown.trans (grown_add sound [.uridecodebin3 inputUrl]))
      rw [← seven] at front
      exact ⟨rfl, front⟩

theorem buildParallelPipeline_yields (fresh : FreshPads host) (hasAudio : Bool) :
    Yields (Refused host)
      (fun pipeline => Assembled pipeline inputUrl outputDir levels hasAudio)
      (buildParallelPipeline host inputUrl outputDir levels hasAudio) := by
  unfold buildParallelPipeline
  apply make_bind
  apply buildVideoFrontend_yields.bind
  rintro ⟨video, videoConvert, videoTee⟩ ⟨grownVideo, places⟩
  cases places
  apply (audioChain_yields hasAudio grownVideo).bind
  rintro ⟨sound, audio⟩ ⟨rfl, front⟩
  apply add_bind
  apply (front.assembled fresh).bind
  intro graph assembled
  exact assembled

/-! ## Dynamic pads -/

/-- The element that a pad is to be linked to. -/
def route (pipeline : Pipeline) (pad : DynamicPad) : Option Nat :=
  if pad.isVideo then some pipeline.videoConvert
  else if pad.isAudio then pipeline.audioConvert
  else none

/-- The route of a pad depends on its name only. -/
theorem route_congr (pipeline : Pipeline) {first second : DynamicPad}
    (same : first.name = second.name) : route pipeline first = route pipeline second := by
  cases first
  cases second
  cases same
  rfl

theorem padAdded_eq (pipeline : Pipeline) (pad : DynamicPad) :
    padAdded pipeline pad = (route pipeline pad).elim pipeline
      (linkDynamicPad pipeline pad.name pad.accepted) := by
  unfold padAdded route
  split
  · rfl
  · split
    · cases pipeline.audioConvert <;> rfl
    · rfl

/-- The pad that came first to a target, of those that can be linked to it. -/
def firstPad (pipeline : Pipeline) (target : Nat) (pads : List DynamicPad) : Option DynamicPad :=
  pads.find? fun pad => pad.accepted && decide (route pipeline pad = some target)

theorem firstPad_snoc (pipeline : Pipeline) (target : Nat) (pads : List DynamicPad)
    (pad : DynamicPad) :
    firstPad pipeline target (pads ++ [pad]) = (firstPad pipeline target pads).or
      (if pad.accepted ∧ route pipeline pad = some target then some pad else none) := by
  unfold firstPad
  rw [List.find?_append]
  by_cases chosen : pad.accepted ∧ route pipeline pad = some target
  · simp [chosen]
  · simp only [if_neg chosen]
    congr 1
    simpa using chosen

theorem firstPad_next {pipeline : Pipeline} {target other : Nat} {pads : List DynamicPad}
    {pad found : DynamicPad} (accepted : pad.accepted) (routed : route pipeline pad = some target)
    (waiting : firstPad pipeline target pads = none) :
    firstPad pipeline other (pads ++ [pad]) = some found ↔
      firstPad pipeline other pads = some found ∨ other = target ∧ found = pad := by
  rw [firstPad_snoc]
  by_cases same : other = target
  · simp [same, waiting, accepted, routed, eq_comm]
  · simp [same, routed, Ne.symm same]

/-- What the handler has linked after a number of pads. -/
structure Attached (pipeline current : Pipeline) (pads : List DynamicPad) : Prop where
  places : current = { pipeline with graph := current.graph }
  elements : current.graph.elements = pipeline.graph.elements
  links : ∀ linked, linked ∈ current.graph.links ↔ linked ∈ pipeline.graph.links ∨
    ∃ target pad, firstPad pipeline target pads = some pad ∧
      linked = (⟨pipeline.source, .dynamic pad.name⟩, ⟨target, .sink⟩)

variable {pipeline current : Pipeline} {pads : List DynamicPad} {pad : DynamicPad}
  {hasAudio : Bool}

theorem route_open (assembled : Assembled pipeline inputUrl outputDir levels hasAudio)
    {target : Nat} (routed : route pipeline pad = some target) :
    Open pipeline.graph pipeline.source target := by
  unfold route at routed
  split at routed
  · cases routed
    exact assembled.isOpen
  · split at routed
    · exact (assembled.soundOpen target routed).1
    · cases routed

theorem Attached.route (attached : Attached pipeline current pads) :
    route current pad = route pipeline pad := by
  rw [attached.places]
  rfl

/-- A target is linked when a pad has come to it. -/
theorem Attached.linked_iff (attached : Attached pipeline current pads) {target : Nat}
    (isOpen : Open pipeline.graph pipeline.source target) :
    (⟨target, .sink⟩ : Pad PadName) ∈ current.graph.links.map Prod.snd ↔
      (firstPad pipeline target pads).isSome := by
  rw [Option.isSome_iff_exists]
  constructor
  · intro taken
    obtain ⟨linked, member, same⟩ := List.mem_map.mp taken
    rcases (attached.links linked).mp member with before | ⟨other, first, found, rfl⟩
    · exact absurd (List.mem_map.mpr ⟨linked, before, same⟩) isOpen.idle
    · cases same
      exact ⟨first, found⟩
  · rintro ⟨first, found⟩
    exact List.mem_map.mpr ⟨_, (attached.links _).mpr (.inr ⟨target, first, found, rfl⟩), rfl⟩

/-- A pad of the source can still be linked when nothing came to its target. -/
theorem Attached.free (attached : Attached pipeline current pads)
    (assembled : Assembled pipeline inputUrl outputDir levels hasAudio) {target : Nat}
    (routed : Transcoder.route pipeline pad = some target)
    (waiting : firstPad pipeline target pads = none) :
    current.graph.Free ⟨pipeline.source, .dynamic pad.name⟩ ⟨target, .sink⟩ := by
  have isOpen := route_open assembled routed
  refine ⟨?_, ?_, ?_, ?_⟩
  · rw [attached.elements]
    exact element_there assembled.decoder
  · rw [attached.elements]
    exact isOpen.there
  · intro taken
    obtain ⟨linked, member, same⟩ := List.mem_map.mp taken
    rcases (attached.links linked).mp member with before | ⟨other, first, found, rfl⟩
    · exact assembled.static linked before pad.name (congrArg Pad.name same)
    · -- Pads of one name go to one target.
      have named : first.name = pad.name := by simpa using congrArg Pad.name same
      have sameRoute := route_congr pipeline named
      have chosen := List.find?_some found
      simp only [Bool.and_eq_true, decide_eq_true_eq] at chosen
      rw [sameRoute, routed] at chosen
      obtain rfl := Option.some.inj chosen.2
      rw [waiting] at found
      cases found
  · rw [attached.linked_iff isOpen, waiting]
    simp

theorem Attached.padAdded (attached : Attached pipeline current pads)
    (assembled : Assembled pipeline inputUrl outputDir levels hasAudio) (pad : DynamicPad) :
    Attached pipeline (padAdded current pad) (pads ++ [pad]) := by
  rw [padAdded_eq, attached.route]
  -- Unless the pad is the first for its target, nothing changes.
  have unchanged (same : ∀ target,
      firstPad pipeline target (pads ++ [pad]) = firstPad pipeline target pads) :
      Attached pipeline current (pads ++ [pad]) :=
    ⟨attached.places, attached.elements, by simpa only [same] using attached.links⟩
  cases routed : Transcoder.route pipeline pad with
  | none =>
      apply unchanged
      intro target
      simp [firstPad_snoc, routed]
  | some target =>
      have isOpen := route_open assembled routed
      rw [Option.elim_some]
      unfold linkDynamicPad
      split
      · rename_i linked
        obtain ⟨first, found⟩ :=
          Option.isSome_iff_exists.mp ((attached.linked_iff isOpen).mp linked)
        apply unchanged
        intro other
        by_cases same : other = target
        · simp [firstPad_snoc, same, found]
        · simp [firstPad_snoc, routed, Ne.symm same]
      · rename_i idle
        split
        · rename_i accepted
          have waiting : firstPad pipeline target pads = none := by
            rw [attached.linked_iff isOpen] at idle
            simpa using idle
          obtain ⟨graph, linked, grown⟩ :=
            link?_of_free (attached.free assembled routed waiting)
          have source : current.source = pipeline.source := by rw [attached.places]
          rw [source, linked]
          refine ⟨?_, ?_, ?_⟩
          · rw [attached.places]
          · rw [grown.elements, List.append_nil]
            exact attached.elements
          · intro link
            rw [grown.links, List.mem_append, attached.links, List.mem_singleton, or_assoc]
            apply or_congr_right
            simp only [firstPad_next accepted routed waiting]
            constructor
            · rintro (⟨other, first, found, rfl⟩ | rfl)
              · exact ⟨other, first, .inl found, rfl⟩
              · exact ⟨target, pad, .inr ⟨rfl, rfl⟩, rfl⟩
            · rintro ⟨other, first, found | ⟨rfl, rfl⟩, rfl⟩
              · exact .inl ⟨other, first, found, rfl⟩
              · exact .inr rfl
        · rename_i refused
          apply unchanged
          intro other
          simp [firstPad_snoc, refused]

theorem attached_run (assembled : Assembled pipeline inputUrl outputDir levels hasAudio)
    (pads : List DynamicPad) : Attached pipeline (pads.foldl padAdded pipeline) pads := by
  suffices run : ∀ earlier current, Attached pipeline current earlier →
      Attached pipeline (pads.foldl padAdded current) (earlier ++ pads) by
    exact run [] pipeline ⟨rfl, rfl, by simp [firstPad]⟩
  induction pads with
  | nil => simp
  | cons pad rest ih =>
      intro earlier current attached
      have further := ih _ _ (attached.padAdded assembled pad)
      simpa using further

/-! ## Upstream of the sinks -/

/-- What is behind a converter. -/
def decoded (inputUrl : String) (pad : Option DynamicPad) : List (Element × PadName) :=
  pad.toList.map fun pad => (.uridecodebin3 inputUrl, .dynamic pad.name)

theorem Attached.upstream (attached : Attached pipeline current pads)
    (assembled : Assembled pipeline inputUrl outputDir levels hasAudio) {target : Nat}
    (isOpen : Open pipeline.graph pipeline.source target) :
    Upstream .sink current.graph ⟨target, .sink⟩
      (decoded inputUrl (firstPad pipeline target pads)) := by
  have linked := attached.linked_iff isOpen
  cases found : firstPad pipeline target pads with
  | none =>
      rw [found] at linked
      exact ⟨_, .here _, by simp [linked]⟩
  | some first =>
      have link := (attached.links _).mpr (.inr ⟨target, first, found, rfl⟩)
      have decoder : current.graph.elements[pipeline.source]? = some (.uridecodebin3 inputUrl) := by
        rw [attached.elements]
        exact assembled.decoder
      refine ⟨⟨pipeline.source, .sink⟩, .back _ _ _ link decoder (.here _), ?_⟩
      intro taken
      obtain ⟨into, member, same⟩ := List.mem_map.mp taken
      rcases (attached.links into).mp member with before | ⟨other, second, chosen, rfl⟩
      · exact assembled.decoding (List.mem_map.mpr ⟨into, before, same⟩)
      · have routed := List.find?_some chosen
        simp only [Bool.and_eq_true, decide_eq_true_eq] at routed
        exact (route_open assembled routed.2).apart (congrArg Pad.element same)

theorem Attached.behind (attached : Attached pipeline current pads)
    (assembled : Assembled pipeline inputUrl outputDir levels hasAudio) {target : Nat}
    (isOpen : Open pipeline.graph pipeline.source target) {pad : Pad PadName}
    {steps : List (Element × PadName)}
    (routed : Routed .sink pipeline.graph pad steps ⟨target, .sink⟩) :
    Upstream .sink current.graph pad
      (steps ++ decoded inputUrl (firstPad pipeline target pads)) := by
  obtain ⟨origin, further, ended⟩ := attached.upstream assembled isOpen
  have routedNow : Routed .sink current.graph pad steps ⟨target, .sink⟩ :=
    routed.mono (attached.elements ▸ List.prefix_refl _)
      fun link member => (attached.links link).mpr (.inl member)
  exact ⟨origin, routedNow.append further, ended⟩

/-- No name has both prefixes. -/
theorem video_not_audio (video : pad.isVideo = true) : pad.isAudio = false := by
  unfold DynamicPad.isVideo at video
  unfold DynamicPad.isAudio
  rw [List.isPrefixOf_iff_prefix] at video
  rw [Bool.eq_false_iff, ne_eq, List.isPrefixOf_iff_prefix]
  intro audio
  have same := (List.prefix_of_prefix_length_le video audio (by decide)).eq_of_length (by decide)
  exact absurd same (by decide)

theorem firstPad_video (assembled : Assembled pipeline inputUrl outputDir levels hasAudio) :
    firstPad pipeline pipeline.videoConvert pads =
      pads.find? fun pad => pad.accepted && pad.isVideo := by
  unfold firstPad
  congr 1
  funext pad
  congr 1
  unfold route
  cases video : pad.isVideo with
  | true => simp
  | false =>
      have apart : pipeline.audioConvert ≠ some pipeline.videoConvert :=
        fun same => (assembled.soundOpen _ same).2 rfl
      cases audio : pad.isAudio <;> simp [apart]

theorem firstPad_audio (assembled : Assembled pipeline inputUrl outputDir levels hasAudio)
    {convert : Nat} (sound : pipeline.audioConvert = some convert) :
    firstPad pipeline convert pads = pads.find? fun pad => pad.accepted && pad.isAudio := by
  unfold firstPad
  congr 1
  funext pad
  congr 1
  unfold route
  cases video : pad.isVideo with
  | true => simp [video_not_audio video, (assembled.soundOpen convert sound).2.symm]
  | false => cases audio : pad.isAudio <;> simp [sound]

/-- A tier of a running pipeline: its sink writes into the tier's directory, and this is
all that is upstream of it. -/
structure Plays (graph : Graph) (inputUrl outputDir : String) (hasAudio : Bool)
    (pads : List DynamicPad) (level : QualityLevel) (branch : Branch) : Prop where
  element : graph.elements[branch.sink]? = some (hlssink (levelDir outputDir level))
  video : Upstream .sink graph ⟨branch.sink, .video⟩
    (encoder level ++ [(.tee, .requested branch.videoPad), (.videoconvert, .src)] ++
      decoded inputUrl (pads.find? fun pad => pad.accepted && pad.isVideo))
  audio : Upstream .sink graph ⟨branch.sink, .audio⟩
    (if hasAudio then [(.queue, .src), (.tee, .requested branch.audioPad)] ++ audioEncoder ++
      decoded inputUrl (pads.find? fun pad => pad.accepted && pad.isAudio) else [])

theorem Fed.plays {level : QualityLevel} {branch : Branch}
    (assembled : Assembled pipeline inputUrl outputDir levels hasAudio)
    (attached : Attached pipeline current pads)
    (fed : Fed pipeline.graph pipeline.videoConvert pipeline.audioConvert outputDir level branch) :
    Plays current.graph inputUrl outputDir hasAudio pads level branch where
  element := by
    rw [attached.elements]
    exact fed.element
  video := by
    have upstream := attached.behind assembled assembled.isOpen fed.video
    rwa [firstPad_video assembled] at upstream
  audio := by
    rw [← assembled.sound]
    cases sound : pipeline.audioConvert with
    | some convert =>
        have upstream := attached.behind assembled (assembled.soundOpen convert sound).1
          (fed.audio convert sound)
        rw [firstPad_audio assembled sound] at upstream
        simpa using upstream
    | none =>
        refine ⟨_, .here _, ?_⟩
        intro taken
        obtain ⟨linked, member, same⟩ := List.mem_map.mp taken
        rcases (attached.links linked).mp member with before | ⟨other, first, _, rfl⟩
        · exact fed.silent sound (List.mem_map.mpr ⟨linked, before, same⟩)
        · cases same

/-- Building fails only when the host refuses a call.  Otherwise, however the pads of the
source come, each tier has a sink of its own, fed with the source's first accepted video
pad through the tier's encoder and, if the source has audio, with its first accepted audio
pad through the shared one, each through a tee pad of the tier's own. -/
theorem tiers_play (host : Host) (fresh : FreshPads host) (inputUrl outputDir : String)
    (levels : List QualityLevel) (hasAudio : Bool) :
    Yields (Refused host)
      (fun pipeline => ∀ pads : List DynamicPad, ∃ branches, SeparateBranches branches hasAudio ∧
        List.Forall₂ (Plays (pads.foldl padAdded pipeline).graph inputUrl outputDir hasAudio pads)
          levels branches)
      (buildParallelPipeline host inputUrl outputDir levels hasAudio) := by
  apply (buildParallelPipeline_yields fresh hasAudio).mono
  intro pipeline assembled pads
  obtain ⟨branches, apart, tiers⟩ := assembled.tiers
  have attached := attached_run assembled pads
  exact ⟨branches, apart, tiers.imp fun _ _ fed => fed.plays assembled attached⟩

/-- How many pads of a tee are in use when this one is. -/
def padsUpTo (tee : Nat) (pad : Pad PadName) : Nat :=
  match pad.name with
  | .requested index => if pad.element = tee then index + 1 else 0
  | _ => 0

/-- A host that refuses nothing; its tees number their pads. -/
def numberingHost : Host where
  make _ _ := .ok ()
  createDirAll _ := .ok ()
  add _ _ := .ok ()
  hasPad _ _ := true
  requestSrc graph tee := some ((graph.links.map fun linked => padsUpTo tee linked.1).foldr max 0)
  link _ _ _ := .ok ()

theorem numberingHost_fresh : FreshPads numberingHost := by
  intro graph tee index given linked
  obtain ⟨link, member, same⟩ := List.mem_map.mp linked
  have numbered := List.le_max_of_le' 0
    (List.mem_map_of_mem (f := fun linked => padsUpTo tee linked.1) member) le_rfl
  rw [Option.some.inj given, same] at numbered
  simp [padsUpTo] at numbered

theorem numberingHost_willing (error : TranscoderError) : ¬ Refused numberingHost error := by
  intro refused
  cases refused <;> contradiction

theorem tiers_play_twoTiers :
    ∃ pipeline branches, buildParallelPipeline numberingHost "https://store/v1/original"
        "/tmp/hls" [.low, .high] true = .ok pipeline ∧ SeparateBranches branches true ∧
      List.Forall₂ (Plays ([⟨"video_0", true⟩, ⟨"audio_0", false⟩, ⟨"audio_1", true⟩].foldl
          padAdded pipeline).graph "https://store/v1/original" "/tmp/hls" true
          [⟨"video_0", true⟩, ⟨"audio_0", false⟩, ⟨"audio_1", true⟩])
        [.low, .high] branches := by
  have yields := tiers_play numberingHost numberingHost_fresh "https://store/v1/original"
    "/tmp/hls" [.low, .high] true
  obtain ⟨pipeline, built, plays⟩ := yields.exists_ok numberingHost_willing
  obtain ⟨branches, apart, tiers⟩ := plays [⟨"video_0", true⟩, ⟨"audio_0", false⟩,
    ⟨"audio_1", true⟩]
  exact ⟨pipeline, branches, built, apart, tiers⟩

end Benri.Transcoder
