import Mathlib.Data.List.Nodup

namespace Benri.Data

/-! # Wired elements

Elements are connected by links from a source pad of one to a sink pad of another, and
no pad has two links.  So what reaches a pad is read off by going upstream from it: one
source pad is linked to it, that pad's element is reached through its own input, and so
on.
-/

structure Pad (Name : Type) where
  element : Nat
  name : Name
deriving DecidableEq, Repr

structure Wiring (Element Name : Type) where
  elements : List Element
  links : List (Pad Name × Pad Name)
  sources : (links.map Prod.fst).Nodup
  sinks : (links.map Prod.snd).Nodup
  within : ∀ link ∈ links,
    link.1.element < elements.length ∧ link.2.element < elements.length

namespace Wiring

variable {Element Name : Type}

def empty : Wiring Element Name where
  elements := []
  links := []
  sources := List.nodup_nil
  sinks := List.nodup_nil
  within _ member := absurd member List.not_mem_nil

/-- New elements, which are known by their places in the list. -/
def add (wiring : Wiring Element Name) (added : List Element) : Wiring Element Name where
  elements := wiring.elements ++ added
  links := wiring.links
  sources := wiring.sources
  sinks := wiring.sinks
  within link member := by
    have bounds := wiring.within link member
    rw [List.length_append]
    omega

/-- Both pads are there, and neither is linked. -/
def Free (wiring : Wiring Element Name) (source sink : Pad Name) : Prop :=
  source.element < wiring.elements.length ∧ sink.element < wiring.elements.length ∧
    source ∉ wiring.links.map Prod.fst ∧ sink ∉ wiring.links.map Prod.snd

instance [DecidableEq Name] (wiring : Wiring Element Name) (source sink : Pad Name) :
    Decidable (wiring.Free source sink) :=
  inferInstanceAs (Decidable (_ ∧ _ ∧ _ ∧ _))

theorem nodup_snoc {Item : Type} {items : List Item} {item : Item} (nodup : items.Nodup)
    (fresh : item ∉ items) : (items ++ [item]).Nodup := by
  refine List.nodup_append.mpr ⟨nodup, List.nodup_singleton _, ?_⟩
  rintro older member _ single rfl
  exact fresh (List.mem_singleton.mp single ▸ member)

/-- Connects two pads if both are free. -/
def link? [DecidableEq Name] (wiring : Wiring Element Name) (source sink : Pad Name) :
    Option (Wiring Element Name) :=
  if free : wiring.Free source sink then
    some {
      elements := wiring.elements
      links := wiring.links ++ [(source, sink)]
      sources := by
        rw [List.map_append]
        exact nodup_snoc wiring.sources free.2.2.1
      sinks := by
        rw [List.map_append]
        exact nodup_snoc wiring.sinks free.2.2.2
      within := by
        intro link member
        rcases List.mem_append.mp member with older | new
        · exact wiring.within link older
        · rw [List.mem_singleton.mp new]
          exact ⟨free.1, free.2.1⟩ }
  else none

/-! ## Growing -/

/-- What was added to a wiring. -/
structure Grown (before after : Wiring Element Name) (elements : List Element)
    (links : List (Pad Name × Pad Name)) : Prop where
  elements : after.elements = before.elements ++ elements
  links : after.links = before.links ++ links

variable {before middle after wiring : Wiring Element Name} {added more : List Element}
  {new newer : List (Pad Name × Pad Name)}

theorem grown_add (wiring : Wiring Element Name) (added : List Element) :
    Grown wiring (wiring.add added) added [] :=
  ⟨rfl, (List.append_nil _).symm⟩

theorem Grown.refl (wiring : Wiring Element Name) : Grown wiring wiring [] [] :=
  ⟨(List.append_nil _).symm, (List.append_nil _).symm⟩

theorem Grown.trans (first : Grown before middle added new)
    (second : Grown middle after more newer) :
    Grown before after (added ++ more) (new ++ newer) :=
  ⟨by rw [second.elements, first.elements, List.append_assoc],
    by rw [second.links, first.links, List.append_assoc]⟩

theorem link?_of_free [DecidableEq Name] {source sink : Pad Name} (free : wiring.Free source sink) :
    ∃ after, wiring.link? source sink = some after ∧ Grown wiring after [] [(source, sink)] :=
  ⟨_, dif_pos free, (List.append_nil _).symm, rfl⟩

theorem link?_eq_some [DecidableEq Name] {source sink : Pad Name}
    (linked : wiring.link? source sink = some after) :
    wiring.Free source sink ∧ Grown wiring after [] [(source, sink)] := by
  unfold link? at linked
  split at linked
  · rename_i free
    cases linked
    exact ⟨free, (List.append_nil _).symm, rfl⟩
  · cases linked

theorem Grown.element {place : Nat} {element : Element} (grown : Grown before after added new)
    (found : before.elements[place]? = some element) : after.elements[place]? = some element := by
  obtain ⟨bound, _⟩ := List.getElem?_eq_some_iff.mp found
  rw [grown.elements, List.getElem?_append_left bound]
  exact found

theorem Grown.link {link : Pad Name × Pad Name} (grown : Grown before after added new)
    (member : link ∈ before.links) : link ∈ after.links := by
  rw [grown.links]
  exact List.mem_append_left _ member

theorem Grown.joined {link : Pad Name × Pad Name} (grown : Grown before after added new)
    (member : link ∈ new) : link ∈ after.links := by
  rw [grown.links]
  exact List.mem_append_right _ member

theorem source_within {pad : Pad Name} (linked : pad ∈ wiring.links.map Prod.fst) :
    pad.element < wiring.elements.length := by
  obtain ⟨link, member, rfl⟩ := List.mem_map.mp linked
  exact (wiring.within link member).1

theorem sink_within {pad : Pad Name} (linked : pad ∈ wiring.links.map Prod.snd) :
    pad.element < wiring.elements.length := by
  obtain ⟨link, member, rfl⟩ := List.mem_map.mp linked
  exact (wiring.within link member).2

theorem Grown.source_iff {pad : Pad Name} (grown : Grown before after added new) :
    pad ∈ after.links.map Prod.fst ↔
      pad ∈ before.links.map Prod.fst ∨ pad ∈ new.map Prod.fst := by
  rw [grown.links, List.map_append, List.mem_append]

theorem Grown.sink_iff {pad : Pad Name} (grown : Grown before after added new) :
    pad ∈ after.links.map Prod.snd ↔
      pad ∈ before.links.map Prod.snd ∨ pad ∈ new.map Prod.snd := by
  rw [grown.links, List.map_append, List.mem_append]

/-- A pad of an element that is not there yet has no link. -/
theorem source_fresh {pad : Pad Name} (fresh : wiring.elements.length ≤ pad.element) :
    pad ∉ wiring.links.map Prod.fst :=
  fun linked => absurd (source_within linked) (Nat.not_lt.mpr fresh)

theorem sink_fresh {pad : Pad Name} (fresh : wiring.elements.length ≤ pad.element) :
    pad ∉ wiring.links.map Prod.snd :=
  fun linked => absurd (sink_within linked) (Nat.not_lt.mpr fresh)

theorem Grown.length (grown : Grown before after added new) :
    after.elements.length = before.elements.length + added.length := by
  rw [grown.elements, List.length_append]

/-- Pads that were free and that the new links left so. -/
theorem Grown.free {source sink : Pad Name} (grown : Grown before after added new)
    (sourceThere : source.element < before.elements.length + added.length)
    (sinkThere : sink.element < before.elements.length + added.length)
    (sourceIdle : source ∉ before.links.map Prod.fst) (sourceLeft : source ∉ new.map Prod.fst)
    (sinkIdle : sink ∉ before.links.map Prod.snd) (sinkLeft : sink ∉ new.map Prod.snd) :
    after.Free source sink := by
  refine ⟨grown.length ▸ sourceThere, grown.length ▸ sinkThere, ?_, ?_⟩
  · intro linked
    exact (grown.source_iff.mp linked).elim sourceIdle sourceLeft
  · intro linked
    exact (grown.sink_iff.mp linked).elim sinkIdle sinkLeft

/-- The new elements stand behind the old ones. -/
theorem Grown.behind {place : Nat} (grown : Grown before after added new) :
    after.elements[before.elements.length + place]? = added[place]? := by
  rw [grown.elements, List.getElem?_append_right (Nat.le_add_right _ _), Nat.add_sub_cancel_left]

/-! ## Grafts -/

/-- Growth in which nothing is linked into the elements that were there. -/
def Grafted (before after : Wiring Element Name) : Prop :=
  ∃ added new, Grown before after added new ∧
    ∀ link ∈ new, before.elements.length ≤ link.2.element

theorem Grafted.refl (wiring : Wiring Element Name) : Grafted wiring wiring :=
  ⟨[], [], .refl wiring, fun _ member => absurd member List.not_mem_nil⟩

theorem Grafted.trans (first : Grafted before middle) (second : Grafted middle after) :
    Grafted before after := by
  obtain ⟨added, new, grown, into⟩ := first
  obtain ⟨more, newer, grownMore, intoMore⟩ := second
  refine ⟨added ++ more, new ++ newer, grown.trans grownMore, ?_⟩
  intro link member
  rcases List.mem_append.mp member with older | newest
  · exact into link older
  · have beyond := intoMore link newest
    have length := grown.length
    omega

theorem Grafted.length_le (grafted : Grafted before after) :
    before.elements.length ≤ after.elements.length := by
  obtain ⟨added, new, grown, _⟩ := grafted
  have length := grown.length
  omega

theorem Grafted.element {place : Nat} {element : Element} (grafted : Grafted before after)
    (found : before.elements[place]? = some element) : after.elements[place]? = some element := by
  obtain ⟨added, new, grown, _⟩ := grafted
  exact grown.element found

theorem Grafted.link {link : Pad Name × Pad Name} (grafted : Grafted before after)
    (member : link ∈ before.links) : link ∈ after.links := by
  obtain ⟨added, new, grown, _⟩ := grafted
  exact grown.link member

/-- A sink pad that is not linked stays so. -/
theorem Grafted.idle {pad : Pad Name} (grafted : Grafted before after)
    (old : pad.element < before.elements.length) (idle : pad ∉ before.links.map Prod.snd) :
    pad ∉ after.links.map Prod.snd := by
  obtain ⟨added, new, grown, into⟩ := grafted
  intro linked
  rcases grown.sink_iff.mp linked with older | newer
  · exact idle older
  · obtain ⟨link, member, rfl⟩ := List.mem_map.mp newer
    exact absurd (into link member) (Nat.not_le.mpr old)

/-! ## Upstream -/

/-- Going upstream from a pad one passes these elements, leaving each by the pad that is
named beside it, and comes to the input `origin`.  `input` is the name of the one pad
through which an element on the way is reached. -/
inductive Routed (input : Name) (wiring : Wiring Element Name) :
    Pad Name → List (Element × Name) → Pad Name → Prop where
  | here (pad : Pad Name) : Routed input wiring pad [] pad
  | back {pad : Pad Name} {steps : List (Element × Name)} {origin : Pad Name} (place : Nat)
      (name : Name) (element : Element) (link : (⟨place, name⟩, pad) ∈ wiring.links)
      (found : wiring.elements[place]? = some element)
      (behind : Routed input wiring ⟨place, input⟩ steps origin) :
      Routed input wiring pad ((element, name) :: steps) origin

/-- All that is upstream of a pad. -/
def Upstream (input : Name) (wiring : Wiring Element Name) (pad : Pad Name)
    (steps : List (Element × Name)) : Prop :=
  ∃ origin, Routed input wiring pad steps origin ∧ origin ∉ wiring.links.map Prod.snd

variable {input : Name} {pad origin middlePad : Pad Name} {steps others : List (Element × Name)}

theorem Routed.append (first : Routed input wiring pad steps middlePad)
    (second : Routed input wiring middlePad others origin) :
    Routed input wiring pad (steps ++ others) origin := by
  induction first with
  | here => exact second
  | back place name element link found _ ih => exact .back place name element link found (ih second)

theorem Routed.mono (routed : Routed input before pad steps origin)
    (elements : before.elements <+: after.elements)
    (links : ∀ link ∈ before.links, link ∈ after.links) : Routed input after pad steps origin := by
  induction routed with
  | here pad => exact .here pad
  | back place name element link found _ ih =>
      obtain ⟨more, longer⟩ := elements
      obtain ⟨bound, _⟩ := List.getElem?_eq_some_iff.mp found
      refine .back place name element (links _ link) ?_ ih
      rw [← longer, List.getElem?_append_left bound]
      exact found

theorem Routed.grafted (routed : Routed input before pad steps origin)
    (grafted : Grafted before after) : Routed input after pad steps origin := by
  obtain ⟨added, new, grown, _⟩ := grafted
  exact routed.mono ⟨added, grown.elements.symm⟩ fun _ member => grown.link member

/-- Only one source pad is linked to a pad. -/
theorem source_unique {first second sink : Pad Name} (left : (first, sink) ∈ wiring.links)
    (right : (second, sink) ∈ wiring.links) : first = second :=
  congrArg Prod.fst (List.inj_on_of_nodup_map wiring.sinks left right rfl)

/-- A source pad is linked to one pad only. -/
theorem sink_unique {source first second : Pad Name} (left : (source, first) ∈ wiring.links)
    (right : (source, second) ∈ wiring.links) : first = second :=
  congrArg Prod.snd (List.inj_on_of_nodup_map wiring.sources left right rfl)

/-- There is one way upstream. -/
theorem Upstream.unique (left : Upstream input wiring pad steps)
    (right : Upstream input wiring pad others) : steps = others := by
  obtain ⟨leftOrigin, leftRoute, leftEnd⟩ := left
  obtain ⟨rightOrigin, rightRoute, rightEnd⟩ := right
  induction leftRoute generalizing others with
  | here =>
      cases rightRoute with
      | here => rfl
      | back place name element link => exact absurd (List.mem_map_of_mem link) leftEnd
  | back place name element link found behind ih =>
      cases rightRoute with
      | here => exact absurd (List.mem_map_of_mem link) rightEnd
      | back otherPlace otherName otherElement otherLink otherFound otherBehind =>
          obtain ⟨rfl, rfl⟩ := Pad.mk.inj (source_unique link otherLink)
          obtain rfl := Option.some.inj (found.symm.trans otherFound)
          rw [ih leftEnd otherBehind]

end Wiring

end Benri.Data
