import Mathlib.Data.List.Perm.Basic
import Mathlib.Data.List.Perm.Subperm

namespace Benri.Data

/-! # Lists of slots

A list whose entries are rewritten in place stands for a collection of
processes.  `gather` collects what every slot contributes; rewriting one slot
exchanges its contribution, up to order.
-/

variable {Slot Item : Type}

def gather (contribution : Slot → List Item) (slots : List Slot) : List Item :=
  slots.flatMap contribution

variable {contribution : Slot → List Item} {slots : List Slot} {index : Nat} {old new : Slot}

theorem mem_gather {item : Item} :
    item ∈ gather contribution slots ↔ ∃ slot ∈ slots, item ∈ contribution slot :=
  List.mem_flatMap

@[simp] theorem gather_append (front back : List Slot) :
    gather contribution (front ++ back) = gather contribution front ++ gather contribution back :=
  List.flatMap_append

@[simp] theorem gather_singleton (slot : Slot) :
    gather contribution [slot] = contribution slot := by
  simp [gather]

/-- What the other slots contribute. -/
def others (contribution : Slot → List Item) (slots : List Slot) (index : Nat) : List Item :=
  gather contribution (slots.eraseIdx index)

theorem gather_perm (contribution : Slot → List Item) (found : slots[index]? = some old) :
    (gather contribution slots).Perm (contribution old ++ others contribution slots index) := by
  obtain ⟨bound, rfl⟩ := List.getElem?_eq_some_iff.mp found
  exact (List.getElem_cons_eraseIdx_perm bound).symm.flatMap_right contribution

theorem gather_set_perm (contribution : Slot → List Item) (new : Slot)
    (found : slots[index]? = some old) :
    (gather contribution (slots.set index new)).Perm
      (contribution new ++ others contribution slots index) := by
  obtain ⟨bound, _⟩ := List.getElem?_eq_some_iff.mp found
  exact (List.set_perm_cons_eraseIdx bound new).flatMap_right contribution

/-- A slot that contributes less, or the same, leaves less, or the same. -/
theorem gather_set_subperm (found : slots[index]? = some old)
    (fewer : (contribution new).Sublist (contribution old)) :
    (gather contribution (slots.set index new)).Subperm (gather contribution slots) :=
  (gather_set_perm contribution new found).subperm.trans
    ((fewer.append_right _).subperm.trans (gather_perm contribution found).symm.subperm)

theorem count_gather_set [DecidableEq Item] (contribution : Slot → List Item) (new : Slot)
    (found : slots[index]? = some old) (item : Item) :
    (gather contribution (slots.set index new)).count item + (contribution old).count item =
      (gather contribution slots).count item + (contribution new).count item := by
  rw [(gather_perm contribution found).count_eq, (gather_set_perm contribution new found).count_eq,
    List.count_append, List.count_append]
  omega

/-- Two slots that contribute an item contribute it twice. -/
theorem two_le_count_gather [DecidableEq Item] {first second : Nat} {left right : Slot}
    {item : Item} (different : first ≠ second) (leftFound : slots[first]? = some left)
    (rightFound : slots[second]? = some right) (leftGives : item ∈ contribution left)
    (rightGives : item ∈ contribution right) :
    2 ≤ (gather contribution slots).count item := by
  have other : right ∈ slots.eraseIdx first :=
    List.mem_eraseIdx_iff_getElem?.mpr ⟨second, different.symm, rightFound⟩
  have one : 0 < (contribution left).count item := List.count_pos_iff.mpr leftGives
  have another : 0 < (others contribution slots first).count item :=
    List.count_pos_iff.mpr (mem_gather.mpr ⟨right, other, rightGives⟩)
  rw [(gather_perm contribution leftFound).count_eq, List.count_append]
  omega

theorem Subperm.nodup {left right : List Item} (subperm : left.Subperm right)
    (nodup : right.Nodup) : left.Nodup := by
  obtain ⟨same, perm, sublist⟩ := subperm
  exact perm.nodup_iff.mp (sublist.nodup nodup)

/-- There is nothing to rewrite behind the end. -/
theorem set_missing (missing : slots[index]? = none) : slots.set index new = slots :=
  List.set_eq_of_length_le (List.getElem?_eq_none_iff.mp missing)

theorem getElem?_set_cases {place : Nat} {slot : Slot}
    (found : (slots.set index new)[place]? = some slot) :
    place = index ∧ slot = new ∨ place ≠ index ∧ slots[place]? = some slot := by
  rw [List.getElem?_set] at found
  split at found
  · rename_i same
    split at found
    · exact .inl ⟨same.symm, (Option.some.inj found).symm⟩
    · contradiction
  · rename_i different
    exact .inr ⟨fun same => different same.symm, found⟩

/-- Behind a list that one more was added to, there is that one. -/
theorem getElem?_snoc_cases {place : Nat} {slot : Slot}
    (found : (slots ++ [new])[place]? = some slot) :
    slots[place]? = some slot ∨ place = slots.length ∧ slot = new := by
  rcases Nat.lt_or_ge place slots.length with inside | behind
  · rw [List.getElem?_append_left inside] at found
    exact .inl found
  · rw [List.getElem?_append_right behind] at found
    obtain ⟨bound, same⟩ := List.getElem?_eq_some_iff.mp found
    rw [List.length_singleton] at bound
    exact .inr ⟨by omega, by simpa using same.symm⟩

/-- After a slot was rewritten, a slot is the new one or one of the others. -/
theorem forall_mem_set_others {property : Slot → Prop} (found : slots[index]? = some old)
    (before : ∀ slot ∈ slots.eraseIdx index, property slot) (rewritten : property new) :
    ∀ slot ∈ slots.set index new, property slot := by
  obtain ⟨bound, _⟩ := List.getElem?_eq_some_iff.mp found
  intro slot member
  rcases List.mem_cons.mp ((List.set_perm_cons_eraseIdx bound new).mem_iff.mp member) with
    rfl | member
  · exact rewritten
  · exact before slot member

/-- After a slot was rewritten, a slot is the new one or was there before. -/
theorem forall_mem_set {property : Slot → Prop} (before : ∀ slot ∈ slots, property slot)
    (rewritten : property new) : ∀ slot ∈ slots.set index new, property slot := by
  intro slot member
  rcases List.mem_or_eq_of_mem_set member with member | rfl
  · exact before slot member
  · exact rewritten

theorem forall_mem_snoc {property : Slot → Prop} (before : ∀ slot ∈ slots, property slot)
    (added : property new) : ∀ slot ∈ slots ++ [new], property slot := by
  intro slot member
  rcases List.mem_append.mp member with member | member
  · exact before slot member
  · exact List.mem_singleton.mp member ▸ added

/-- Every slot lives on, as itself or as what it was rewritten to. -/
theorem exists_mem_set {related : Slot → Slot → Prop} (found : slots[index]? = some old)
    (reflexive : ∀ slot, related slot slot) (rewritten : related old new) :
    ∀ slot ∈ slots, ∃ later ∈ slots.set index new, related slot later := by
  intro slot member
  obtain ⟨place, there⟩ := List.mem_iff_getElem?.mp member
  by_cases same : place = index
  · subst same
    obtain rfl := Option.some.inj (there.symm.trans found)
    obtain ⟨bound, _⟩ := List.getElem?_eq_some_iff.mp found
    exact ⟨new, List.mem_set bound new, rewritten⟩
  · refine ⟨slot, List.mem_iff_getElem?.mpr ⟨place, ?_⟩, reflexive slot⟩
    rw [List.getElem?_set_ne (Ne.symm same)]
    exact there

/-! ## Slots with marks beside them -/

variable {Mark : Type} {marks : List Mark}

theorem mem_zip_set {slot : Slot} {mark : Mark} (found : slots[index]? = some old)
    (member : (slot, mark) ∈ (slots.set index new).zip marks) :
    (slot, mark) ∈ slots.zip marks ∨ slot = new ∧ (old, mark) ∈ slots.zip marks := by
  obtain ⟨place, there⟩ := List.mem_iff_getElem?.mp member
  obtain ⟨stands, marked⟩ := List.getElem?_zip_eq_some.mp there
  rcases getElem?_set_cases stands with ⟨rfl, rfl⟩ | ⟨_, older⟩
  · exact .inr ⟨rfl, List.mem_of_getElem? (List.getElem?_zip_eq_some.mpr ⟨found, marked⟩)⟩
  · exact .inl (List.mem_of_getElem? (List.getElem?_zip_eq_some.mpr ⟨older, marked⟩))

theorem mem_zip_snoc {slot : Slot} {mark added : Mark} (long : slots.length = marks.length)
    (member : (slot, mark) ∈ (slots ++ [new]).zip (marks ++ [added])) :
    (slot, mark) ∈ slots.zip marks ∨ slot = new ∧ mark = added := by
  rw [List.zip_append long] at member
  rcases List.mem_append.mp member with older | last
  · exact .inl older
  · exact .inr (Prod.mk.inj (List.mem_singleton.mp last))

/-- Every slot has its mark when there are as many. -/
theorem exists_mark_of_mem {slot : Slot} (long : slots.length = marks.length)
    (member : slot ∈ slots) : ∃ mark, (slot, mark) ∈ slots.zip marks := by
  obtain ⟨place, found⟩ := List.mem_iff_getElem?.mp member
  have bound : place < marks.length := long ▸ (List.getElem?_eq_some_iff.mp found).1
  exact ⟨marks[place], List.mem_of_getElem?
    (List.getElem?_zip_eq_some.mpr ⟨found, List.getElem?_eq_getElem bound⟩)⟩

/-! ## Slots of which there is one -/

def AtMostOne (property : Slot → Prop) (slots : List Slot) : Prop :=
  ∀ (first second : Nat) (left right : Slot), slots[first]? = some left →
    slots[second]? = some right → property left → property right → first = second

theorem AtMostOne.eq {property : Slot → Prop} (once : AtMostOne property slots)
    {left right : Slot} (leftInside : left ∈ slots) (rightInside : right ∈ slots)
    (leftHolds : property left) (rightHolds : property right) : left = right := by
  obtain ⟨first, leftFound⟩ := List.mem_iff_getElem?.mp leftInside
  obtain ⟨second, rightFound⟩ := List.mem_iff_getElem?.mp rightInside
  obtain rfl := once first second left right leftFound rightFound leftHolds rightHolds
  exact Option.some.inj (leftFound.symm.trans rightFound)

theorem AtMostOne.nil (property : Slot → Prop) : AtMostOne property [] := by
  intro first second left right found
  simp at found

/-- Slots are added without the property. -/
theorem AtMostOne.snoc {property : Slot → Prop} (before : AtMostOne property slots)
    (without : ¬ property new) : AtMostOne property (slots ++ [new]) := by
  have older : ∀ {index : Nat} {slot : Slot}, (slots ++ [new])[index]? = some slot →
      property slot → slots[index]? = some slot := by
    intro index slot found holds
    rw [List.getElem?_append] at found
    split at found
    · exact found
    · have added := List.mem_singleton.mp (List.mem_of_getElem? found)
      exact absurd (added ▸ holds) without
  intro first second left right leftFound rightFound leftHolds rightHolds
  exact before first second left right (older leftFound leftHolds) (older rightFound rightHolds)
    leftHolds rightHolds

/-- A slot gets the property when no slot had it, or had it before. -/
theorem AtMostOne.set {property : Slot → Prop} (before : AtMostOne property slots)
    (found : slots[index]? = some old)
    (gained : property new → property old ∨ ∀ slot ∈ slots, ¬ property slot) :
    AtMostOne property (slots.set index new) := by
  have other : ∀ {place : Nat} {slot : Slot}, place ≠ index → slots[place]? = some slot →
      property new → ¬ property slot := by
    intro place slot different foundSlot newHolds holds
    rcases gained newHolds with oldHolds | none
    · exact different (before _ _ _ _ foundSlot found holds oldHolds)
    · exact none slot (List.mem_of_getElem? foundSlot) holds
  intro first second left right leftFound rightFound leftHolds rightHolds
  rcases getElem?_set_cases leftFound with ⟨rfl, rfl⟩ | ⟨different, olderFound⟩
  · rcases getElem?_set_cases rightFound with ⟨rfl, _⟩ | ⟨different, rightFound⟩
    · rfl
    · exact absurd rightHolds (other different rightFound leftHolds)
  · rcases getElem?_set_cases rightFound with ⟨rfl, rfl⟩ | ⟨_, rightFound⟩
    · exact absurd leftHolds (other different olderFound rightHolds)
    · exact before _ _ _ _ olderFound rightFound leftHolds rightHolds

/-- An entry that is not in the front of a list stands in its back. -/
theorem append_eq_append_cons {front back before after : List Item} {item : Item}
    (same : front ++ back = before ++ item :: after) (absent : item ∉ front) :
    ∃ middle, before = front ++ middle ∧ back = middle ++ item :: after := by
  rcases List.append_eq_append_iff.mp same with ⟨middle, ahead, rest⟩ | ⟨rest, split, tail⟩
  · exact ⟨middle, ahead, rest⟩
  · cases rest with
    | nil => exact ⟨[], by simp [split], tail.symm⟩
    | cons head rest =>
        obtain ⟨rfl, _⟩ := List.cons.inj tail
        exact absurd (by simp [split]) absent

end Benri.Data
