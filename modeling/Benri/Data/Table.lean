import Mathlib.Data.List.Nodup

namespace Benri.Data

/-! # Tables with a primary key

A table is the list of its rows together with the fact that no two of them
share a key.  Statements are the four row operations of a relational store;
each is described by what a later lookup of one key returns, so clients reason
about single rows and never about the order in which a table happens to hold
them.
-/

structure Table (Key Row : Type) (key : Row → Key) where
  rows : List Row
  unique : (rows.map key).Nodup

namespace Table

variable {Key Row : Type} {key : Row → Key}

def empty : Table Key Row key := ⟨[], List.nodup_nil⟩

/-- The rows a condition selects, in table order. -/
def select (table : Table Key Row key) (condition : Row → Bool) : List Row :=
  table.rows.filter condition

/-- Rewrites every row the condition selects. -/
def update (table : Table Key Row key) (condition : Row → Bool) (assign : Row → Row)
    (keeps : ∀ row, key (assign row) = key row) : Table Key Row key where
  rows := table.rows.map fun row => if condition row then assign row else row
  unique := by
    have same : (key ∘ fun row => if condition row then assign row else row) = key := by
      funext row
      simp only [Function.comp_apply]
      split
      · exact keeps row
      · rfl
    rw [List.map_map, same]
    exact table.unique

def delete (table : Table Key Row key) (condition : Row → Bool) : Table Key Row key where
  rows := table.rows.filter fun row => !condition row
  unique := (List.filter_sublist.map key).nodup table.unique

variable [DecidableEq Key]

def find? (table : Table Key Row key) (wanted : Key) : Option Row :=
  table.rows.find? fun row => decide (key row = wanted)

/-- Fails, as a primary key does, when the key is already taken. -/
def insert? (table : Table Key Row key) (row : Row) : Option (Table Key Row key) :=
  if fresh : key row ∉ table.rows.map key then
    some ⟨table.rows ++ [row], by
      rw [List.map_append, List.map_singleton]
      exact List.nodup_append.mpr ⟨table.unique, List.nodup_singleton _, by
        intro found member other single same
        rw [List.mem_singleton] at single
        exact fresh (by rw [← single, ← same]; exact member)⟩⟩
  else none

/-- Writes a row under its key, whether or not there is one already. -/
def put (table : Table Key Row key) (row : Row) : Table Key Row key where
  rows := (table.delete fun other => decide (key other = key row)).rows ++ [row]
  unique := by
    rw [List.map_append, List.map_singleton]
    refine List.nodup_append.mpr ⟨Table.unique _, List.nodup_singleton _, ?_⟩
    intro found member other single same
    rw [List.mem_singleton] at single
    obtain ⟨kept, inside, keyed⟩ := List.mem_map.mp member
    have different := (List.mem_filter.mp inside).2
    simp [keyed, same, single] at different

/-- One statement that inserts several rows: all of them or none. -/
def insertAll? (table : Table Key Row key) : List Row → Option (Table Key Row key)
  | [] => some table
  | row :: rest => (table.insert? row).bind fun next => next.insertAll? rest

theorem key_of_find? {table : Table Key Row key} {wanted : Key} {row : Row}
    (found : table.find? wanted = some row) : key row = wanted := by
  simpa using List.find?_some found

theorem mem_of_find? {table : Table Key Row key} {wanted : Key} {row : Row}
    (found : table.find? wanted = some row) : row ∈ table.rows :=
  List.mem_of_find?_eq_some found

theorem find?_of_mem {table : Table Key Row key} {row : Row}
    (member : row ∈ table.rows) : table.find? (key row) = some row := by
  cases found : table.find? (key row) with
  | none =>
      have absent := List.find?_eq_none.mp found row member
      simp at absent
  | some other =>
      have same := List.inj_on_of_nodup_map table.unique (mem_of_find? found) member
        (key_of_find? found)
      rw [same]

theorem mem_iff_find? {table : Table Key Row key} {row : Row} :
    row ∈ table.rows ↔ table.find? (key row) = some row :=
  ⟨find?_of_mem, mem_of_find?⟩

/-- A primary-key condition selects what the lookup finds. -/
theorem select_key (table : Table Key Row key) (wanted : Key) :
    table.select (fun row => decide (key row = wanted)) = (table.find? wanted).toList := by
  cases found : table.find? wanted with
  | none =>
      have absent := List.find?_eq_none.mp found
      exact List.filter_eq_nil_iff.mpr absent
  | some row =>
      obtain rfl := key_of_find? found
      obtain ⟨front, back, split⟩ := List.append_of_mem (mem_of_find? found)
      have unique := table.unique
      rw [split, List.map_append, List.map_cons] at unique
      have apart := List.nodup_append.mp unique
      have others : ∀ other ∈ front ++ back, decide (key other = key row) = false := by
        intro other member
        simp only [decide_eq_false_iff_not]
        rcases List.mem_append.mp member with member | member
        · exact apart.2.2 _ (List.mem_map_of_mem member) _ List.mem_cons_self
        · intro same
          exact (List.nodup_cons.mp apart.2.1).1 (same ▸ List.mem_map_of_mem member)
      have frontNone : front.filter (fun other => decide (key other = key row)) = [] :=
        List.filter_eq_nil_iff.mpr fun other member => by
          simp [others other (List.mem_append_left _ member)]
      have backNone : back.filter (fun other => decide (key other = key row)) = [] :=
        List.filter_eq_nil_iff.mpr fun other member => by
          simp [others other (List.mem_append_right _ member)]
      simp [select, split, List.filter_append, frontNone, backNone]

@[simp] theorem find?_empty (wanted : Key) :
    (empty : Table Key Row key).find? wanted = none := rfl

@[simp] theorem find?_update (table : Table Key Row key) (condition : Row → Bool)
    (assign : Row → Row) (keeps : ∀ row, key (assign row) = key row) (wanted : Key) :
    (table.update condition assign keeps).find? wanted =
      (table.find? wanted).map fun row => if condition row then assign row else row := by
  have same : ∀ row, key (if condition row then assign row else row) = key row := by
    intro row
    split
    · exact keeps row
    · rfl
  simp only [find?, update, List.find?_map, Function.comp_def, same]

@[simp] theorem find?_delete (table : Table Key Row key) (condition : Row → Bool)
    (wanted : Key) :
    (table.delete condition).find? wanted =
      (table.find? wanted).filter fun row => !condition row := by
  cases found : table.find? wanted with
  | none =>
      have absent := List.find?_eq_none.mp found
      refine List.find?_eq_none.mpr fun row member => absent row ?_
      exact (List.mem_filter.mp member).1
  | some row =>
      obtain rfl := key_of_find? found
      cases removed : condition row with
      | false =>
          have kept : row ∈ (table.delete condition).rows :=
            List.mem_filter.mpr ⟨mem_of_find? found, by simp [removed]⟩
          rw [find?_of_mem kept, Option.filter_some, removed]
          rfl
      | true =>
          simp only [Option.filter_some, removed, Bool.not_true, Bool.false_eq_true, if_false]
          refine List.find?_eq_none.mpr fun other member => ?_
          simp only [decide_eq_true_eq]
          intro same
          obtain ⟨member, stays⟩ := List.mem_filter.mp member
          have equal := List.inj_on_of_nodup_map table.unique member (mem_of_find? found) same
          simp [equal, removed] at stays

theorem insert?_eq_some {table after : Table Key Row key} {row : Row}
    (inserted : table.insert? row = some after) :
    table.find? (key row) = none ∧ after.rows = table.rows ++ [row] := by
  unfold insert? at inserted
  split at inserted
  · rename_i fresh
    cases inserted
    refine ⟨List.find?_eq_none.mpr fun other member => ?_, rfl⟩
    simp only [decide_eq_true_eq]
    exact fun same => fresh (List.mem_map.mpr ⟨other, member, same⟩)
  · contradiction

/-- An insertion fails on a key that is taken only. -/
theorem insert?_of_absent {table : Table Key Row key} {row : Row}
    (absent : table.find? (key row) = none) : ∃ after, table.insert? row = some after := by
  have fresh : key row ∉ table.rows.map key := by
    intro taken
    obtain ⟨other, member, same⟩ := List.mem_map.mp taken
    have unfound := List.find?_eq_none.mp absent other member
    simp [same] at unfound
  exact ⟨_, dif_pos fresh⟩

theorem find?_insert? {table after : Table Key Row key} {row : Row}
    (inserted : table.insert? row = some after) (wanted : Key) :
    after.find? wanted = if key row = wanted then some row else table.find? wanted := by
  obtain ⟨fresh, rows⟩ := insert?_eq_some inserted
  simp only [find?, rows, List.find?_append, List.find?_singleton, decide_eq_true_eq]
  split
  · rename_i same
    subst wanted
    rw [show table.rows.find? _ = none from fresh, Option.none_or]
  · rw [Option.or_none]

/-- Deleting by the key, whatever else is in the rows. -/
theorem find?_delete_key (table : Table Key Row key) (condition : Key → Bool) (wanted : Key) :
    (table.delete fun row => condition (key row)).find? wanted =
      if condition wanted = true then none else table.find? wanted := by
  rw [find?_delete]
  cases found : table.find? wanted with
  | none => simp
  | some row =>
      have keyed : key row = wanted := key_of_find? found
      cases hit : condition wanted <;> simp [Option.filter_some, keyed, hit]

@[simp] theorem find?_put (table : Table Key Row key) (row : Row) (wanted : Key) :
    (table.put row).find? wanted = if key row = wanted then some row else table.find? wanted := by
  have elsewhere := find?_delete_key table (fun other => decide (other = key row)) wanted
  simp only [find?, decide_eq_true_eq] at elsewhere
  simp only [find?, put, List.find?_append, List.find?_singleton, decide_eq_true_eq, elsewhere]
  by_cases same : key row = wanted
  · rw [if_pos same.symm, if_pos same, if_pos same, Option.none_or]
  · rw [if_neg (Ne.symm same), if_neg same, if_neg same, Option.or_none]

theorem find?_put_self (table : Table Key Row key) (row : Row) :
    (table.put row).find? (key row) = some row := by
  rw [find?_put, if_pos rfl]

theorem insertAll?_rows {table after : Table Key Row key} {added : List Row}
    (inserted : table.insertAll? added = some after) : after.rows = table.rows ++ added := by
  induction added generalizing table with
  | nil =>
      cases inserted
      simp
  | cons row rest ih =>
      obtain ⟨next, first, others⟩ := Option.bind_eq_some_iff.mp inserted
      rw [ih others, (insert?_eq_some first).2, List.append_assoc]
      rfl

end Table

end Benri.Data
