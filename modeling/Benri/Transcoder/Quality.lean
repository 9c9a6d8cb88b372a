import Mathlib.Data.List.Nodup

namespace Benri.Transcoder

/-! # Quality tiers -/

inductive QualityLevel where
  | low
  | medium
  | high
deriving DecidableEq, Repr

namespace QualityLevel

def resolution : QualityLevel → Nat × Nat
  | .low => (640, 360)
  | .medium => (1280, 720)
  | .high => (1920, 1080)

def targetBitrateBps : QualityLevel → Nat
  | .low => 800000
  | .medium => 2500000
  | .high => 5000000

def all : List QualityLevel := [.low, .medium, .high]

def name : QualityLevel → String
  | .low => "low"
  | .medium => "medium"
  | .high => "high"

/-- Unicode `White_Space`, which `str::trim` strips. -/
def isWhitespace (char : Char) : Bool :=
  let code := char.toNat
  (9 ≤ code && code ≤ 13) || code = 0x20 || code = 0x85 || code = 0xA0 || code = 0x1680 ||
    (0x2000 ≤ code && code ≤ 0x200A) || code = 0x2028 || code = 0x2029 || code = 0x202F ||
    code = 0x205F || code = 0x3000

def trim (text : List Char) : List Char :=
  ((text.dropWhile isWhitespace).reverse.dropWhile isWhitespace).reverse

def toAsciiLowercase (text : List Char) : List Char := text.map Char.toLower

def fromName (text : List Char) : Option QualityLevel :=
  let lowered := toAsciiLowercase (trim text)
  if lowered = "low".toList then some .low
  else if lowered = "medium".toList then some .medium
  else if lowered = "high".toList then some .high
  else none

end QualityLevel

/-- The loop of `parse_quality_tiers`; what was `seen` is what is already out. -/
def collectTiers : List (List Char) → List QualityLevel → List QualityLevel
  | [], out => out
  | piece :: rest, out =>
      match QualityLevel.fromName piece with
      | some level => collectTiers rest (if level ∈ out then out else out ++ [level])
      | none => collectTiers rest out

def parseQualityTiers (raw : String) : List QualityLevel :=
  let out := collectTiers (raw.toList.splitOn ',') []
  if out.isEmpty then QualityLevel.all else out

example : parseQualityTiers " High,low,, 4k,LOW" = [.high, .low] := by decide

theorem collectTiers_nodup {pieces : List (List Char)} {out : List QualityLevel}
    (distinct : out.Nodup) : (collectTiers pieces out).Nodup := by
  induction pieces generalizing out with
  | nil => exact distinct
  | cons piece rest ih =>
      simp only [collectTiers]
      cases known : QualityLevel.fromName piece with
      | none => exact ih distinct
      | some level =>
          refine ih ?_
          split
          · exact distinct
          · rename_i fresh
            exact List.nodup_append.mpr ⟨distinct, List.nodup_singleton _, by
              rintro other member _ single rfl
              exact fresh (List.mem_singleton.mp single ▸ member)⟩

/-- No tier is listed twice. -/
theorem parseQualityTiers_nodup (raw : String) : (parseQualityTiers raw).Nodup := by
  simp only [parseQualityTiers]
  split
  · decide
  · exact collectTiers_nodup List.nodup_nil

/-! ## The list as a filter and its first occurrences -/

/-- A piece names a tier, whatever the case of its letters and the blanks around it. -/
def QualityLevel.Names (level : QualityLevel) (piece : List Char) : Prop :=
  toAsciiLowercase (trim piece) = level.name.toList

instance (level : QualityLevel) (piece : List Char) : Decidable (level.Names piece) :=
  inferInstanceAs (Decidable (_ = _))

/-- The tiers named between the commas, in order and with repetitions. -/
def namedTiers (raw : String) : List QualityLevel :=
  (raw.toList.splitOn ',').filterMap fun piece =>
    QualityLevel.all.find? fun level => decide (level.Names piece)

theorem QualityLevel.fromName_eq_some {piece : List Char} {level : QualityLevel} :
    fromName piece = some level ↔ level.Names piece := by
  simp only [fromName, Names]
  cases level <;> simp only [name] <;> split_ifs <;> simp_all

theorem QualityLevel.find?_names (piece : List Char) :
    (all.find? fun level => decide (level.Names piece)) = fromName piece := by
  cases known : fromName piece with
  | some level =>
      have named := fromName_eq_some.mp known
      have only : ∀ other : QualityLevel, other.Names piece ↔ other = level := by
        intro other
        rw [← fromName_eq_some, known, Option.some.injEq, eq_comm]
      simp only [only]
      cases level <;> rfl
  | none =>
      have unnamed : ∀ other : QualityLevel, ¬other.Names piece := by
        intro other
        rw [← fromName_eq_some, known]
        exact Option.some_ne_none other |>.symm
      simp [unnamed]

theorem namedTiers_eq (raw : String) :
    namedTiers raw = (raw.toList.splitOn ',').filterMap QualityLevel.fromName := by
  simp only [namedTiers, QualityLevel.find?_names]

theorem mem_namedTiers {raw : String} {level : QualityLevel} :
    level ∈ namedTiers raw ↔ ∃ piece ∈ raw.toList.splitOn ',', level.Names piece := by
  simp [namedTiers_eq, List.mem_filterMap, QualityLevel.fromName_eq_some]

/-- The loop appends the first occurrence of each tier that is not out yet. -/
theorem collectTiers_eq (pieces : List (List Char)) (out : List QualityLevel) :
    collectTiers pieces out =
      out ++ ((pieces.filterMap QualityLevel.fromName).filter fun level =>
        decide (level ∉ out)).eraseDups := by
  induction pieces generalizing out with
  | nil => simp [collectTiers]
  | cons piece rest ih =>
      simp only [collectTiers]
      cases known : QualityLevel.fromName piece with
      | none => rw [ih, List.filterMap_cons_none known]
      | some level =>
          rw [List.filterMap_cons_some known]
          by_cases seen : level ∈ out
          · simp only [seen, if_true, ih]
            rw [List.filter_cons_of_neg (by simpa using seen)]
          · simp only [seen, if_false, ih]
            rw [List.filter_cons_of_pos (by simpa using seen), List.eraseDups_cons,
              List.filter_filter, List.append_assoc, List.singleton_append]
            have same : ∀ other : QualityLevel, decide (other ∉ out ++ [level]) =
                (!other == level && decide (other ∉ out)) := by
              intro other
              by_cases known : other ∈ out <;> simp [known, beq_eq_decide]
            simp only [same]

theorem parseQualityTiers_eq (raw : String) :
    parseQualityTiers raw =
      if namedTiers raw = [] then QualityLevel.all else (namedTiers raw).eraseDups := by
  have everything : ((namedTiers raw).filter fun level => decide (level ∉ [])) = namedTiers raw := by
    simp
  simp only [parseQualityTiers, collectTiers_eq, List.nil_append, ← namedTiers_eq, everything]
  cases namedTiers raw <;> simp [List.eraseDups_cons]

theorem parseQualityTiers_ne_nil (raw : String) : parseQualityTiers raw ≠ [] := by
  rw [parseQualityTiers_eq]
  cases namedTiers raw <;> simp [QualityLevel.all, List.eraseDups_cons]

theorem eraseDups_of_nodup {levels : List QualityLevel} (distinct : levels.Nodup) :
    levels.eraseDups = levels := by
  induction levels with
  | nil => rfl
  | cons level rest ih =>
      obtain ⟨fresh, distinct⟩ := List.nodup_cons.mp distinct
      have kept : (rest.filter fun other => !other == level) = rest := by
        apply List.filter_eq_self.mpr
        rintro other member
        have different : other ≠ level := fun same => fresh (same ▸ member)
        simpa using different
      rw [List.eraseDups_cons, kept, ih distinct]

/-- No name has a comma, and each is that of its own tier. -/
theorem QualityLevel.name_spec (level : QualityLevel) :
    ',' ∉ level.name.toList ∧ fromName level.name.toList = some level := by
  cases level <;> decide

/-- A list of different tiers is read back from its names. -/
theorem parseQualityTiers_names {levels : List QualityLevel} (filled : levels ≠ [])
    (distinct : levels.Nodup) :
    parseQualityTiers (",".intercalate (levels.map QualityLevel.name)) = levels := by
  have pieces : (",".intercalate (levels.map QualityLevel.name)).toList.splitOn ',' =
      levels.map fun level => level.name.toList := by
    rw [String.toList_intercalate, List.map_map]
    apply List.splitOn_intercalate
    · rintro piece member
      obtain ⟨level, _, rfl⟩ := List.mem_map.mp member
      exact level.name_spec.1
    · simpa using filled
  have named : namedTiers (",".intercalate (levels.map QualityLevel.name)) = levels := by
    rw [namedTiers_eq, pieces, List.filterMap_map]
    have known : QualityLevel.fromName ∘ (fun level => level.name.toList) = Option.some := by
      funext level
      exact level.name_spec.2
    rw [known, List.filterMap_some]
  rw [parseQualityTiers_eq, named, if_neg filled, eraseDups_of_nodup distinct]

/-- The tiers that are named, each at its first place, or all of them when none is; and
their names are read back as the same list. -/
theorem parseQualityTiers_spec (raw : String) :
    parseQualityTiers raw ≠ [] ∧ (parseQualityTiers raw).Nodup ∧
      (parseQualityTiers raw =
        if namedTiers raw = [] then QualityLevel.all else (namedTiers raw).eraseDups) ∧
      (namedTiers raw = [] ↔
        ∀ piece ∈ raw.toList.splitOn ',', ∀ level : QualityLevel, ¬level.Names piece) ∧
      parseQualityTiers (",".intercalate ((parseQualityTiers raw).map QualityLevel.name)) =
        parseQualityTiers raw := by
  have filled := parseQualityTiers_ne_nil raw
  have distinct := parseQualityTiers_nodup raw
  refine ⟨filled, distinct, parseQualityTiers_eq raw, ?_, parseQualityTiers_names filled distinct⟩
  rw [List.eq_nil_iff_forall_not_mem]
  simp only [mem_namedTiers]
  grind

end Benri.Transcoder
