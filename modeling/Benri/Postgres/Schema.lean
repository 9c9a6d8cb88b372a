import Benri.Domain.Video

namespace Benri.Postgres

open Benri.Domain

/-! # The columns of `001_init.sql`

What the text and integer columns accept.  PostgreSQL counts characters, and no
text it stores holds a NUL.  That it forgives excess blanks at the end of a text
is left out: a row that counts on it does not fit its columns.
-/

structure TextColumn where
  /-- The `n` of `VARCHAR(n)`; `TEXT` has none. -/
  limit : Option Nat
  nullable : Bool
deriving DecidableEq, Repr

def NulFree (text : String) : Prop := '\x00' ∉ text.toList

instance (text : String) : Decidable (NulFree text) := inferInstanceAs (Decidable (_ ∉ _))

def TextColumn.fits (column : TextColumn) (value : Option String) : Bool :=
  match value with
  | none => column.nullable
  | some text => decide (NulFree text) && column.limit.all fun limit => decide (text.length ≤ limit)

/-- `INTEGER`. -/
def integerFits (value : Int) : Bool := decide (-2 ^ 31 ≤ value) && decide (value < 2 ^ 31)

@[simp] theorem NulFree.append (left right : String) :
    NulFree (left ++ right) ↔ NulFree left ∧ NulFree right := by
  simp [NulFree, String.toList_append]

/-! ## The two tables -/

def videoFits (video : Video) : Bool :=
  TextColumn.fits ⟨some 21, true⟩ video.shareToken &&
  TextColumn.fits ⟨some 100, false⟩ (some video.title) &&
  TextColumn.fits ⟨some 10, false⟩ (some video.format.asStr) &&
  TextColumn.fits ⟨some 20, false⟩ (some video.status.asStr) &&
  TextColumn.fits ⟨none, false⟩ (some video.uploadKey)

/-! `serde_json::to_string`, which writes the metadata column. -/

/-- The escapes of a JSON string: two letters where there is a short form, else
the code of a control character in four hexadecimal digits. -/
def escapeChar (char : Char) : List Char :=
  match char.toNat with
  | 0x22 => ['\x5c', '\x22']
  | 0x5c => ['\x5c', '\x5c']
  | 0x08 => ['\x5c', 'b']
  | 0x09 => ['\x5c', 't']
  | 0x0a => ['\x5c', 'n']
  | 0x0c => ['\x5c', 'f']
  | 0x0d => ['\x5c', 'r']
  | code =>
      if code < 0x20 then
        ['\x5c', 'u', '0', '0', Nat.digitChar (code / 16), Nat.digitChar (code % 16)]
      else [char]

def quote (text : String) : String :=
  String.ofList ('\x22' :: text.toList.flatMap escapeChar ++ ['\x22'])

mutual

def jsonText : Json → String
  | .null => "null"
  | .bool value => if value then "true" else "false"
  | .number literal => literal
  | .string text => quote text
  | .array items => "[" ++ ",".intercalate (jsonTexts items) ++ "]"
  | .object fields => "\x7b" ++ ",".intercalate (fieldTexts fields) ++ "\x7d"

def jsonTexts : List Json → List String
  | [] => []
  | item :: rest => jsonText item :: jsonTexts rest

def fieldTexts : List (String × Json) → List String
  | [] => []
  | (name, value) :: rest => (quote name ++ ":" ++ jsonText value) :: fieldTexts rest

end

def taskFits (task : Task) : Bool :=
  TextColumn.fits ⟨some 100, false⟩ (some task.metadataType) &&
  TextColumn.fits ⟨none, false⟩ (some (jsonText task.metadata)) &&
  TextColumn.fits ⟨some 20, false⟩ (some task.status.asStr) &&
  TextColumn.fits ⟨some 200, true⟩ task.orderingKey &&
  TextColumn.fits ⟨some 32, true⟩ task.traceId &&
  integerFits task.attemptCount &&
  TextColumn.fits ⟨none, true⟩ task.error

theorem escapeChar_nul (char : Char) : '\x00' ∉ escapeChar char := by
  unfold escapeChar
  split
  · decide
  · decide
  · decide
  · decide
  · decide
  · decide
  · decide
  · rename_i code _ _ _ _ _ _ _
    split
    · rename_i control
      have table : ∀ code : Fin 0x20, '\x00' ∉ ['\x5c', 'u', '0', '0',
          Nat.digitChar (code / 16), Nat.digitChar (code % 16)] := by decide
      exact table ⟨_, control⟩
    · rename_i printable
      intro member
      rw [← List.mem_singleton.mp member] at printable
      exact printable (by decide)

theorem quote_nulFree (text : String) : NulFree (quote text) := by
  have escaped : '\x00' ∉ text.toList.flatMap escapeChar := by
    intro member
    obtain ⟨char, _, inside⟩ := List.mem_flatMap.mp member
    exact escapeChar_nul char inside
  simp [NulFree, quote, escaped]

/-- The metadata column of a task that names a video. -/
theorem jsonText_videoId (id : VideoId) :
    NulFree (jsonText (.object [("video_id", .string id.uuid.text)])) := by
  have shape : jsonText (.object [("video_id", .string id.uuid.text)]) =
      "\x7b" ++ (quote "video_id" ++ ":" ++ quote id.uuid.text) ++ "\x7d" := by
    simp only [jsonText, fieldTexts]
    rfl
  rw [shape]
  simp only [NulFree.append]
  exact ⟨⟨by decide, ⟨quote_nulFree _, by decide⟩, quote_nulFree _⟩, by decide⟩

/-! ## A task as a row -/

/-- A row of `tasks`, with the two columns that hold an encoded value as text. -/
structure TaskRow where
  id : TaskId
  metadataType : String
  metadata : String
  status : String
  orderingKey : Option String
  traceId : Option String
  attemptCount : Int
  nextRunAt : Instant
  error : Option String
  startedAt : Option Instant
  completedAt : Option Instant
  createdAt : Instant
  updatedAt : Instant
deriving DecidableEq, Repr

/-- What `create` binds. -/
def Task.toRow (task : Task) : TaskRow where
  id := task.id
  metadataType := task.metadataType
  metadata := jsonText task.metadata
  status := task.status.asStr
  orderingKey := task.orderingKey
  traceId := task.traceId
  attemptCount := task.attemptCount
  nextRunAt := task.nextRunAt
  error := task.error
  startedAt := task.startedAt
  completedAt := task.completedAt
  createdAt := task.createdAt
  updatedAt := task.updatedAt

/-- `row_to_task`, given `serde_json::from_str`; an unknown status is a panic. -/
def rowToTask (fromStr : String → Except String Json) (row : TaskRow) : Option Task := do
  let metadata := match fromStr row.metadata with
    | .ok value => value
    | .error _ => .null
  let status ← TaskStatus.fromStr row.status
  some {
    id := row.id, metadataType := row.metadataType, metadata, status,
    orderingKey := row.orderingKey, traceId := row.traceId, attemptCount := row.attemptCount,
    nextRunAt := row.nextRunAt, error := row.error, startedAt := row.startedAt,
    completedAt := row.completedAt, createdAt := row.createdAt, updatedAt := row.updatedAt }

/-- A task is read back as it was stored where its metadata can be. -/
theorem rowToTask_toRow {fromStr : String → Except String Json} {task : Task}
    (decodes : fromStr (jsonText task.metadata) = .ok task.metadata) :
    rowToTask fromStr (Task.toRow task) = some task := by
  simp [rowToTask, Task.toRow, decodes, TaskStatus.fromStr_asStr]

/-- What reading a row keeps of its type and its metadata. -/
theorem rowToTask_metadata {fromStr : String → Except String Json} {row : TaskRow} {task : Task}
    (read : rowToTask fromStr row = some task) :
    task.metadataType = row.metadataType ∧
      (fromStr row.metadata = .ok task.metadata ∨
        ∃ error, fromStr row.metadata = .error error ∧ task.metadata = .null) := by
  simp only [rowToTask, Option.bind_eq_bind, Option.bind_eq_some_iff] at read
  obtain ⟨status, _, same⟩ := read
  cases Option.some.inj same
  refine ⟨rfl, ?_⟩
  cases decoded : fromStr row.metadata with
  | ok value => exact .inl rfl
  | error error => exact .inr ⟨error, rfl, rfl⟩

end Benri.Postgres
