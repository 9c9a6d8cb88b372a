import Benri.Data.Table
import Benri.Domain.Video
import Benri.Transcoder.Quality

namespace Benri.Storage

open Benri.Data Benri.Domain Benri.Transcoder

/-! # Object storage

Keys are texts.  The client routes `uploads/` and `videos/` keys to two buckets;
no key has both prefixes, so one map from keys to objects stands for the pair.
-/

def storageError (message : String) : String := "storage error: " ++ message

/-- The bytes of a file; `byte` matters below `size` only. -/
structure Content where
  size : Nat
  byte : Nat → UInt8

inductive Body where
  | bytes (content : Content)
  | text (content : String)

structure Object where
  key : String
  contentType : String
  body : Body

abbrev Objects := Table String Object Object.key

def Body.size : Body → Nat
  | .bytes content => content.size
  | .text content => content.utf8ByteSize

/-- A ranged GET past the end of the object is an error. -/
def Body.range (body : Body) (start stop : Nat) : Option (List UInt8) :=
  match body with
  | .bytes content =>
      if start < content.size then
        some ((List.range' start (min (stop + 1) content.size - start)).map content.byte)
      else none
  | .text content =>
      if start < content.utf8ByteSize then
        some ((content.toUTF8.data.toList.drop start).take (stop + 1 - start))
      else none

def headObject (objects : Objects) (key : String) : Option Nat :=
  (objects.find? key).map fun object => object.body.size

def uploadBytes (objects : Objects) (key : String) (body : Body) (contentType : String) :
    Objects :=
  objects.put ⟨key, contentType, body⟩

def deleteObject (objects : Objects) (key : String) : Objects :=
  objects.delete fun object => decide (object.key = key)

def under (start key : String) : Bool := start.toList.isPrefixOf key.toList

/-- `delete_prefix`, when it removes what it lists except for the keys `kept`:
those S3 failed to delete, or had not been asked to when the call failed. -/
def deletePrefix (objects : Objects) (start : String) (kept : List String) : Objects :=
  objects.delete fun object => under start object.key && !kept.contains object.key

/-! ## The keys of a video's output -/

/-- What lies under a video's prefix, by its path below it. -/
inductive OutputPath where
  | master
  | tier (level : QualityLevel) (filename : String)
deriving DecidableEq, Repr

def OutputPath.text : OutputPath → String
  | .master => "master.m3u8"
  | .tier level filename => level.name ++ "/" ++ filename

def OutputPath.key (path : OutputPath) (outputPrefix : String) : String :=
  outputPrefix ++ path.text

theorem OutputPath.text_injective : Function.Injective OutputPath.text := by
  intro left right same
  have chars := congrArg String.toList same
  cases left with
  | master =>
      cases right with
      | master => rfl
      | tier level filename => cases level <;> simp [text, QualityLevel.name] at chars
  | tier level filename =>
      cases right with
      | master => cases level <;> simp [text, QualityLevel.name] at chars
      | tier otherLevel otherName =>
          cases level <;> cases otherLevel <;>
            simp [text, QualityLevel.name, String.toList_inj] at chars <;> rw [chars]

theorem OutputPath.key_inj {left right : OutputPath} {outputPrefix : String} :
    left.key outputPrefix = right.key outputPrefix ↔ left = right := by
  refine ⟨fun same => OutputPath.text_injective ?_, congrArg (OutputPath.key · outputPrefix)⟩
  have chars := congrArg String.toList same
  simp only [key, String.toList_append, List.append_cancel_left_eq] at chars
  exact String.toList_inj.mp chars

/-- A video's prefix covers the keys of its own outputs. -/
theorem under_key (path : OutputPath) (id owner : VideoId) :
    under (storagePrefix id) (path.key (storagePrefix owner)) = decide (id = owner) := by
  have covers : under (storagePrefix id) (path.key (storagePrefix owner)) = true ↔ id = owner := by
    simp only [under, List.isPrefixOf_iff_prefix, OutputPath.key, String.toList_append]
    refine ⟨storagePrefix_starts, ?_⟩
    rintro rfl
    exact List.prefix_append _ _
  exact Bool.eq_iff_iff.mpr (covers.trans decide_eq_true_iff.symm)

theorem not_under_originalKey (id owner : VideoId) (format : VideoFormat) :
    under (storagePrefix id) (originalKey owner format) = false := by
  rw [Bool.eq_false_iff, under, ne_eq, List.isPrefixOf_iff_prefix]
  exact originalKey_outside id owner format

/-! ## What the calls do to one key -/

@[simp] theorem find?_uploadBytes (objects : Objects) (key : String) (body : Body)
    (contentType wanted : String) :
    (uploadBytes objects key body contentType).find? wanted =
      if key = wanted then some ⟨key, contentType, body⟩ else objects.find? wanted := by
  simp [uploadBytes]

@[simp] theorem find?_deleteObject (objects : Objects) (key wanted : String) :
    (deleteObject objects key).find? wanted =
      if key = wanted then none else objects.find? wanted := by
  apply (Table.find?_delete_key objects (fun other => decide (other = key)) wanted).trans
  simp [@eq_comm _ wanted]

@[simp] theorem find?_deletePrefix (objects : Objects) (start : String) (kept : List String)
    (wanted : String) :
    (deletePrefix objects start kept).find? wanted =
      if under start wanted = true ∧ wanted ∉ kept then none else objects.find? wanted := by
  apply (Table.find?_delete_key objects
    (fun other => under start other && !kept.contains other) wanted).trans
  simp

end Benri.Storage
