import Benri.Data.Lines
import Benri.Transcoder.Quality

namespace Benri.Transcoder

open Benri.Data

/-! # Playlists

The uploader writes playlists as texts.  A player reads a text back by its
lines: comments and tags begin with `#`, every other line is a URI relative to
the playlist's own location.
-/

def SEGMENT_DURATION_SECS : Nat := 4

/-- The entries of the segments, in order. -/
def segmentEntries (target : Nat) : List String → String
  | [] => ""
  | filename :: rest =>
      "#EXTINF:" ++ toString target ++ ".000,\n" ++ filename ++ "\n" ++
        segmentEntries target rest

def synthesizeVariantPlaylist (segmentFilenames : List String) (finalize : Bool) : String :=
  let target := SEGMENT_DURATION_SECS
  "#EXTM3U\n" ++ "#EXT-X-VERSION:3\n" ++
    ("#EXT-X-TARGETDURATION:" ++ toString target ++ "\n") ++ "#EXT-X-MEDIA-SEQUENCE:0\n" ++
    (if !finalize then "#EXT-X-PLAYLIST-TYPE:EVENT\n" else "") ++
    segmentEntries target segmentFilenames ++
    (if finalize then "#EXT-X-ENDLIST\n" else "")

def codecs (hasAudio : Bool) : String :=
  if hasAudio then "avc1.640028,mp4a.40.2" else "avc1.640028"

def streamInfLine (bitrate width height : Nat) (codecs : String) : String :=
  "#EXT-X-STREAM-INF:BANDWIDTH=" ++ toString bitrate ++ ",RESOLUTION=" ++ toString width ++ "x" ++
    toString height ++ ",CODECS=\"" ++ codecs ++ "\""

def streamInf (level : QualityLevel) (hasAudio : Bool) : String :=
  let (width, height) := level.resolution
  streamInfLine level.targetBitrateBps width height (codecs hasAudio)

def variantEntries (hasAudio : Bool) : List QualityLevel → String
  | [] => ""
  | level :: rest =>
      streamInf level hasAudio ++ "\n" ++ level.name ++ "/playlist.m3u8\n" ++
        variantEntries hasAudio rest

def generateMasterPlaylist (levels : List QualityLevel) (hasAudio : Bool) : String :=
  "#EXTM3U\n#EXT-X-VERSION:3\n" ++ variantEntries hasAudio levels

/-! ## Reading a playlist -/

def textLines (text : String) : List String := (lines text.toList).map String.ofList

/-- A line that is neither blank nor a tag. -/
def isUri (line : String) : Bool :=
  match line.toList with
  | [] => false
  | first :: _ => first ≠ '#'

def uris (text : String) : List String := (textLines text).filter isUri

def closed (text : String) : Prop := (textLines text).getLast? = some "#EXT-X-ENDLIST"

/-- The part of a location up to its last slash. -/
def directory (location : String) : String :=
  String.ofList (location.toList.reverse.dropWhile (· ≠ '/')).reverse

/-- Where a relative URI found at a location points. -/
def resolve (location uri : String) : String := directory location ++ uri

/-- A filename that reads back as a URI. -/
structure PlainName (name : String) : Prop where
  single : '\n' ∉ name.toList
  uri : isUri name = true

theorem resolve_beside {front name : String} (plain : '/' ∉ name.toList) (uri : String) :
    resolve (front ++ "/" ++ name) uri = front ++ "/" ++ uri := by
  have cut : directory (front ++ "/" ++ name) = front ++ "/" := by
    have stops : ∀ char ∈ name.toList.reverse, (!decide (char = '/')) = true := by
      intro char member
      have different : char ≠ '/' := fun same => plain (same ▸ List.mem_reverse.mp member)
      simpa using different
    apply String.toList_inj.mp
    simp [directory, List.dropWhile_append_of_pos stops]
  rw [resolve, cut]

/-- The text of a list of lines. -/
theorem textLines_of_unlines {text : String} {texts : List String}
    (written : text.toList = unlines (texts.map String.toList))
    (single : ∀ line ∈ texts, '\n' ∉ line.toList) : textLines text = texts := by
  rw [textLines, written, lines_unlines]
  · simp [Function.comp_def]
  · intro line member
    obtain ⟨source, inside, rfl⟩ := List.mem_map.mp member
    exact single source inside

/-- The lines of a variant playlist. -/
def variantLines (segmentFilenames : List String) (finalize : Bool) : List String :=
  ["#EXTM3U", "#EXT-X-VERSION:3", "#EXT-X-TARGETDURATION:4", "#EXT-X-MEDIA-SEQUENCE:0"] ++
    (if finalize then [] else ["#EXT-X-PLAYLIST-TYPE:EVENT"]) ++
    segmentFilenames.flatMap (fun filename => ["#EXTINF:4.000,", filename]) ++
    (if finalize then ["#EXT-X-ENDLIST"] else [])

theorem segmentEntries_toList (segmentFilenames : List String) :
    (segmentEntries SEGMENT_DURATION_SECS segmentFilenames).toList = unlines
      ((segmentFilenames.flatMap fun filename => ["#EXTINF:4.000,", filename]).map
        String.toList) := by
  have four : toString SEGMENT_DURATION_SECS = "4" := by decide
  induction segmentFilenames with
  | nil => rfl
  | cons filename rest ih =>
      simp only [segmentEntries, four, String.toList_append, ih]
      simp

theorem variantPlaylist_toList (segmentFilenames : List String) (finalize : Bool) :
    (synthesizeVariantPlaylist segmentFilenames finalize).toList =
      unlines ((variantLines segmentFilenames finalize).map String.toList) := by
  have four : toString SEGMENT_DURATION_SECS = "4" := by decide
  simp only [synthesizeVariantPlaylist, variantLines, String.toList_append,
    segmentEntries_toList, List.map_append, unlines_append, four]
  cases finalize <;> simp

theorem textLines_variantPlaylist {segmentFilenames : List String} (finalize : Bool)
    (single : ∀ filename ∈ segmentFilenames, '\n' ∉ filename.toList) :
    textLines (synthesizeVariantPlaylist segmentFilenames finalize) =
      variantLines segmentFilenames finalize := by
  refine textLines_of_unlines (variantPlaylist_toList _ _) fun line member => ?_
  simp only [variantLines, List.mem_append, List.mem_flatMap] at member
  rcases member with ((header | event) | ⟨filename, inside, entry⟩) | ending
  · revert line
    decide
  · cases finalize <;> simp at event
    subst event
    decide
  · rcases List.mem_cons.mp entry with rfl | same
    · decide
    · exact List.mem_singleton.mp same ▸ single filename inside
  · cases finalize <;> simp at ending
    subst ending
    decide

/-- A player finds in a variant playlist the segments it was made from. -/
theorem uris_variantPlaylist {segmentFilenames : List String} (finalize : Bool)
    (plain : ∀ filename ∈ segmentFilenames, PlainName filename) :
    uris (synthesizeVariantPlaylist segmentFilenames finalize) = segmentFilenames := by
  rw [uris, textLines_variantPlaylist finalize fun name inside => (plain name inside).single,
    variantLines]
  have entries : (segmentFilenames.flatMap fun filename => ["#EXTINF:4.000,", filename]).filter
      isUri = segmentFilenames := by
    induction segmentFilenames with
    | nil => rfl
    | cons filename rest ih =>
        have tag : isUri "#EXTINF:4.000," = false := by decide
        have named := (plain filename List.mem_cons_self).uri
        have others := ih fun other member => plain other (List.mem_cons_of_mem _ member)
        simp only [List.flatMap_cons, List.cons_append, List.nil_append, List.filter_cons, tag,
          named, others, if_true, Bool.false_eq_true, if_false]
  have header : ["#EXTM3U", "#EXT-X-VERSION:3", "#EXT-X-TARGETDURATION:4",
      "#EXT-X-MEDIA-SEQUENCE:0"].filter isUri = [] := by decide
  have event : (if finalize then [] else ["#EXT-X-PLAYLIST-TYPE:EVENT"]).filter isUri = [] := by
    cases finalize <;> decide
  have ending : (if finalize then ["#EXT-X-ENDLIST"] else []).filter isUri = [] := by
    cases finalize <;> decide
  rw [List.filter_append, List.filter_append, List.filter_append, header, event, entries, ending]
  simp

/-- A finalized variant playlist ends with its end tag. -/
theorem closed_variantPlaylist {segmentFilenames : List String}
    (plain : ∀ filename ∈ segmentFilenames, PlainName filename) :
    closed (synthesizeVariantPlaylist segmentFilenames true) := by
  rw [closed, textLines_variantPlaylist true fun name inside => (plain name inside).single,
    variantLines]
  exact List.getLast?_concat

/-- One that is not finalized has no end tag. -/
theorem not_closed_variantPlaylist {segmentFilenames : List String}
    (plain : ∀ filename ∈ segmentFilenames, PlainName filename) :
    ¬ closed (synthesizeVariantPlaylist segmentFilenames false) := by
  rw [closed, textLines_variantPlaylist false fun name inside => (plain name inside).single]
  intro last
  have member := List.mem_of_getLast? last
  simp only [variantLines, List.mem_append, List.mem_flatMap] at member
  rcases member with ((header | event) | ⟨filename, inside, entry⟩) | ending
  · revert header
    decide
  · revert event
    decide
  · rcases List.mem_cons.mp entry with tag | same
    · revert tag
      decide
    · have uri := (plain filename inside).uri
      rw [← List.mem_singleton.mp same] at uri
      revert uri
      decide
  · cases ending

theorem entries_injective {left right : List String}
    (same : left.flatMap (fun filename => ["#EXTINF:4.000,", filename]) =
      right.flatMap fun filename => ["#EXTINF:4.000,", filename]) : left = right := by
  induction left generalizing right with
  | nil =>
      cases right with
      | nil => rfl
      | cons name rest => simp at same
  | cons name rest ih =>
      cases right with
      | nil => simp at same
      | cons other others =>
          simp only [List.flatMap_cons, List.cons_append, List.nil_append, List.cons.injEq,
            true_and] at same
          rw [same.1, ih same.2]

/-- The fifth line tells a playlist that is still open from one that is closed. -/
theorem variantLines_fifth (segmentFilenames : List String) (finalize : Bool) :
    (variantLines segmentFilenames finalize)[4]? = some "#EXT-X-PLAYLIST-TYPE:EVENT" ↔
      finalize = false := by
  cases finalize with
  | false => exact iff_of_true rfl rfl
  | true => cases segmentFilenames <;> simp [variantLines]

/-- Names without newlines can be read off the lines of a playlist. -/
theorem variantLines_injective {left right : List String} {leftFinal rightFinal : Bool}
    (same : variantLines left leftFinal = variantLines right rightFinal) :
    left = right ∧ leftFinal = rightFinal := by
  have fifth := variantLines_fifth left leftFinal
  rw [same, variantLines_fifth] at fifth
  have final : leftFinal = rightFinal := by
    cases leftFinal <;> cases rightFinal <;> simp_all
  subst final
  simp only [variantLines, List.append_assoc, List.append_cancel_left_eq] at same
  exact ⟨entries_injective (List.append_cancel_right same), rfl⟩

theorem synthesizeVariantPlaylist_injective {left right : List String} {leftFinal rightFinal : Bool}
    (leftSingle : ∀ name ∈ left, '\n' ∉ name.toList)
    (rightSingle : ∀ name ∈ right, '\n' ∉ name.toList)
    (same : synthesizeVariantPlaylist left leftFinal = synthesizeVariantPlaylist right rightFinal) :
    left = right ∧ leftFinal = rightFinal := by
  apply variantLines_injective
  rw [← textLines_variantPlaylist leftFinal leftSingle, same,
    textLines_variantPlaylist rightFinal rightSingle]

theorem newline_notMem_toDigits (number : Nat) : '\n' ∉ Nat.toDigits 10 number := by
  intro member
  have digit : ('\n').isDigit = true :=
    Nat.isDigit_of_mem_toDigits (b := 10) (by omega) (by omega) member
  simp at digit

end Benri.Transcoder
