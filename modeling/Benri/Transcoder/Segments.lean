import Benri.Data.Ordered
import Benri.Transcoder.Published
import Mathlib.Data.String.Basic

namespace Benri.Transcoder

open Benri.Data Benri.Domain Benri.Storage Benri.Transition

/-! # The order of the segments

The pipeline numbers the segments of a tier with five digits, so their names sort
in the order they were made.  While the pipeline creates them one after the other,
what a tier has stored, followed by what it is about to store, is the beginning of
what was made; and the segment the pipeline is at work on is not among it.
-/

/-! ## Names -/

theorem padded_digits {index : Nat} (five : index < 100000) :
    (padded index).toList.length = 5 ∧ (∀ char ∈ (padded index).toList, char.isDigit = true) ∧
      Nat.ofDigitChars 10 (padded index).toList 0 = index := by
  rw [padded_toList]
  have digits : (toString index).length ≤ 5 := by
    rw [Nat.toString_eq_ofList_toDigits, String.length_ofList]
    exact (Nat.length_toDigits_le_iff (by decide) (by decide)).mpr five
  have length : (toString index).length = (Nat.toDigits 10 index).length := by
    rw [Nat.toString_eq_ofList_toDigits, String.length_ofList]
  refine ⟨?_, ?_, ?_⟩
  · rw [List.length_append, List.length_replicate, ← length]
    omega
  · intro char member
    rcases List.mem_append.mp member with zero | digit
    · rw [(List.mem_replicate.mp zero).2]
      rfl
    · exact Nat.isDigit_of_mem_toDigits (by omega) (by omega) digit
  · rw [Nat.ofDigitChars_append, Nat.ofDigitChars_replicate_zero, Nat.mul_zero,
      Nat.ofDigitChars_ten_toDigits]

/-- Five digits sort as the numbers do. -/
theorem segmentName_lt {index other : Nat} (less : index < other) (five : other < 100000) :
    segmentName index < segmentName other := by
  obtain ⟨length, numeric, value⟩ := padded_digits (Nat.lt_trans less five)
  obtain ⟨otherLength, otherNumeric, otherValue⟩ := padded_digits five
  have ordered := lt_of_ofDigitChars_lt numeric otherNumeric (length.trans otherLength.symm)
    (by rwa [value, otherValue])
  rw [String.lt_iff_toList_lt]
  simp only [segmentName, String.toList_append, List.append_assoc]
  exact append_lt_append (length.trans otherLength.symm) ordered _ _ _

/-- The names of a tier's first segments. -/
def segmentNames (count : Nat) : List String := (List.range count).map segmentName

theorem segmentNames_succ (count : Nat) :
    segmentNames (count + 1) = segmentNames count ++ [segmentName count] := by
  simp [segmentNames, List.range_succ]

theorem mem_segmentNames {count : Nat} {filename : String} :
    filename ∈ segmentNames count ↔ ∃ index < count, segmentName index = filename := by
  simp [segmentNames]

theorem segmentNames_ascending {count : Nat} (five : count ≤ 100000) :
    (segmentNames count).Pairwise (· < ·) := by
  refine List.pairwise_map.mpr (List.pairwise_lt_range.imp_of_mem ?_)
  intro index other _ inside less
  exact segmentName_lt less (Nat.lt_of_lt_of_le (List.mem_range.mp inside) five)

/-! ## The pipeline -/

/-- The pipeline creates the segments of a tier in sequence, with five digits each, and
writes to the newest only. -/
def InSequence (world : Objects × Upload) : UploadEvent → Prop
  | .write level (.segment index) _ => index < 100000 ∧
      ((world.2.produced.get level).length = index ∨
        (world.2.produced.get level).length = index + 1)
  | _ => True

/-- What the pipeline has made, and what the tier directories hold of it. -/
structure Sequenced (upload : Upload) : Prop where
  produced : ∀ level, ∃ count ≤ 100000, upload.produced.get level = segmentNames count
  single : ∀ level, ((upload.files level).map File.name).Nodup
  made : ∀ level, ∀ file ∈ upload.files level, IsSegment file.name →
    file.name ∈ upload.produced.get level

variable {levels : List QualityLevel} {objects reached : Objects} {upload after : Upload}

theorem Sequenced.start (outputPrefix : String) (levels : List QualityLevel) (hasAudio : Bool) :
    Sequenced (.start outputPrefix levels hasAudio) := by
  refine ⟨?_, ?_, ?_⟩
  · intro level
    refine ⟨0, Nat.zero_le _, ?_⟩
    cases level <;> rfl
  · intro level
    rw [files_start]
    exact List.nodup_nil
  · intro level file member
    rw [files_start] at member
    cases member

theorem Sequenced.ascending (sequenced : Sequenced upload) (level : QualityLevel) :
    (upload.produced.get level).Pairwise (· < ·) := by
  obtain ⟨count, five, same⟩ := sequenced.produced level
  rw [same]
  exact segmentNames_ascending five

/-- A segment that is new is the next one. -/
theorem Produces.numbered {produced after : PerTier (List String)} {level : QualityLevel}
    {index : Nat} (produces : Produces produced level (.segment index) after)
    (numbered : ∀ level, ∃ count ≤ 100000, produced.get level = segmentNames count)
    (five : index < 100000)
    (next : (produced.get level).length = index ∨ (produced.get level).length = index + 1)
    (wanted : QualityLevel) : ∃ count ≤ 100000, after.get wanted = segmentNames count := by
  cases produces with
  | again => exact numbered wanted
  | first _ fresh =>
      by_cases same : level = wanted
      · subst same
        obtain ⟨count, _, made⟩ := numbered level
        rw [made] at fresh next
        have known : ¬ index < count :=
          fun less => fresh (mem_segmentNames.mpr ⟨index, less, rfl⟩)
        have length : (segmentNames count).length = count := by simp [segmentNames]
        rw [length] at next
        have latest : count = index := by omega
        refine ⟨index + 1, five, ?_⟩
        rw [PerTier.get_set, if_pos rfl, made, latest, segmentNames_succ]
      · rw [PerTier.get_set, if_neg same]
        exact numbered wanted

theorem Sequenced.write (sequenced : Sequenced upload) {level : QualityLevel}
    {files : List File} {file : PipelineFile} {content : Content}
    {produced : PerTier (List String)} (listed : upload.disk.get level = some files)
    (produces : Produces upload.produced level file produced)
    (permitted : InSequence (objects, upload) (.write level file content)) :
    Sequenced { upload with
      disk := upload.disk.set level (some (without files file.name ++ [⟨file.name, content⟩]))
      produced } := by
  have older : ∀ wanted filename, filename ∈ upload.produced.get wanted →
      filename ∈ produced.get wanted := by
    intro wanted filename member
    cases produces with
    | again => exact member
    | first index fresh =>
        rw [PerTier.get_set]
        split
        · rename_i same
          exact List.mem_append_left _ (same ▸ member)
        · exact member
  refine ⟨?_, ?_, ?_⟩
  · intro wanted
    cases file with
    | playlist =>
        cases produces
        exact sequenced.produced wanted
    | segment index => exact produces.numbered sequenced.produced permitted.1 permitted.2 wanted
  · intro wanted
    rw [files_written]
    split
    · have before := sequenced.single level
      rw [files_of_listed listed] at before
      rw [List.map_append]
      refine List.nodup_append.mpr ⟨before.sublist (List.filter_sublist.map _),
        List.nodup_singleton _, ?_⟩
      rintro name member _ single rfl
      obtain ⟨other, inside, rfl⟩ := List.mem_map.mp member
      have different := of_decide_eq_true (List.mem_filter.mp inside).2
      exact different (List.mem_singleton.mp single)
    · exact sequenced.single wanted
  · intro wanted other member segment
    rw [files_written] at member
    split at member
    · rename_i same
      subst same
      rcases List.mem_append.mp member with old | new
      · refine older level _ (sequenced.made level other ?_ segment)
        rw [files_of_listed listed]
        exact (List.mem_filter.mp old).1
      · rw [List.mem_singleton.mp new] at segment ⊢
        cases produces with
        | again _ known =>
            cases file with
            | playlist => exact absurd segment not_isSegment_playlist
            | segment index => exact known index rfl
        | first index fresh =>
            rw [PerTier.get_set, if_pos rfl]
            exact List.mem_append_right _ (List.mem_singleton_self _)
    · exact older wanted _ (sequenced.made wanted other member segment)

theorem Sequenced.step (sequenced : Sequenced upload) {event : UploadEvent}
    (permitted : InSequence (objects, upload) event)
    (stepped : uploadStep objects upload event = some (reached, after)) : Sequenced after := by
  rcases uploadStep_files stepped with ⟨level, file, content, rfl⟩ | ⟨produced, files⟩
  · cases uploadStep_move stepped with
    | write level file content files produced running listed produces =>
        exact sequenced.write listed produces permitted
  · refine ⟨?_, ?_, ?_⟩
    · rw [produced]
      exact sequenced.produced
    · exact fun level => (sequenced.single level).sublist ((files level).map _)
    · intro level file member segment
      rw [produced]
      exact sequenced.made level file ((files level).subset member) segment

/-! ## What waits to be stored -/

def queuedSegments (level : QualityLevel) (actions : List Action) : List String :=
  actions.filterMap fun
    | .segment other filename => if other = level then some filename else none
    | _ => none

/-- The queued segments of a tier that will not be skipped. -/
def unsent (listed : List String) (level : QualityLevel) (actions : List Action) : List String :=
  (queuedSegments level actions).filter fun filename => decide (filename ∉ listed)

/-- The segments of a tier that the pipeline is done with. -/
def Upload.settled (upload : Upload) (level : QualityLevel) : List String :=
  if upload.pipeline then (upload.produced.get level).dropLast else upload.produced.get level

/-- A tier's segments are stored in the order they were made, and none too early. -/
def InOrder (upload : Upload) : Prop :=
  ∀ level, upload.segments level ++ unsent (upload.segments level) level upload.todo <+:
    upload.settled level

@[simp] theorem queuedSegments_append (level : QualityLevel) (front back : List Action) :
    queuedSegments level (front ++ back) =
      queuedSegments level front ++ queuedSegments level back :=
  List.filterMap_append

theorem queuedSegments_eq_nil {level : QualityLevel} {actions : List Action}
    (none : ∀ filename, .segment level filename ∉ actions) : queuedSegments level actions = [] := by
  refine List.filterMap_eq_nil_iff.mpr fun action member => ?_
  cases action with
  | segment other filename =>
      refine if_neg ?_
      rintro rfl
      exact none filename member
  | tier | publish | master => rfl

theorem queuedSegments_tierActions (level : QualityLevel) (mode : TickMode) (files : List File) :
    queuedSegments level (tierActions level mode files) =
      selectUploadableSegments (scanSegments files) mode := by
  have each : ∀ filenames : List String, queuedSegments level (filenames.flatMap fun filename =>
      [.segment level filename, .publish level .running]) = filenames := by
    intro filenames
    induction filenames with
    | nil => rfl
    | cons filename rest ih =>
        rw [List.flatMap_cons, queuedSegments_append, ih]
        simp [queuedSegments]
  rw [tierActions, queuedSegments_append, each]
  exact List.append_nil _

theorem settled_produced (upload : Upload) (level : QualityLevel) :
    upload.settled level <+: upload.produced.get level := by
  unfold Upload.settled
  split
  · exact List.dropLast_prefix _
  · exact List.prefix_rfl

theorem InOrder.stored (inOrder : InOrder upload) (level : QualityLevel) :
    upload.segments level <+: upload.settled level :=
  (List.prefix_append _ _).trans (inOrder level)

/-- Reading a tier's directory puts its next segments in line. -/
theorem InOrder.read (inOrder : InOrder upload) (named : Named upload)
    (supplied : Supplied levels upload) (sequenced : Sequenced upload)
    (awaited : upload.awaited = true) {level : QualityLevel} {mode : TickMode}
    {files : List File} (listed : upload.disk.get level = some files)
    (finished : mode = .finalDrain → upload.pipeline = false) :
    upload.segments level ++ (selectUploadableSegments (scanSegments files) mode).filter
      (fun filename => decide (filename ∉ upload.segments level)) <+: upload.settled level := by
  have ascending := sequenced.ascending level
  have stored := inOrder.stored level
  have taken : upload.segments level =
      (upload.produced.get level).take (upload.segments level).length :=
    List.prefix_iff_eq_take.mp (stored.trans (settled_produced upload level))
  generalize (upload.segments level).length = count at taken
  have whole : (upload.produced.get level).take count ++ (upload.produced.get level).drop count =
      upload.produced.get level := List.take_append_drop _ _
  have sorted : (scanSegments files).Pairwise (· ≤ ·) := List.pairwise_insertionSort _ _
  have distinct : (scanSegments files).Nodup := by
    have single := sequenced.single level
    rw [files_of_listed listed] at single
    exact (List.perm_insertionSort _ _).nodup_iff.mpr (single.filter _)
  have within : scanSegments files ⊆ upload.produced.get level := by
    intro filename member
    have offered : filename ∈ selectUploadableSegments (scanSegments files) .finalDrain := member
    obtain ⟨⟨file, inside, rfl⟩, _⟩ := mem_scanSegments.mp member
    exact sequenced.made level file (files_of_listed listed ▸ inside) (named.offered listed offered)
  have complete : (upload.produced.get level).drop count ⊆ scanSegments files := by
    intro filename member
    have made := List.mem_of_mem_drop member
    rcases supplied.produced awaited level filename made with early | ⟨file, inside, rfl⟩
    · rw [taken] at early
      rw [← whole] at ascending
      exact absurd ((List.pairwise_append.mp ascending).2.2 _ early _ member) (lt_irrefl _)
    · refine mem_scanSegments.mpr ⟨⟨file, files_of_listed listed ▸ inside, rfl⟩, ?_⟩
      obtain ⟨index, name⟩ := supplied.names level _ made
      rw [name]
      exact (isSegmentFile_iff (.segment index)).mpr ⟨index, rfl⟩
  cases mode with
  | finalDrain =>
      rw [taken, selectUploadableSegments,
        filter_notMem_take ascending sorted distinct within complete, whole, Upload.settled,
        finished rfl]
      exact List.prefix_rfl
  | running =>
      rw [selectUploadableSegments, ← List.dropLast_eq_take, taken,
        filter_dropLast ascending sorted distinct within complete]
      by_cases none : (upload.produced.get level).drop count = []
      · rw [none, List.dropLast_nil, List.append_nil, ← taken]
        exact stored
      · rw [← List.dropLast_append_of_ne_nil none, whole]
        unfold Upload.settled
        split
        · exact List.prefix_rfl
        · exact List.dropLast_prefix _

/-- Storing the segment at the head of the line. -/
theorem InOrder.recorded (inOrder : InOrder upload) (sequenced : Sequenced upload)
    {level : QualityLevel} {filename : String} {rest more : List Action}
    (todo : upload.todo = .segment level filename :: rest)
    (fresh : filename ∉ upload.segments level)
    (recorded : Recorded upload after level filename more) (wanted : QualityLevel) :
    after.segments wanted ++ unsent (after.segments wanted) wanted (more ++ rest) <+:
      upload.settled wanted := by
  have quiet : queuedSegments wanted more = [] := by
    refine queuedSegments_eq_nil fun other member => ?_
    rcases recorded.shape with rfl | ⟨_, rfl⟩ <;> simp at member
  have before := inOrder wanted
  rw [todo] at before
  rw [unsent, queuedSegments_append, quiet, List.nil_append, recorded.segments]
  by_cases same : level = wanted
  · subst same
    have line : unsent (upload.segments level) level (.segment level filename :: rest) =
        filename :: unsent (upload.segments level) level rest := by
      simp [unsent, queuedSegments, fresh]
    rw [line] at before
    -- The pipeline's names are distinct, so this one does not wait a second time.
    have distinct : (upload.segments level ++
        filename :: unsent (upload.segments level) level rest).Nodup :=
      ((sequenced.ascending level).imp ne_of_lt).sublist
        (before.trans (settled_produced upload level)).sublist
    have once := (List.nodup_cons.mp (List.nodup_append.mp distinct).2.1).1
    have kept : (queuedSegments level rest).filter
        (fun other => decide (other ∉ upload.segments level ++ [filename])) =
        unsent (upload.segments level) level rest := by
      refine List.filter_congr fun other member => decide_eq_decide.mpr ?_
      rw [List.mem_append, List.mem_singleton, not_or]
      refine ⟨And.left, fun unlisted => ⟨unlisted, ?_⟩⟩
      rintro rfl
      exact once (List.mem_filter.mpr ⟨member, decide_eq_true unlisted⟩)
    rw [if_pos rfl, kept, List.append_assoc]
    exact before
  · have line : unsent (upload.segments wanted) wanted (.segment level filename :: rest) =
        unsent (upload.segments wanted) wanted rest := by
      simp [unsent, queuedSegments, same]
    rw [line] at before
    rw [if_neg same]
    exact before

/-- An action that puts nothing in line and sends nothing. -/
theorem unsent_done {listed : List String} {level : QualityLevel} {action : Action}
    {rest : List Action}
    (done : ∀ filename, action = .segment level filename → filename ∈ listed) :
    unsent listed level (action :: rest) = unsent listed level rest := by
  rw [unsent, unsent, ← List.singleton_append, queuedSegments_append, List.filter_append]
  have nothing : (queuedSegments level [action]).filter (fun filename =>
      decide (filename ∉ listed)) = [] := by
    refine List.filter_eq_nil_iff.mpr fun filename member => ?_
    rw [decide_eq_true_eq, not_not]
    cases action with
    | segment other name =>
        by_cases same : other = level
        · subst same
          have only : filename = name := by simpa [queuedSegments] using member
          exact only ▸ done name rfl
        · simp [queuedSegments, same] at member
    | tier | publish | master => simp [queuedSegments] at member
  rw [nothing, List.nil_append]

theorem InOrder.step (inOrder : InOrder upload) (named : Named upload)
    (supplied : Supplied levels upload) (drains : Drains levels upload)
    (sequenced : Sequenced upload) (orderly : Orderly upload) (awaited : upload.awaited = true)
    (effect : UploadEffect objects upload reached after) : InOrder after := by
  cases effect with
  | stopped | abandoned | dropped => exact inOrder
  | ended =>
      intro level
      exact (inOrder level).trans (settled_produced upload level)
  | wrote level files file content produced running listed produces =>
      intro wanted
      refine (inOrder wanted).trans ?_
      rw [Upload.settled, Upload.settled, running, if_pos rfl, if_pos rfl]
      cases produces with
      | again => exact List.prefix_rfl
      | first index fresh =>
          rw [PerTier.get_set]
          split
          · rename_i same
            subst same
            rw [List.dropLast_concat]
            exact List.dropLast_prefix _
          · exact List.prefix_rfl
  | ticked mode asleep timely =>
      intro level
      rw [todo_withPhase_settle, unsent, queuedSegments_eq_nil]
      · exact (List.append_nil _).symm ▸ inOrder.stored level
      · intro filename member
        obtain ⟨_, _, same⟩ := mem_tick.mp member
        cases same
  | failed mode action rest _ error working perhaps =>
      intro level
      exact (List.append_nil _).symm ▸ inOrder.stored level
  | acted mode action rest more _ after working performed =>
      have todo := todo_of_working working
      have kept : ∀ level, (∀ filename, action = .segment level filename →
          filename ∈ upload.segments level) →
          upload.segments level ++ unsent (upload.segments level) level rest <+:
            upload.settled level := by
        intro level done
        have before := inOrder level
        rwa [todo, unsent_done done] at before
      intro wanted
      rw [todo_withPhase_settle]
      cases performed with
      | idle _ idle =>
          refine kept wanted ?_
          rintro filename rfl
          exact idle
      | published | mastered => exact kept wanted nofun
      | recorded level file _ _ fresh stored recorded =>
          have settled : after.settled wanted = upload.settled wanted := by
            rw [Upload.settled, Upload.settled, recorded.pipeline, recorded.produced]
          change _ <+: after.settled wanted
          rw [settled]
          exact inOrder.recorded sequenced todo fresh recorded wanted
      | queued level tierMode files listed =>
          by_cases same : level = wanted
          · subst same
            have apart : (Action.tier level tierMode :: rest).Pairwise Apart := todo ▸ orderly.apart
            have others : queuedSegments level rest = [] := queuedSegments_eq_nil fun _ member =>
              (List.pairwise_cons.mp apart).1 _ member level rfl rfl
            rw [unsent, queuedSegments_append, queuedSegments_tierActions, others, List.append_nil]
            refine inOrder.read named supplied sequenced awaited listed ?_
            rintro rfl
            have last := orderly.final (.tier level .finalDrain)
              (by rw [todo]; exact List.mem_cons_self) rfl
            rw [working] at last
            obtain rfl : mode = .finalDrain := last
            have draining := drains awaited (.tier level .finalDrain :: rest) working
            exact supplied.ended awaited draining.stopped
          · have quiet : queuedSegments wanted (tierActions level tierMode files) = [] := by
              refine queuedSegments_eq_nil fun filename member => same ?_
              exact Option.some.inj (tierActions_level member).symm
            rw [unsent, queuedSegments_append, quiet, List.nil_append]
            exact kept wanted nofun

end Benri.Transcoder
