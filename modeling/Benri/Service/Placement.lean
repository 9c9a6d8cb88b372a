import Benri.Service.Claim
import Benri.Service.Uploads
import Benri.Storage.Routing

namespace Benri.Service

open Benri.Data Benri.Domain Benri.Postgres Benri.Storage Benri.Transcoder Benri.Transition

/-! # Where the service stores things

All keys that are ever stored are those of originals and of HLS outputs, so the storage
client knows a bucket for each of them, and the bucket that the CDN serves holds no
original.
-/

/-- The keys that the service makes up. -/
inductive Placed (key : String) : Prop where
  | original (id : VideoId) (format : VideoFormat) (same : key = originalKey id format)
  | output (id : VideoId) (path : OutputPath) (made : HlsOutput path)
      (same : key = path.key (storagePrefix id))

theorem bucketFor_originalKey (id : VideoId) (format : VideoFormat) :
    bucketFor (originalKey id format) = some .upload := by
  simp [bucketFor, under, UPLOAD_PREFIX, originalKey, List.isPrefixOf]

theorem bucketFor_storagePrefix (id : VideoId) : bucketFor (storagePrefix id) = some .output := by
  simp [bucketFor, under, UPLOAD_PREFIX, OUTPUT_PREFIX, storagePrefix, List.isPrefixOf]

theorem bucketFor_outputKey (id : VideoId) (path : OutputPath) :
    bucketFor (path.key (storagePrefix id)) = some .output :=
  bucketFor_under (bucketFor_storagePrefix id) (by simp [under_key])

/-- Uploads keep to the names that the pipeline gives. -/
theorem namedUploads : UploadInvariant fun _ upload => Named upload where
  start _ outputPrefix raw hasAudio := .start outputPrefix (parseQualityTiers raw) hasAudio
  flags _ named := ⟨named.segments, named.files, named.queued⟩
  step named effect := named.step effect

/-! ## Every stored key -/

def AllPlaced (objects : Objects) : Prop := ∀ key, objects.find? key ≠ none → Placed key

variable {before after : State} {event : Event}

theorem AllPlaced.step (placed : AllPlaced before.stores.objects) (snapshots : Snapshots before)
    (named : EveryUpload (fun _ upload => Named upload) before)
    (effect : Effect before event after) : AllPlaced after.stores.objects := by
  intro key stored
  cases effect with
  | original id format contentType body =>
      simp only [State.withStores, putOriginalStep, find?_uploadBytes] at stored
      split at stored
      · rename_i same
        exact .original id format same.symm
      · exact placed key stored
  | execution index event execution next stores slot effect =>
      have coherent := snapshots.executions execution (List.mem_of_getElem? slot)
      cases effect with
      | cleaned video result phase =>
          simp only [find?_deleteObject] at stored
          split at stored
          · exact absurd rfl stored
          · exact placed key stored
      | uploaded upload after objects uploadEvent uploading stepped =>
          by_cases same : objects.find? key = before.stores.objects.find? key
          · exact placed key (same ▸ stored)
          · have calls := named execution (List.mem_of_getElem? slot) upload uploading
            obtain ⟨path, made, written⟩ := (uploadStep_effect stepped).made calls same
            rw [Upload.key, (coherent.uploading upload uploading).2] at written
            exact .output execution.id path made written
      | quiet | claimed | published | finalized | failed => exact placed key stored
  | deletion index event deletion next stores slot effect =>
      cases effect with
      | prefixed video kept _ phase answered =>
          simp only [find?_deletePrefix] at stored
          split at stored
          · exact absurd rfl stored
          · exact placed key stored
      | objectDeleted video _ phase answered =>
          simp only [find?_deleteObject] at stored
          split at stored
          · exact absurd rfl stored
          · exact placed key stored
      | found | ended | rowDeleted => exact placed key stored
  | completion index event completion stores next slot effect =>
      cases effect <;> exact placed key stored
  | sweep index event phase next stores slot effect => cases effect <;> exact placed key stored
  | advance | unborn | born | tasks | startCompletion | startExecution | startSweep |
    startDeletion => exact placed key stored

theorem placed_of_reaches {now : Instant} {state : State}
    (reached : Reaches step Anything (State.initial now) state) :
    AllPlaced state.stores.objects := by
  have all : Snapshots state ∧ EveryUpload (fun _ upload => Named upload) state ∧
      AllPlaced state.stores.objects := by
    refine reached.preserves (fun state => Snapshots state ∧
      EveryUpload (fun _ upload => Named upload) state ∧ AllPlaced state.stores.objects)
      ⟨.initial now, .initial _ now, fun key stored => absurd rfl stored⟩ ?_
    intro before after event holds _ stepped
    obtain ⟨snapshots, named, placed⟩ := holds
    have effect := step_effect stepped
    exact ⟨snapshots.step effect, named.step namedUploads effect, placed.step snapshots named effect⟩
  exact all.2.2

/-- The objects that are routed to one bucket. -/
def routedTo (objects : Objects) (bucket : Bucket) : Objects :=
  objects.delete fun object => decide (bucketFor object.key ≠ some bucket)

theorem find?_routedTo (objects : Objects) (bucket : Bucket) (key : String) :
    (routedTo objects bucket).find? key =
      if bucketFor key = some bucket then objects.find? key else none := by
  have deleted := Table.find?_delete_key objects
    (fun wanted => decide (bucketFor wanted ≠ some bucket)) key
  rw [routedTo, deleted]
  by_cases routed : bucketFor key = some bucket <;> simp [routed]

theorem AllPlaced.represents {objects : Objects} (placed : AllPlaced objects) :
    Represents ⟨routedTo objects .upload, routedTo objects .output⟩ objects := by
  have get : ∀ bucket, Buckets.get ⟨routedTo objects .upload, routedTo objects .output⟩ bucket =
      routedTo objects bucket := by
    intro bucket
    cases bucket <;> rfl
  refine ⟨?_, ?_, ?_⟩
  · intro bucket key found
    rw [get, find?_routedTo] at found
    split at found
    · assumption
    · exact absurd rfl found
  · intro bucket key routed
    rw [get, find?_routedTo, if_pos routed]
  · intro key stored
    cases placed key stored with
    | original id format same => simp [same, bucketFor_originalKey]
    | output id path made same => simp [same, bucketFor_outputKey]

/-- Whatever happens, two buckets hold what is stored: the one that the CDN serves holds
playlists and segments only, and the private one originals only. -/
theorem originals_private {now : Instant} {state : State}
    (reached : Reaches step Anything (State.initial now) state) :
    (∃ buckets, Represents buckets state.stores.objects) ∧
    ∀ buckets, Represents buckets state.stores.objects →
      (∀ key, buckets.output.find? key ≠ none →
        ∃ id path, HlsOutput path ∧ key = path.key (storagePrefix id)) ∧
      (∀ key, buckets.upload.find? key ≠ none → ∃ id format, key = originalKey id format) := by
  have placed := placed_of_reaches reached
  refine ⟨⟨_, placed.represents⟩, fun buckets represents => ?_⟩
  -- A key in a bucket is routed to it, and stored.
  have stored : ∀ bucket key, (buckets.get bucket).find? key ≠ none →
      bucketFor key = some bucket ∧ Placed key := by
    intro bucket key found
    have routed := represents.own bucket key found
    rw [← represents.same bucket key routed] at found
    exact ⟨routed, placed key found⟩
  refine ⟨fun key found => ?_, fun key found => ?_⟩
  · obtain ⟨routed, origin⟩ := stored .output key found
    cases origin with
    | original id format same =>
        rw [same, bucketFor_originalKey] at routed
        cases routed
    | output id path made same => exact ⟨id, path, made, same⟩
  · obtain ⟨routed, origin⟩ := stored .upload key found
    cases origin with
    | original id format same => exact ⟨id, format, same⟩
    | output id path made same =>
        rw [same, bucketFor_outputKey] at routed
        cases routed

set_option maxRecDepth 2000 in
theorem originals_private_completedUpload : ∃ state buckets,
    Reaches step Anything (State.initial 0) state ∧ Represents buckets state.stores.objects ∧
    (∃ key id format, buckets.upload.find? key ≠ none ∧ key = originalKey id format) ∧
    ∃ key id path, buckets.output.find? key ≠ none ∧ HlsOutput path ∧
      key = path.key (storagePrefix id) := by
  let segment := (OutputPath.tier .low "segment_00000.ts").key (storagePrefix ⟨.ofNat 7⟩)
  have passed : ((run step Anything (State.initial 0) (claimedVideo ⟨.ofNat 7⟩ ⟨.ofNat 8⟩ ++
      startedTranscode "token" ++ segmentTranscode)).map fun state =>
        (state.stores.objects.find? (originalKey ⟨.ofNat 7⟩ .mkv)).isSome &&
        (state.stores.objects.find? segment).isSome) = some true := by
    decide
  obtain ⟨state, reached, both⟩ := reaches_of_check _ passed
  obtain ⟨there, stored⟩ := Bool.and_eq_true_iff.mp both
  obtain ⟨⟨buckets, represents⟩, holds⟩ := originals_private reached
  have found : ∀ bucket key, bucketFor key = some bucket →
      (state.stores.objects.find? key).isSome = true → (buckets.get bucket).find? key ≠ none := by
    intro bucket key routed known
    rw [represents.same bucket key routed] at known
    exact Option.isSome_iff_ne_none.mp known
  have original := found .upload _ (bucketFor_originalKey ⟨.ofNat 7⟩ .mkv) there
  have output := found .output segment (bucketFor_outputKey ⟨.ofNat 7⟩ _) stored
  obtain ⟨outputs, originals⟩ := holds buckets represents
  obtain ⟨id, format, same⟩ := originals _ original
  obtain ⟨owner, path, made, keyed⟩ := outputs _ output
  exact ⟨state, buckets, reached, represents, ⟨_, id, format, original, same⟩,
    ⟨_, owner, path, output, made, keyed⟩⟩

end Benri.Service
