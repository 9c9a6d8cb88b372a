import Benri.Storage.S3Client
import Benri.Transition.Run

namespace Benri.Storage

open Benri.Data Benri.Transition

/-! # The storage client and its two buckets

Every call of the client goes to the bucket of its key.  To its callers the pair is one
map from keys to objects, in which a prefix deletion removes what its batches removed.
-/

inductive Answer where
  | size (result : Except String (Option Nat))
  | content (result : Except String (List UInt8))
  | done (result : Except String Unit)

/-- The calls about one key. -/
inductive KeyCall where
  | headObject (key : String) (fault : Fault)
  | readRange (key : String) (start stop : Nat) (fault : Fault)
  | uploadBytes (key : String) (body : Body) (contentType : String) (fault : Fault)
  | deleteObject (key : String) (fault : Fault)

def KeyCall.key : KeyCall → String
  | .headObject key _ | .readRange key _ _ _ | .uploadBytes key _ _ _ | .deleteObject key _ => key

/-- A key that is gone and an empty object are errors of the store. -/
def readBytes (objects : Objects) (key : String) (start stop : Nat) :
    Except String (List UInt8) :=
  match (objects.find? key).bind fun object => object.body.range start stop with
  | some bytes => .ok bytes
  | none => .error (storageError "service error")

def keyCall (objects : Objects) : KeyCall → Objects × Answer
  | .headObject key fault =>
      let answer := attempt fault storageError objects objects (headObject objects key)
      (answer.1, .size answer.2)
  | .readRange key start stop fault =>
      let answer := attempt fault storageError objects objects (readBytes objects key start stop)
      (answer.1, .content (answer.2.bind id))
  | .uploadBytes key body contentType fault =>
      let answer := attempt fault storageError objects (uploadBytes objects key body contentType) ()
      (answer.1, .done answer.2)
  | .deleteObject key fault =>
      let answer := attempt fault storageError objects (deleteObject objects key) ()
      (answer.1, .done answer.2)

/-! ## One map -/

inductive ObjectCall where
  | key (call : KeyCall)
  | deletePrefix (start : String) (kept : List String) (result : Except String Unit)

def objectCall (objects : Objects) : ObjectCall → Objects × Answer
  | .key call => keyCall objects call
  | .deletePrefix start kept result => (deletePrefix objects start kept, .done result)

def objectRun (objects : Objects) : List ObjectCall → Objects × List Answer
  | [] => (objects, [])
  | call :: rest =>
      let answer := objectCall objects call
      let reached := objectRun answer.1 rest
      (reached.1, answer.2 :: reached.2)

/-! ## Two buckets -/

inductive ClientCall where
  | key (call : KeyCall)
  | deletePrefix (start : String) (rounds : List Round)

/-- `none` is the panic of `bucket_for`, or a transcript that is not one of the call. -/
def clientCall (buckets : Buckets) : ClientCall → Option (Buckets × Answer)
  | .key call => (bucketFor call.key).map fun bucket =>
      let answer := keyCall (buckets.get bucket) call
      (buckets.set answer.1 bucket, answer.2)
  | .deletePrefix start rounds => (s3DeletePrefix buckets start rounds).map fun answer =>
      (answer.1, .done answer.2)

def clientRun (buckets : Buckets) : List ClientCall → Option (Buckets × List Answer)
  | [] => some (buckets, [])
  | call :: rest =>
      (clientCall buckets call).bind fun answer =>
        (clientRun answer.1 rest).map fun reached => (reached.1, answer.2 :: reached.2)

/-- The listings name keys under the prefix they were asked for. -/
def ClientCall.Listed : ClientCall → Prop
  | .key _ => True
  | .deletePrefix start rounds => ∀ round ∈ rounds, ∀ key ∈ round.keys, under start key = true

/-- What a call is to the callers of the client.  A prefix deletion keeps nothing that its
batches removed, and succeeds when all of its requests do. -/
inductive Abstracts : ClientCall → ObjectCall → Prop where
  | key (call : KeyCall) : Abstracts (.key call) (.key call)
  | deletePrefix (start : String) (rounds : List Round) (kept : List String)
      (result : Except String Unit)
      (spared : ∀ key ∈ kept, key ∉ rounds.flatMap Round.removed)
      (status : result = .ok () ↔ ∀ round ∈ rounds, round.fails = false) :
      Abstracts (.deletePrefix start rounds) (.deletePrefix start kept result)

/-- The map that two buckets stand for; each of them holds keys of its own only. -/
structure Represents (buckets : Buckets) (objects : Objects) : Prop where
  own : ∀ bucket key, (buckets.get bucket).find? key ≠ none → bucketFor key = some bucket
  same : ∀ bucket key, bucketFor key = some bucket →
    objects.find? key = (buckets.get bucket).find? key
  stored : ∀ key, objects.find? key ≠ none → bucketFor key ≠ none

/-! ## Calls about one key -/

section KeyCalls

variable {objects other : Objects} {call : KeyCall}

/-- A call looks at its own key only. -/
theorem keyCall_congr (same : objects.find? call.key = other.find? call.key) :
    (keyCall objects call).2 = (keyCall other call).2 ∧
      (keyCall objects call).1.find? call.key = (keyCall other call).1.find? call.key := by
  cases call with
  | headObject key fault =>
      have sizes : headObject objects key = headObject other key := by
        unfold headObject
        rw [show objects.find? key = other.find? key from same]
      cases fault with
      | none => exact ⟨congrArg (fun size => Answer.size (.ok size)) sizes, same⟩
      | error applied message => cases applied <;> exact ⟨rfl, same⟩
  | readRange key start stop fault =>
      have bytes : readBytes objects key start stop = readBytes other key start stop := by
        unfold readBytes
        rw [show objects.find? key = other.find? key from same]
      cases fault with
      | none => exact ⟨congrArg Answer.content bytes, same⟩
      | error applied message => cases applied <;> exact ⟨rfl, same⟩
  | uploadBytes key body contentType fault =>
      have written : (uploadBytes objects key body contentType).find? key =
          (uploadBytes other key body contentType).find? key := by
        simp
      cases fault with
      | none => exact ⟨rfl, written⟩
      | error applied message =>
          cases applied
          · exact ⟨rfl, same⟩
          · exact ⟨rfl, written⟩
  | deleteObject key fault =>
      have removed : (deleteObject objects key).find? key = (deleteObject other key).find? key := by
        simp
      cases fault with
      | none => exact ⟨rfl, removed⟩
      | error applied message =>
          cases applied
          · exact ⟨rfl, same⟩
          · exact ⟨rfl, removed⟩

/-- The other keys are left alone. -/
theorem keyCall_elsewhere {wanted : String} (elsewhere : wanted ≠ call.key) :
    (keyCall objects call).1.find? wanted = objects.find? wanted := by
  have kept : ∀ {Result : Type} (fault : Fault) (after : Objects) (result : Result),
      after.find? wanted = objects.find? wanted →
      (attempt fault storageError objects after result).1.find? wanted = objects.find? wanted := by
    intro Result fault after result same
    rcases attempt_state fault storageError objects after result with before | applied
    · rw [before]
    · rw [applied]
      exact same
  cases call with
  | headObject key fault => exact kept fault objects _ rfl
  | readRange key start stop fault => exact kept fault objects _ rfl
  | uploadBytes key body contentType fault =>
      have apart : key ≠ wanted := fun same => elsewhere same.symm
      exact kept fault _ _ (by rw [find?_uploadBytes, if_neg apart])
  | deleteObject key fault =>
      have apart : key ≠ wanted := fun same => elsewhere same.symm
      exact kept fault _ _ (by rw [find?_deleteObject, if_neg apart])

end KeyCalls

/-! ## The simulation -/

/-- What lies under a prefix is routed like the prefix. -/
theorem bucketFor_under {start key : String} {bucket : Bucket}
    (routed : bucketFor start = some bucket) (covered : under start key = true) :
    bucketFor key = some bucket := by
  have trans : ∀ {first : String}, under first start = true → under first key = true := by
    intro first inside
    unfold under at inside covered ⊢
    rw [List.isPrefixOf_iff_prefix] at inside covered ⊢
    exact inside.trans covered
  have exclusive : under OUTPUT_PREFIX start = true → under UPLOAD_PREFIX key = false := by
    intro output
    rw [Bool.eq_false_iff]
    intro upload
    have both := trans output
    unfold under at upload both
    rw [List.isPrefixOf_iff_prefix] at upload both
    exact absurd (List.prefix_of_prefix_length_le both upload (by decide)) (by decide)
  unfold bucketFor at routed ⊢
  split at routed
  · rename_i upload
    rw [if_pos (trans upload)]
    exact routed
  · split at routed
    · rename_i output
      rw [if_neg (by rw [exclusive output]; decide), if_pos (trans output)]
      exact routed
    · cases routed

variable {buckets after : Buckets} {objects : Objects}

theorem Represents.keyCall {call : KeyCall} {bucket : Bucket}
    (represents : Represents buckets objects) (routed : bucketFor call.key = some bucket) :
    (Storage.keyCall objects call).2 = (Storage.keyCall (buckets.get bucket) call).2 ∧
      Represents (buckets.set (Storage.keyCall (buckets.get bucket) call).1 bucket)
        (Storage.keyCall objects call).1 := by
  obtain ⟨answers, called⟩ := keyCall_congr (represents.same bucket call.key routed)
  -- Elsewhere than at the key of the call, both sides are as before.
  have unchanged : ∀ {wanted}, wanted ≠ call.key → ∀ other,
      ((buckets.set (Storage.keyCall (buckets.get bucket) call).1 bucket).get other).find? wanted =
        (buckets.get other).find? wanted := by
    intro wanted elsewhere other
    by_cases here : other = bucket
    · subst here
      rw [Buckets.get_set, keyCall_elsewhere elsewhere]
    · rw [Buckets.get_set_of_ne _ _ here]
  refine ⟨answers, ?_, ?_, ?_⟩
  · intro other wanted found
    by_cases mine : wanted = call.key
    · subst mine
      by_cases here : other = bucket
      · rw [here]
        exact routed
      · rw [Buckets.get_set_of_ne _ _ here] at found
        exact represents.own other _ found
    · rw [unchanged mine] at found
      exact represents.own other wanted found
  · intro other wanted routedThere
    by_cases mine : wanted = call.key
    · subst mine
      obtain rfl := Option.some.inj (routed.symm.trans routedThere)
      rw [Buckets.get_set]
      exact called
    · rw [unchanged mine, keyCall_elsewhere mine]
      exact represents.same other wanted routedThere
  · intro wanted found
    by_cases mine : wanted = call.key
    · rw [mine, routed]
      simp
    · rw [keyCall_elsewhere mine] at found
      exact represents.stored wanted found

theorem Represents.deletePrefix {start : String} {bucket : Bucket} {kept : List String}
    (represents : Represents buckets objects) (routed : bucketFor start = some bucket) :
    Represents (buckets.set (Storage.deletePrefix (buckets.get bucket) start kept) bucket)
      (Storage.deletePrefix objects start kept) := by
  refine ⟨?_, ?_, ?_⟩
  · intro other wanted found
    by_cases here : other = bucket
    · subst here
      rw [Buckets.get_set, find?_deletePrefix] at found
      split at found
      · exact absurd rfl found
      · exact represents.own other wanted found
    · rw [Buckets.get_set_of_ne _ _ here] at found
      exact represents.own other wanted found
  · intro other wanted routedThere
    by_cases here : other = bucket
    · subst here
      rw [Buckets.get_set, find?_deletePrefix, find?_deletePrefix,
        represents.same other wanted routedThere]
    · have outside : ¬(under start wanted = true ∧ wanted ∉ kept) := by
        rintro ⟨covered, _⟩
        exact here (Option.some.inj (routedThere.symm.trans (bucketFor_under routed covered)))
      rw [Buckets.get_set_of_ne _ _ here, find?_deletePrefix, if_neg outside]
      exact represents.same other wanted routedThere
  · intro wanted found
    rw [find?_deletePrefix] at found
    split at found
    · exact absurd rfl found
    · exact represents.stored wanted found

/-- Every call of the client is a call on the map, with the same answer. -/
theorem Represents.clientCall {call : ClientCall} {answer : Answer}
    (represents : Represents buckets objects) (listed : call.Listed)
    (called : Storage.clientCall buckets call = some (after, answer)) :
    ∃ abstract, Abstracts call abstract ∧ (objectCall objects abstract).2 = answer ∧
      Represents after (objectCall objects abstract).1 := by
  cases call with
  | key call =>
      obtain ⟨bucket, routed, same⟩ := Option.map_eq_some_iff.mp called
      cases same
      exact ⟨.key call, .key call, represents.keyCall routed⟩
  | deletePrefix start rounds =>
      obtain ⟨⟨reached, result⟩, ran, same⟩ := Option.map_eq_some_iff.mp called
      cases same
      cases routed : bucketFor start with
      | none =>
          rw [s3DeletePrefix, routed] at ran
          cases ran
      | some bucket =>
          obtain ⟨kept, spared, removed⟩ := s3DeletePrefix_deletePrefix routed ran listed
          obtain ⟨rfl, status⟩ := s3DeletePrefix_result routed ran
          rw [Buckets.get_set] at removed
          refine ⟨.deletePrefix start kept result, .deletePrefix _ _ _ _ spared status, rfl, ?_⟩
          rw [removed]
          exact represents.deletePrefix routed

/-- The client with its two buckets refines the map: whatever calls are made, in any order
and with any failures, each is answered like the corresponding call on the map that the
buckets stand for, and afterwards they stand for the map that these calls lead to. -/
theorem client_refines {calls : List ClientCall} {answers : List Answer}
    (represents : Represents buckets objects) (listed : ∀ call ∈ calls, call.Listed)
    (ran : clientRun buckets calls = some (after, answers)) :
    ∃ abstract, List.Forall₂ Abstracts calls abstract ∧
      (objectRun objects abstract).2 = answers ∧
      Represents after (objectRun objects abstract).1 := by
  induction calls generalizing buckets objects answers with
  | nil =>
      cases ran
      exact ⟨[], .nil, rfl, represents⟩
  | cons call rest ih =>
      obtain ⟨⟨middle, answer⟩, called, others⟩ := Option.bind_eq_some_iff.mp ran
      obtain ⟨⟨reached, further⟩, continued, same⟩ := Option.map_eq_some_iff.mp others
      cases same
      obtain ⟨first, abstracts, answered, stands⟩ :=
        represents.clientCall (listed call List.mem_cons_self) called
      obtain ⟨abstract, more, answeredMore, standsAfter⟩ :=
        ih stands (fun other member => listed other (List.mem_cons_of_mem _ member)) continued
      exact ⟨first :: abstract, .cons abstracts more, by simp [objectRun, answered, answeredMore],
        standsAfter⟩

/-- A playlist is stored beside an original, and the output is deleted. -/
private def mixedCalls : List ClientCall :=
  [.key (.uploadBytes "uploads/a/original.mp4" (.text "film") "video/mp4" .none),
    .key (.uploadBytes "videos/a/master.m3u8" (.text "list") "" (.error true "timeout")),
    .key (.headObject "videos/a/master.m3u8" .none),
    .deletePrefix "videos/a/"
      [⟨none, .ok ⟨[some "videos/a/master.m3u8"], some false, none⟩, .answered []⟩],
    .key (.headObject "uploads/a/original.mp4" .none)]

theorem represents_empty : Represents ⟨.empty, .empty⟩ .empty where
  own bucket key found := by cases bucket <;> exact absurd rfl found
  same bucket key routed := by cases bucket <;> rfl
  stored key found := absurd rfl found

theorem client_refines_mixedCalls : ∃ after answers abstract,
    clientRun ⟨.empty, .empty⟩ mixedCalls = some (after, answers) ∧
    List.Forall₂ Abstracts mixedCalls abstract ∧ (objectRun .empty abstract).2 = answers ∧
    Represents after (objectRun .empty abstract).1 := by
  have listed : ∀ call ∈ mixedCalls, call.Listed := by
    simp [mixedCalls, ClientCall.Listed, Round.keys, Page.keys]
    decide
  have ran : (clientRun ⟨.empty, .empty⟩ mixedCalls).isSome = true := by decide
  obtain ⟨⟨after, answers⟩, ran⟩ := Option.isSome_iff_exists.mp ran
  obtain ⟨abstract, abstracts, answered, represents⟩ := client_refines represents_empty listed ran
  exact ⟨after, answers, abstract, ran, abstracts, answered, represents⟩

end Benri.Storage
