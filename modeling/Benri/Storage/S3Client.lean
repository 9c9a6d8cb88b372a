import Benri.Storage.Objects

namespace Benri.Storage

open Benri.Data

/-! # `S3StorageClient::delete_prefix`

The loop against a transcript of the service's answers, one round for each page:
the listing that answers a continuation token, and what became of the batch that
deletes its keys.
-/

inductive Bucket where
  | upload
  | output
deriving DecidableEq, Repr

structure Buckets where
  upload : Objects
  output : Objects

def Buckets.get (buckets : Buckets) : Bucket → Objects
  | .upload => buckets.upload
  | .output => buckets.output

def Buckets.set (buckets : Buckets) (objects : Objects) : Bucket → Buckets
  | .upload => { buckets with upload := objects }
  | .output => { buckets with output := objects }

@[simp] theorem Buckets.get_set (buckets : Buckets) (objects : Objects) (bucket : Bucket) :
    (buckets.set objects bucket).get bucket = objects := by
  cases bucket <;> rfl

theorem Buckets.get_set_of_ne (buckets : Buckets) (objects : Objects) {bucket other : Bucket}
    (different : other ≠ bucket) : (buckets.set objects bucket).get other = buckets.get other := by
  cases bucket <;> cases other
  · exact absurd rfl different
  · rfl
  · rfl
  · exact absurd rfl different

def UPLOAD_PREFIX : String := "uploads/"
def OUTPUT_PREFIX : String := "videos/"

/-- `none` is the panic on a key without a recognized prefix. -/
def bucketFor (key : String) : Option Bucket :=
  if under UPLOAD_PREFIX key then some .upload
  else if under OUTPUT_PREFIX key then some .output
  else none

/-- The fields of `ListObjectsV2Output` that are read. -/
structure Page where
  contents : List (Option String)
  isTruncated : Option Bool
  nextContinuationToken : Option String

def Page.keys (page : Page) : List String := page.contents.filterMap id

/-- How a `DeleteObjects` request ends.  A success lists the keys that were not
deleted; of a failed request any part may have been carried out. -/
inductive DeleteAnswer where
  | failed (deleted : List String) (message : String)
  | answered (errors : List String)

structure Round where
  token : Option String
  listed : Except String Page
  deleted : DeleteAnswer

/-- The requested keys that are gone after the request. -/
def DeleteAnswer.removes (requested : List String) : DeleteAnswer → List String
  | .failed deleted _ => requested.filter deleted.contains
  | .answered errors => requested.filter fun key => !errors.contains key

def removeKeys (objects : Objects) (keys : List String) : Objects :=
  objects.delete fun object => keys.contains object.key

/-- A page without keys sends no request. -/
def deletePage (objects : Objects) (page : Page) (answer : DeleteAnswer) :
    Objects × Except String Unit :=
  if page.keys.isEmpty then (objects, .ok ())
  else (removeKeys objects (answer.removes page.keys),
    match answer with
    | .failed _ message => .error (storageError message)
    | .answered _ => .ok ())

/-- A transcript ends where the call does. -/
def ended (rest : List Round) (answer : Objects × Except String Unit) :
    Option (Objects × Except String Unit) :=
  if rest.isEmpty then some answer else none

def deleteLoop (objects : Objects) (token : Option String) :
    List Round → Option (Objects × Except String Unit)
  | [] => none
  | round :: rest =>
      if round.token = token then
        match round.listed with
        | .error message => ended rest (objects, .error (storageError message))
        | .ok page =>
            match deletePage objects page round.deleted with
            | (reached, .error error) => ended rest (reached, .error error)
            | (reached, .ok ()) =>
                if page.isTruncated = some true then
                  deleteLoop reached page.nextContinuationToken rest
                else ended rest (reached, .ok ())
      else none

def s3DeletePrefix (buckets : Buckets) (start : String) (rounds : List Round) :
    Option (Buckets × Except String Unit) :=
  (bucketFor start).bind fun bucket =>
    (deleteLoop (buckets.get bucket) none rounds).map fun answer =>
      (buckets.set answer.1 bucket, answer.2)

/-! ## What a round does -/

def Round.keys (round : Round) : List String :=
  match round.listed with
  | .error _ => []
  | .ok page => page.keys

def Round.removed (round : Round) : List String := round.deleted.removes round.keys

/-- A request of the round did not succeed. -/
def Round.fails (round : Round) : Bool :=
  match round.listed, round.deleted with
  | .error _, _ => true
  | .ok page, .failed _ _ => !page.keys.isEmpty
  | .ok _, .answered _ => false

/-- A success answer that lists the key among those not deleted. -/
def Round.reports (round : Round) (key : String) : Bool :=
  match round.deleted with
  | .answered errors => errors.contains key
  | .failed _ _ => false

@[simp] theorem find?_removeKeys (objects : Objects) (keys : List String) (wanted : String) :
    (removeKeys objects keys).find? wanted =
      if wanted ∈ keys then none else objects.find? wanted := by
  apply (Table.find?_delete_key objects (fun other => keys.contains other) wanted).trans
  simp

theorem removeKeys_append (objects : Objects) (first second : List String) :
    removeKeys (removeKeys objects first) second = removeKeys objects (first ++ second) := by
  simp only [removeKeys, Table.delete, List.filter_filter, Table.mk.injEq]
  exact List.filter_congr fun object _ => by simp [Bool.and_comm]

theorem removeKeys_nil (objects : Objects) : removeKeys objects [] = objects := by
  simp [removeKeys, Table.delete]

theorem DeleteAnswer.removes_subset {answer : DeleteAnswer} {requested : List String} {key : String}
    (removed : key ∈ answer.removes requested) : key ∈ requested := by
  cases answer <;> exact List.mem_of_mem_filter removed

theorem Round.removed_of_listed {round : Round} {page : Page} (listed : round.listed = .ok page) :
    round.removed = round.deleted.removes page.keys := by
  simp [removed, keys, listed]

theorem Round.removed_of_unlisted {round : Round} {message : String}
    (unlisted : round.listed = .error message) : round.removed = [] := by
  cases deleted : round.deleted <;> simp [removed, keys, unlisted, DeleteAnswer.removes, deleted]

theorem deletePage_eq {round : Round} {page : Page} (listed : round.listed = .ok page)
    (objects : Objects) :
    (deletePage objects page round.deleted).1 = removeKeys objects round.removed ∧
      ((deletePage objects page round.deleted).2 = .ok () ↔ round.fails = false) := by
  rw [Round.removed_of_listed listed]
  unfold deletePage Round.fails
  cases vacant : page.keys.isEmpty with
  | true =>
      have none : page.keys = [] := List.isEmpty_iff.mp vacant
      cases deleted : round.deleted <;>
        simp [listed, none, DeleteAnswer.removes, removeKeys_nil]
  | false => cases deleted : round.deleted <;> simp [listed, vacant]

/-! ## What the loop does -/

theorem ended_eq_some {rest : List Round} {answer reached : Objects × Except String Unit}
    (closed : ended rest answer = some reached) : rest = [] ∧ reached = answer := by
  unfold ended at closed
  split at closed
  · rename_i vacant
    exact ⟨List.isEmpty_iff.mp vacant, (Option.some.inj closed).symm⟩
  · contradiction

/-- How a round of a finished call goes on: the call ends with it, or the next
round answers the token of its page. -/
theorem deleteLoop_cases {objects after : Objects} {token : Option String} {round : Round}
    {rest : List Round} {result : Except String Unit}
    (ran : deleteLoop objects token (round :: rest) = some (after, result)) :
    round.token = token ∧
      ((rest = [] ∧ after = removeKeys objects round.removed ∧
          (result = .ok () ↔ round.fails = false) ∧
          ∀ page, round.listed = .ok page → result = .ok () → page.isTruncated ≠ some true) ∨
        ∃ page, round.listed = .ok page ∧ page.isTruncated = some true ∧ round.fails = false ∧
          deleteLoop (removeKeys objects round.removed) page.nextContinuationToken rest =
            some (after, result)) := by
  simp only [deleteLoop] at ran
  split at ran
  · rename_i asked
    refine ⟨asked, ?_⟩
    cases listed : round.listed with
    | error message =>
        simp only [listed] at ran
        obtain ⟨rfl, same⟩ := ended_eq_some ran
        cases same
        refine .inl ⟨rfl, ?_, ?_, fun page present => by cases present⟩
        · rw [Round.removed_of_unlisted listed, removeKeys_nil]
        · simp [Round.fails, listed]
    | ok page =>
        simp only [listed] at ran
        obtain ⟨reached, status⟩ := deletePage_eq listed objects
        cases page' : deletePage objects page round.deleted with
        | mk next answer =>
            rw [page'] at ran reached status
            simp only at reached status
            subst reached
            cases answer with
            | error error =>
                obtain ⟨rfl, same⟩ := ended_eq_some ran
                cases same
                exact .inl ⟨rfl, rfl, by simpa using status, fun _ _ bad => by cases bad⟩
            | ok _ =>
                simp only [true_iff] at status
                dsimp only at ran
                split at ran
                · rename_i truncated
                  exact .inr ⟨page, rfl, truncated, status, ran⟩
                · rename_i complete
                  obtain ⟨rfl, same⟩ := ended_eq_some ran
                  cases same
                  refine .inl ⟨rfl, rfl, by simp [status], fun other present _ => ?_⟩
                  cases present
                  exact complete
  · contradiction

/-- The loop removes what its rounds remove, and succeeds when all of them do. -/
theorem deleteLoop_result {rounds : List Round} {objects after : Objects} {token : Option String}
    {result : Except String Unit} (ran : deleteLoop objects token rounds = some (after, result)) :
    after = removeKeys objects (rounds.flatMap Round.removed) ∧
      (result = .ok () ↔ ∀ round ∈ rounds, round.fails = false) := by
  induction rounds generalizing objects token with
  | nil => cases ran
  | cons round rest ih =>
      rcases (deleteLoop_cases ran).2 with ⟨rfl, rfl, status, _⟩ | ⟨page, _, _, succeeded, others⟩
      · simp [status]
      · obtain ⟨rfl, status⟩ := ih others
        refine ⟨?_, ?_⟩
        · rw [removeKeys_append, List.flatMap_cons]
        · simp [status, succeeded]

theorem s3DeletePrefix_result {before after : Buckets} {start : String} {bucket : Bucket}
    {rounds : List Round} {result : Except String Unit} (routed : bucketFor start = some bucket)
    (ran : s3DeletePrefix before start rounds = some (after, result)) :
    after = before.set (removeKeys (before.get bucket) (rounds.flatMap Round.removed)) bucket ∧
      (result = .ok () ↔ ∀ round ∈ rounds, round.fails = false) := by
  rw [s3DeletePrefix, routed, Option.bind_some] at ran
  obtain ⟨⟨objects, answered⟩, looped, same⟩ := Option.map_eq_some_iff.mp ran
  cases same
  obtain ⟨rfl, status⟩ := deleteLoop_result looped
  exact ⟨rfl, status⟩

theorem mem_removed {rounds : List Round} {key : String}
    (removed : key ∈ rounds.flatMap Round.removed) : ∃ round ∈ rounds, key ∈ round.keys := by
  obtain ⟨round, member, gone⟩ := List.mem_flatMap.mp removed
  exact ⟨round, member, DeleteAnswer.removes_subset gone⟩

theorem Round.mem_removed_of_succeeds {round : Round} (succeeds : round.fails = false)
    {key : String} :
    key ∈ round.removed ↔ key ∈ round.keys ∧ round.reports key = false := by
  cases deleted : round.deleted with
  | answered errors => simp [removed, reports, deleted, DeleteAnswer.removes]
  | failed gone message =>
      cases listed : round.listed with
      | error message => simp [fails, listed] at succeeds
      | ok page =>
          have vacant : page.keys = [] := by simpa [fails, listed, deleted] using succeeds
          simp [removed, keys, listed, vacant, deleted, DeleteAnswer.removes]

/-! ## What the listing promises

A continuation token stands for the keys that came before it.  A page lists what
lies between its token and the next one; the last page lists the rest of what is
stored when it is written, which is less than at the start, since the loop
deletes while it lists.
-/

/-- The keys behind an optional token. -/
def behind (passed : String → String → Prop) (token : Option String) (key : String) : Prop :=
  ∃ reached, token = some reached ∧ passed reached key

def PageListsAll (passed : String → String → Prop) (start : String) (objects : Objects)
    (round : Round) (page : Page) : Prop :=
  if page.isTruncated = some true then
    ∀ key, behind passed page.nextContinuationToken key →
      behind passed round.token key ∨ key ∈ page.keys
  else
    ∀ key, under start key = true → objects.find? key ≠ none →
      behind passed round.token key ∨ key ∈ page.keys

def ListingComplete (passed : String → String → Prop) (start : String) :
    Objects → List Round → Prop
  | _, [] => True
  | objects, round :: rest =>
      (∀ page, round.listed = .ok page → PageListsAll passed start objects round page) ∧
        ListingComplete passed start (removeKeys objects round.removed) rest

theorem listed_of_complete {passed : String → String → Prop} {start : String}
    {rounds : List Round} {objects after : Objects} {token : Option String}
    (ran : deleteLoop objects token rounds = some (after, .ok ()))
    (complete : ListingComplete passed start objects rounds) {key : String}
    (covered : under start key = true) (stored : objects.find? key ≠ none) :
    behind passed token key ∨ ∃ round ∈ rounds, key ∈ round.keys := by
  induction rounds generalizing objects token with
  | nil => cases ran
  | cons round rest ih =>
      obtain ⟨asked, shape⟩ := deleteLoop_cases ran
      have here : key ∈ round.keys →
          behind passed token key ∨ ∃ other ∈ round :: rest, key ∈ other.keys :=
        fun listed => .inr ⟨round, List.mem_cons_self, listed⟩
      rcases shape with ⟨rfl, _, status, final⟩ | ⟨page, listed, truncated, _, others⟩
      · cases listed : round.listed with
        | error message => simp [Round.fails, listed] at status
        | ok page =>
            have lists := complete.1 page listed
            rw [PageListsAll, if_neg (final page listed rfl), asked] at lists
            refine (lists key covered stored).imp_right fun inside => ?_
            exact ⟨round, List.mem_cons_self, by simpa [Round.keys, listed] using inside⟩
      · by_cases gone : key ∈ round.removed
        · exact here (DeleteAnswer.removes_subset gone)
        · have still : (removeKeys objects round.removed).find? key ≠ none := by
            rwa [find?_removeKeys, if_neg gone]
          rcases ih others complete.2 still with passedBy | ⟨other, member, inside⟩
          · have lists := complete.1 page listed
            rw [PageListsAll, if_pos truncated, asked] at lists
            rcases lists key passedBy with earlier | inside
            · exact .inl earlier
            · exact here (by simpa [Round.keys, listed] using inside)
          · exact .inr ⟨other, List.mem_cons_of_mem _ member, inside⟩

/-! ## What the call means -/

/-- The outputs of a video, listed on two pages. -/
private def twoOutputs : Buckets where
  upload := .empty
  output := ⟨[⟨"videos/a/master.m3u8", "", .text ""⟩, ⟨"videos/a/low/playlist.m3u8", "", .text ""⟩],
    by decide⟩

private def twoPages : List Round :=
  [⟨none, .ok ⟨[some "videos/a/low/playlist.m3u8"], some true, some "t"⟩, .answered []⟩,
    ⟨some "t", .ok ⟨[some "videos/a/master.m3u8"], some false, none⟩, .answered []⟩]

section Call

variable {before after : Buckets} {start : String} {bucket : Bucket} {rounds : List Round}
  {result : Except String Unit}

/-- A service that keeps its promise has listed every key there was. -/
theorem s3DeletePrefix_lists (routed : bucketFor start = some bucket)
    (ran : s3DeletePrefix before start rounds = some (after, .ok ()))
    {passed : String → String → Prop}
    (complete : ListingComplete passed start (before.get bucket) rounds) {key : String}
    (covered : under start key = true) (stored : (before.get bucket).find? key ≠ none) :
    ∃ round ∈ rounds, key ∈ round.keys := by
  rw [s3DeletePrefix, routed, Option.bind_some] at ran
  obtain ⟨⟨objects, answered⟩, looped, same⟩ := Option.map_eq_some_iff.mp ran
  cases same
  rcases listed_of_complete looped complete covered stored with ⟨_, none, _⟩ | listed
  · cases none
  · exact listed

/-- On the bucket it is routed to, the call is a prefix deletion that keeps some
of the keys, and none that its rounds remove. -/
theorem s3DeletePrefix_deletePrefix (routed : bucketFor start = some bucket)
    (ran : s3DeletePrefix before start rounds = some (after, result))
    (prefixed : ∀ round ∈ rounds, ∀ key ∈ round.keys, under start key = true) :
    ∃ kept, (∀ key ∈ kept, key ∉ rounds.flatMap Round.removed) ∧
      after.get bucket = deletePrefix (before.get bucket) start kept := by
  obtain ⟨rfl, _⟩ := s3DeletePrefix_result routed ran
  rw [Buckets.get_set]
  let removed := rounds.flatMap Round.removed
  refine ⟨((before.get bucket).rows.map Object.key).filter fun key => !removed.contains key,
    fun key kept gone => ?_, ?_⟩
  · rw [List.mem_filter, List.contains_iff_mem.mpr gone] at kept
    exact absurd kept.2 (by decide)
  simp only [removeKeys, deletePrefix, Table.delete, Table.mk.injEq]
  refine List.filter_congr fun object member => ?_
  by_cases gone : object.key ∈ removed
  · obtain ⟨round, inside, listed⟩ := mem_removed gone
    have covered := prefixed round inside _ listed
    have dropped : object.key ∉
        ((before.get bucket).rows.map Object.key).filter fun key => !removed.contains key := by
      rw [List.mem_filter]
      simp [gone]
    rw [List.contains_iff_mem.mpr gone, covered, Bool.true_and,
      Bool.eq_false_iff.mpr fun kept => dropped (List.contains_iff_mem.mp kept)]
    rfl
  · have kept : object.key ∈
        ((before.get bucket).rows.map Object.key).filter fun key => !removed.contains key := by
      rw [List.mem_filter]
      exact ⟨List.mem_map_of_mem member, by simp [gone]⟩
    rw [List.contains_iff_mem.mpr kept, Bool.not_true, Bool.and_false,
      Bool.eq_false_iff.mpr fun listed => gone (List.contains_iff_mem.mp listed)]

/-- A successful call leaves nothing behind exactly when each stored key is in a
batch whose answer does not report it: the reports are not read.  Nothing outside
the prefix or in the other bucket is touched. -/
theorem s3DeletePrefix_complete_iff (before after : Buckets) (start : String) (bucket : Bucket)
    (rounds : List Round) (result : Except String Unit) (routed : bucketFor start = some bucket)
    (ran : s3DeletePrefix before start rounds = some (after, result))
    (prefixed : ∀ round ∈ rounds, ∀ key ∈ round.keys, under start key = true) :
    ((result = .ok () → ∀ key, under start key = true → (after.get bucket).find? key = none) ↔
      (∃ round ∈ rounds, round.fails = true) ∨
        ∀ key, under start key = true → (before.get bucket).find? key ≠ none →
          ∃ round ∈ rounds, key ∈ round.keys ∧ round.reports key = false) ∧
    (∀ key, under start key = false →
      (after.get bucket).find? key = (before.get bucket).find? key) ∧
    ∀ other, other ≠ bucket → after.get other = before.get other := by
  obtain ⟨rfl, status⟩ := s3DeletePrefix_result routed ran
  simp only [Buckets.get_set, find?_removeKeys]
  refine ⟨⟨fun empties => ?_, fun safe succeeded key covered => ?_⟩, fun key outside => ?_,
    fun other different => Buckets.get_set_of_ne _ _ different⟩
  · by_cases failed : ∃ round ∈ rounds, round.fails = true
    · exact .inl failed
    · have succeeds : ∀ round ∈ rounds, round.fails = false := fun round member =>
        Bool.eq_false_iff.mpr fun bad => failed ⟨round, member, bad⟩
      refine .inr fun key covered stored => ?_
      have gone : key ∈ rounds.flatMap Round.removed := by
        by_contra remains
        have empty := empties (status.mpr succeeds) key covered
        rw [if_neg remains] at empty
        exact stored empty
      obtain ⟨round, member, removed⟩ := List.mem_flatMap.mp gone
      exact ⟨round, member, (Round.mem_removed_of_succeeds (succeeds round member)).mp removed⟩
  · have succeeds := status.mp succeeded
    rcases safe with ⟨round, member, failed⟩ | unreported
    · rw [succeeds round member] at failed
      cases failed
    · by_cases stored : (before.get bucket).find? key = none
      · rw [stored, ite_self]
      · refine if_pos ?_
        obtain ⟨round, member, removed⟩ := unreported key covered stored
        exact List.mem_flatMap.mpr ⟨round, member,
          (Round.mem_removed_of_succeeds (succeeds round member)).mpr removed⟩
  · refine if_neg fun removed => ?_
    obtain ⟨round, member, listed⟩ := mem_removed removed
    rw [prefixed round member key listed] at outside
    cases outside

theorem s3DeletePrefix_complete_iff_twoPages :
    (s3DeletePrefix twoOutputs "videos/a/" twoPages).map (fun answer =>
      (answer.1.get .output).find? "videos/a/master.m3u8") = some none := by
  obtain ⟨complete, _⟩ := s3DeletePrefix_complete_iff twoOutputs _ "videos/a/" .output twoPages _
    (by decide) rfl (by decide)
  refine congrArg some (complete.mpr (.inr fun stored _ present => ?_) rfl _ (by decide))
  obtain ⟨object, found⟩ := Option.ne_none_iff_exists'.mp present
  have member := Table.mem_of_find? found
  obtain rfl := Table.key_of_find? found
  simp only [twoOutputs, Buckets.get, List.mem_cons, List.not_mem_nil, or_false] at member
  rcases member with rfl | rfl
  · exact ⟨_, List.mem_cons_of_mem _ List.mem_cons_self, by decide, by decide⟩
  · exact ⟨_, List.mem_cons_self, by decide, by decide⟩

/-- A success that reports a key leaves its object behind. -/
theorem s3DeletePrefix_ignores_reports :
    ∃ after, s3DeletePrefix twoOutputs "videos/a/"
        [⟨none, .ok ⟨[some "videos/a/low/playlist.m3u8", some "videos/a/master.m3u8"],
          some false, none⟩, .answered ["videos/a/master.m3u8"]⟩] = some (after, .ok ()) ∧
      under "videos/a/" "videos/a/master.m3u8" = true ∧
      (after.get .output).find? "videos/a/master.m3u8" ≠ none := by
  refine ⟨_, rfl, by decide, ?_⟩
  exact Option.ne_none_iff_exists'.mpr ⟨⟨"videos/a/master.m3u8", "", .text ""⟩, rfl⟩

/-- Were no key reported, a call that succeeds on a service with complete listings
would leave nothing behind. -/
theorem s3DeletePrefix_complete_of_unreported (routed : bucketFor start = some bucket)
    (ran : s3DeletePrefix before start rounds = some (after, .ok ()))
    {passed : String → String → Prop}
    (complete : ListingComplete passed start (before.get bucket) rounds)
    (unreported : ∀ round ∈ rounds, ∀ key, round.reports key = false) {key : String}
    (covered : under start key = true) : (after.get bucket).find? key = none := by
  obtain ⟨rfl, status⟩ := s3DeletePrefix_result routed ran
  rw [Buckets.get_set, find?_removeKeys]
  by_cases stored : (before.get bucket).find? key = none
  · rw [stored, ite_self]
  · obtain ⟨round, member, listed⟩ := s3DeletePrefix_lists routed ran complete covered stored
    refine if_pos (List.mem_flatMap.mpr ⟨round, member, ?_⟩)
    exact (Round.mem_removed_of_succeeds (status.mp rfl round member)).mpr
      ⟨listed, unreported round member key⟩

end Call

end Benri.Storage
