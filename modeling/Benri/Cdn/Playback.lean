import Benri.Cdn.Delivery

namespace Benri.Cdn

open Benri.Data Benri.Domain Benri.Service Benri.Storage Benri.Transcoder Benri.Transition

/-! # Playback through the CDN

A viewer polls the playlist of a tier and fetches the segments it lists.  The segments
are cached for as long as the CDN likes, which is sound because they are written once;
the playlists are not, which is why polling them gets on.
-/

/-! ## What holds of every delivery -/

structure Relayed (delivery : Delivery) : Prop where
  served : Served delivery.service
  announced : Announced delivery.service
  wellRun : EveryUpload (fun _ => WellRun) delivery.service
  attributed : ∀ key, Cacheable key → Attributed key delivery.service
  agreement : ∀ key, Cacheable key → Agreement (Closed key)
    (fun state => state.stores.objects.find? key) delivery.service (Holds delivery.proxy key)
  published : ∀ id level, Published id level delivery.service
  tracked : ∀ id level object, Holds delivery.proxy (playlistLocation id level) object →
    ∃ listed finalize, Spells id level listed finalize object ∧
      Tracked id level listed finalize delivery.service

theorem not_holds_initial (key : String) (object : Object) : ¬ Holds Proxy.initial key object := by
  intro holds
  cases holds with
  | cached entry found => simp [Proxy.cached, Proxy.initial] at found
  | fetching request => cases request
  | answered answer => cases answer

theorem Relayed.initial (now : Instant) : Relayed (.initial now) where
  served := .initial now
  announced := .initial now
  wellRun := .initial _ now
  attributed key _ := attributed_initial key now
  agreement key _ := .ofNobody (not_holds_initial key)
  published id level object found := by
    simp [Delivery.initial, State.initial, Stores.initial] at found
  tracked id level object holds := absurd holds (not_holds_initial _ object)

theorem Relayed.step {before after : Delivery} {event : DeliveryEvent} (relayed : Relayed before)
    (effect : DeliveryEffect before event after) : Relayed after := by
  have once := fun key (cacheable : Cacheable key) =>
    segments_written_once Anything cacheable
  cases effect with
  | service event service stepped =>
      have effect := step_effect stepped
      have snapshots := relayed.served.snapshots
      exact {
        served := relayed.served.step effect
        announced := relayed.announced.step relayed.served effect
        wellRun := relayed.wellRun.step wellRun_invariant effect
        attributed := fun key cacheable =>
          effect.attributed snapshots cacheable (relayed.attributed key cacheable)
        agreement := fun key cacheable => (relayed.agreement key cacheable).kept
          (once key cacheable) ⟨relayed.served, relayed.attributed key cacheable⟩ trivial stepped
        published := fun id level =>
          (relayed.published id level).step snapshots relayed.wellRun effect
        tracked := fun id level object holds => by
          obtain ⟨listed, finalize, spells, tracked⟩ := relayed.tracked id level object holds
          exact ⟨listed, finalize, spells, tracked.step relayed.served relayed.wellRun effect⟩ }
  | proxy event proxy effect =>
      exact { relayed with
        agreement := fun key cacheable => (relayed.agreement key cacheable).read
          (once key cacheable) ⟨relayed.served, relayed.attributed key cacheable⟩
          fun _ holds => effect.holds holds
        tracked := fun id level object holds => by
          rcases effect.holds holds with older | found
          · exact relayed.tracked id level object older
          · exact (relayed.published id level).tracked found }

theorem relayed_of_reaches {allowed : Delivery → DeliveryEvent → Prop} {start delivery : Delivery}
    (relayed : Relayed start) (reached : Reaches deliveryStep allowed start delivery) :
    Relayed delivery :=
  reached.preserves Relayed relayed fun before _ stepped => before.step (deliveryStep_effect stepped)

/-! ## Cached segments -/

variable {now : Instant} {delivery later : Delivery} {key : String} {object : Object}

/-- Whatever the CDN cached, let expire or evicted, all viewers of a segment were given
the same object: the one that is stored, as long as there is one. -/
theorem cached_segments_agree
    (reached : Reaches deliveryStep Anything (Delivery.initial now) delivery)
    (cacheable : Cacheable key) (answered : ⟨key, .ok object⟩ ∈ delivery.proxy.answers) :
    (∀ other, ⟨key, .ok other⟩ ∈ delivery.proxy.answers → other = object) ∧
    (∀ entry, delivery.proxy.cached key = some entry → entry.object = object) ∧
    (delivery.objects.find? key = some object ∨ delivery.objects.find? key = none) := by
  have agreement := (relayed_of_reaches (.initial now) reached).agreement key cacheable
  have mine : Holds delivery.proxy key object := .answered answered
  exact ⟨fun other told => agreement.unique _ _ (.answered told) mine,
    fun entry found => agreement.unique _ _ (.cached entry found rfl) mine,
    agreement.current object mine⟩

/-! ### A segment that is fetched, and found in the cache -/

def Response.object? : Response → Option Object
  | .ok object => some object
  | .refused _ => none

/-- What was handed out first under a key. -/
def handedOut (key : String) (answers : List Answer) : Option Object :=
  answers.findSome? fun answer => if answer.key = key then answer.response.object? else none

theorem mem_of_handedOut {answers : List Answer} (found : handedOut key answers = some object) :
    ⟨key, .ok object⟩ ∈ answers := by
  obtain ⟨⟨asked, response⟩, member, holds⟩ := List.exists_of_findSome?_eq_some found
  dsimp only at holds
  split at holds
  · rename_i same
    subst same
    cases response with
    | ok stored =>
        cases holds
        exact member
    | refused status => cases holds
  · cases holds

/-- A request that goes to the origin. -/
def fetch (key : String) : List DeliveryEvent :=
  [.proxy (.request key), .proxy (.upstream 0 .lookup), .proxy (.respond 0)]

def publishedDelivery : List DeliveryEvent :=
  (publishedVideo ⟨.ofNat 7⟩ ⟨.ofNat 8⟩ "token").map .service

theorem cached_segments_agree_firstSegment : ∃ delivery object,
    Reaches deliveryStep Anything (Delivery.initial 0) delivery ∧
    ⟨firstSegment, .ok object⟩ ∈ delivery.proxy.answers ∧
    ∀ entry, delivery.proxy.cached firstSegment = some entry → entry.object = object := by
  have passed : ((run deliveryStep Anything (Delivery.initial 0)
      (publishedDelivery ++ fetch firstSegment ++ [.proxy (.request firstSegment)])).map
        fun delivery => (handedOut firstSegment delivery.proxy.answers).isSome) = some true := by
    decide
  obtain ⟨delivery, reached, passed⟩ := reaches_of_check _ passed
  obtain ⟨object, found⟩ := Option.isSome_iff_exists.mp passed
  have answered := mem_of_handedOut found
  have agree := cached_segments_agree reached (cacheable_segment _ _ ⟨0, rfl⟩) answered
  exact ⟨delivery, object, reached, answered, agree.2.1⟩

/-! ## Polled playlists -/

variable {id : VideoId} {level : QualityLevel}

theorem isPlaylist_playlistLocation (id : VideoId) (level : QualityLevel) :
    isPlaylist (playlistLocation id level) = true :=
  isPlaylist_append _ (isPlaylist_append _ (by decide))

/-- What a viewer gets who has seen a playlist that lists these segments. -/
def GetsOn (id : VideoId) (level : QualityLevel) (listed : List String) (finalize : Bool)
    (response : Response) : Prop :=
  ∀ newer, response = .ok newer → ∃ more final, Spells id level more final newer ∧
    listed <+: more ∧ (finalize = true → more = listed ∧ final = true)

/-- The origin's answer never falls behind a playlist that was read. -/
theorem getsOn_of_tracked {listed : List String} {finalize : Bool} {state : State}
    (tracked : Tracked id level listed finalize state) {event : OriginEvent} {response : Response}
    (answered : (event.answer state.stores.objects (playlistLocation id level)).response =
      some response) : GetsOn id level listed finalize response := by
  rintro newer rfl
  cases event with
  | lookup =>
      cases found : state.stores.objects.find? (playlistLocation id level) with
      | none => simp [OriginEvent.answer, found, Upstream.response] at answered
      | some object =>
          simp only [OriginEvent.answer, found, Upstream.response, Option.some.injEq,
            Response.ok.injEq] at answered
          subst answered
          exact tracked.ahead object found
  | refuse status => cases answered
  | fail => cases answered

/-- A viewer who polls a tier's playlist, one request after the other, is given longer and
longer lists of segments, whatever happens to the video; and the closed playlist again
and again once it was given. -/
theorem polled_playlists_grow {first second : Object}
    (reached : Reaches deliveryStep Anything (Delivery.initial now) delivery)
    (answered : ⟨playlistLocation id level, .ok first⟩ ∈ delivery.proxy.answers)
    (idle : ∀ request ∈ delivery.proxy.requests, request.key ≠ playlistLocation id level)
    (continued : Reaches deliveryStep Anything delivery later)
    (polled : ⟨playlistLocation id level, .ok second⟩ ∈
      later.proxy.answers.drop delivery.proxy.answers.length) :
    ∃ older newer, first.body = .text older ∧ second.body = .text newer ∧
      uris older <+: uris newer ∧ (closed older → second = first) := by
  have relayed := relayed_of_reaches (.initial now) reached
  obtain ⟨listed, finalize, spells, tracked⟩ := relayed.tracked id level first (.answered answered)
  have all : Relayed later ∧ Tracked id level listed finalize later.service ∧
      Promises (GetsOn id level listed finalize) (playlistLocation id level)
        delivery.proxy.answers.length later.proxy := by
    refine continued.preserves (fun later => Relayed later ∧
      Tracked id level listed finalize later.service ∧
      Promises (GetsOn id level listed finalize) (playlistLocation id level)
        delivery.proxy.answers.length later.proxy) ⟨relayed, tracked, .ofIdle idle ?_⟩ ?_
    · intro entry found
      rw [Proxy.cached, if_pos (isPlaylist_playlistLocation id level)] at found
      cases found
    · rintro before after event ⟨relayed, tracked, promises⟩ _ stepped
      have effect := deliveryStep_effect stepped
      refine ⟨relayed.step effect, ?_⟩
      cases effect with
      | service event service moved =>
          exact ⟨tracked.step relayed.served relayed.wellRun (step_effect moved), promises⟩
      | proxy event proxy effect =>
          refine ⟨tracked, promises.step effect ?_⟩
          exact fun _ _ _ _ _ answer => getsOn_of_tracked tracked answer
  obtain ⟨more, final, newerSpells, grows, ended⟩ := all.2.2.answers _ polled second rfl
  obtain ⟨older, olderText, olderUris, olderClosed⟩ := spells.uris
  obtain ⟨newer, newerText, newerUris, _⟩ := newerSpells.uris
  refine ⟨older, newer, olderText, newerText, by rwa [olderUris, newerUris], fun shut => ?_⟩
  obtain rfl := olderClosed shut
  obtain ⟨rfl, rfl⟩ := ended rfl
  rw [newerSpells.shape, spells.shape]

/-! ### A playlist that grows by a segment -/

def lowPlaylist : String := playlistLocation ⟨.ofNat 7⟩ .low

def uploaderEvent (event : UploadEvent) : DeliveryEvent := .service (.execution 0 (.upload event))

/-- The uploader finishes its tick, and the next one stores another segment. -/
def nextSegment : List DeliveryEvent :=
  [uploaderEvent (.act .none true), uploaderEvent (.act .none true),
    uploaderEvent (.write .low (.segment 2) ⟨1, fun _ => 0⟩), uploaderEvent .tick,
    uploaderEvent (.act .none true), uploaderEvent (.act .none true),
    uploaderEvent (.act .none true)]

theorem polled_playlists_grow_nextSegment : ∃ (first second : Object) (older newer : String),
    first.body = .text older ∧ second.body = .text newer ∧ uris older <+: uris newer := by
  have passed : ((run deliveryStep Anything (Delivery.initial 0)
      (publishedDelivery ++ fetch lowPlaylist)).map fun delivery =>
        (handedOut lowPlaylist delivery.proxy.answers).isSome &&
        delivery.proxy.requests.isEmpty &&
        (run deliveryStep Anything delivery (nextSegment ++ fetch lowPlaylist)).any fun later =>
          (handedOut lowPlaylist
            (later.proxy.answers.drop delivery.proxy.answers.length)).isSome) = some true := by
    decide
  obtain ⟨delivery, reached, passed⟩ := reaches_of_check _ passed
  simp only [Bool.and_eq_true, Option.isSome_iff_exists, List.isEmpty_iff, Option.any_eq_true]
    at passed
  obtain ⟨⟨⟨first, found⟩, idle⟩, later, continued, second, polled⟩ := passed
  have nobody : ∀ request ∈ delivery.proxy.requests, request.key ≠ lowPlaylist := by simp [idle]
  obtain ⟨older, newer, olderText, newerText, grows, _⟩ := polled_playlists_grow reached
    (mem_of_handedOut found) nobody (reaches_of_run _ continued) (mem_of_handedOut polled)
  exact ⟨first, second, older, newer, olderText, newerText, grows⟩

/-! ## Listed segments -/

/-- Until somebody sets about deleting the video, what a playlist lists is stored. -/
theorem Relayed.listed_stored (relayed : Relayed delivery) {listed : List String} {finalize : Bool}
    (made : SomeUpload (Backs id level listed finalize) delivery.service)
    (undeleted : Undeleted id delivery.service) {filename : String} (member : filename ∈ listed) :
    delivery.objects.find? ((OutputPath.tier level filename).key (storagePrefix id)) ≠ none := by
  obtain ⟨execution, inside, upload, uploading, rfl, grows, _⟩ := made
  have home := ((relayed.served.snapshots.executions execution inside).uploading upload uploading).2
  have sound := relayed.announced.sound execution inside undeleted upload uploading
  have stored := sound.stored.segments level filename (grows.subset member)
  rw [Upload.key, home] at stored
  exact Option.isSome_iff_ne_none.mp stored

theorem undeleted_of_reaches {allowed : Delivery → DeliveryEvent → Prop}
    (reached : Reaches deliveryStep allowed delivery later)
    (undeleted : Undeleted id later.service) :
    Undeleted id delivery.service := by
  induction reached with
  | refl => exact undeleted
  | tail _ _ stepped ih =>
      cases deliveryStep_effect stepped with
      | service event service moved => exact ih ((step_effect moved).undeleted undeleted)
      | proxy event proxy effect => exact ih undeleted

/-- The origin answers requests for the key with what it has. -/
def Answering (key : String) (delivery : Delivery) : DeliveryEvent → Prop
  | .proxy (.upstream index event) =>
      (delivery.proxy.requests[index]?.any fun request => decide (request.key = key)) = true →
        event = .lookup
  | .proxy (.request _) | .proxy (.respond _) | .proxy (.evict _) | .service _ => True

instance (key : String) (delivery : Delivery) (event : DeliveryEvent) :
    Decidable (Answering key delivery event) := by
  unfold Answering
  split <;> infer_instance

/-- A viewer who was given a playlist gets every segment it lists, until somebody sets about
deleting the video: requests made after that are answered with the segment, from the
cache or not, as long as the origin answers. -/
theorem listed_segments_served {playlist : Object} {text uri : String}
    (reached : Reaches deliveryStep Anything (Delivery.initial now) delivery)
    (answered : ⟨playlistLocation id level, .ok playlist⟩ ∈ delivery.proxy.answers)
    (body : playlist.body = .text text) (listed : uri ∈ uris text)
    (idle : ∀ request ∈ delivery.proxy.requests,
      request.key ≠ resolve (playlistLocation id level) uri)
    (continued : Reaches deliveryStep (Answering (resolve (playlistLocation id level) uri))
      delivery later)
    (undeleted : ∀ deletion ∈ later.service.deletions, deletion.id ≠ id) :
    ∃ segment, later.objects.find? (resolve (playlistLocation id level) uri) = some segment ∧
      ∀ response, ⟨resolve (playlistLocation id level) uri, response⟩ ∈
        later.proxy.answers.drop delivery.proxy.answers.length → response = .ok segment := by
  have relayed := relayed_of_reaches (.initial now) reached
  obtain ⟨names, finalize, spells, tracked⟩ :=
    relayed.tracked id level playlist (.answered answered)
  have member : uri ∈ names := by
    obtain ⟨same, shape, inside, _⟩ := spells.uris
    cases body.symm.trans shape
    rwa [inside] at listed
  have cacheable : Cacheable (resolve (playlistLocation id level) uri) := by
    rw [playlistLocation, resolve_segment]
    exact cacheable_segment id level (spells.segments uri member)
  have stored : ∀ {delivery : Delivery}, Relayed delivery →
      SomeUpload (Backs id level names finalize) delivery.service →
      Undeleted id delivery.service →
      delivery.objects.find? (resolve (playlistLocation id level) uri) ≠ none := by
    intro delivery relayed made undeleted
    rw [playlistLocation, resolve_segment]
    exact relayed.listed_stored made undeleted member
  generalize resolve (playlistLocation id level) uri = key at *
  obtain ⟨segment, found⟩ := Option.ne_none_iff_exists'.mp
    (stored relayed tracked.made (undeleted_of_reaches continued undeleted))
  have all : (Relayed later ∧ SomeUpload (Backs id level names finalize) later.service) ∧
      (Undeleted id later.service → later.objects.find? key = some segment ∧
        Promises (fun response => response = .ok segment) key delivery.proxy.answers.length
          later.proxy) := by
    refine continued.preserves (fun later =>
      (Relayed later ∧ SomeUpload (Backs id level names finalize) later.service) ∧
      (Undeleted id later.service → later.objects.find? key = some segment ∧
        Promises (fun response => response = .ok segment) key delivery.proxy.answers.length
          later.proxy)) ⟨⟨relayed, tracked.made⟩, fun _ => ⟨found, .ofIdle idle ?_⟩⟩ ?_
    · intro entry cached
      rcases (relayed.agreement key cacheable).current _ (.cached entry cached rfl) with same | gone
      · exact congrArg _ (Option.some.inj (same.symm.trans found))
      · exact absurd (gone.symm.trans found) (by simp)
    · rintro before after event ⟨⟨relayed, made⟩, promised⟩ permitted stepped
      have effect := deliveryStep_effect stepped
      have next := relayed.step effect
      cases effect with
      | service event service moved =>
          have effect := step_effect moved
          have made := made.step backs_fact relayed.served.snapshots effect
          refine ⟨⟨next, made⟩, fun undeleted => ?_⟩
          obtain ⟨found, promises⟩ := promised (effect.undeleted undeleted)
          have shut := relayed.attributed key cacheable segment found
          rcases effect.fades relayed.served cacheable.2 shut with same | gone
          · exact ⟨same.trans found, promises⟩
          · exact absurd gone (stored next made undeleted)
      | proxy event proxy effect =>
          refine ⟨⟨next, made⟩, fun undeleted => ?_⟩
          obtain ⟨found, promises⟩ := promised undeleted
          refine ⟨found, promises.step effect ?_⟩
          rintro index originEvent response rfl slot answer
          obtain rfl := permitted (by rw [slot]; exact decide_eq_true rfl)
          rw [OriginEvent.answer, found] at answer
          exact (Option.some.inj answer).symm
  exact ⟨segment, (all.2 undeleted).1, (all.2 undeleted).2.answers⟩

/-- Whether a playlist lists a segment. -/
def lists (uri : String) (playlist : Object) : Bool :=
  match playlist.body with
  | .text text => decide (uri ∈ uris text)
  | .bytes _ => false

theorem lists_eq_true {uri : String} {playlist : Object} (listed : lists uri playlist = true) :
    ∃ text, playlist.body = .text text ∧ uri ∈ uris text := by
  unfold lists at listed
  split at listed
  · rename_i text body
    exact ⟨text, body, of_decide_eq_true listed⟩
  · cases listed

theorem listed_segments_served_firstSegment : ∃ later segment,
    Reaches deliveryStep Anything (Delivery.initial 0) later ∧
    ⟨resolve lowPlaylist "segment_00000.ts", .ok segment⟩ ∈ later.proxy.answers := by
  have passed : ((run deliveryStep Anything (Delivery.initial 0)
      (publishedDelivery ++ fetch lowPlaylist)).map fun delivery =>
        (handedOut lowPlaylist delivery.proxy.answers).any (lists "segment_00000.ts") &&
        delivery.proxy.requests.isEmpty &&
        (run deliveryStep (Answering (resolve lowPlaylist "segment_00000.ts")) delivery
          (fetch (resolve lowPlaylist "segment_00000.ts"))).any fun later =>
            later.service.deletions.isEmpty &&
            (later.proxy.answers.drop delivery.proxy.answers.length).any fun answer =>
              decide (answer.key = resolve lowPlaylist "segment_00000.ts")) = some true := by
    decide +kernel
  obtain ⟨delivery, reached, passed⟩ := reaches_of_check _ passed
  simp only [Bool.and_eq_true, List.isEmpty_iff, Option.any_eq_true, List.any_eq_true,
    decide_eq_true_eq] at passed
  obtain ⟨⟨⟨playlist, found, holds⟩, idle⟩, later, continued, undeleted, ⟨asked, response⟩, answered,
    named⟩ := passed
  obtain ⟨text, body, listed⟩ := lists_eq_true holds
  have nobody : ∀ request ∈ delivery.proxy.requests,
      request.key ≠ resolve lowPlaylist "segment_00000.ts" := by simp [idle]
  have run := reaches_of_run _ continued
  obtain ⟨segment, _, served⟩ := listed_segments_served reached (mem_of_handedOut found) body listed
    nobody run (by simp [undeleted])
  subst named
  have given := served response answered
  subst given
  exact ⟨later, segment, reached.trans (run.mono fun _ _ _ => trivial),
    List.mem_of_mem_drop answered⟩

end Benri.Cdn
