import Benri.Cdn.Nginx
import Benri.Service.EarlyPublish
import Benri.Service.Playlists

namespace Benri.Cdn

open Benri.Data Benri.Domain Benri.Service Benri.Storage Benri.Transcoder Benri.Transition

/-! # The service behind the CDN

Between the moment the CDN asks the storage for a key and the moment a viewer has the
answer, or finds it in the cache, transcodes and deletions go on.
-/

structure Delivery where
  service : State
  proxy : Proxy

def Delivery.initial (now : Instant) : Delivery := ⟨State.initial now, Proxy.initial⟩

inductive DeliveryEvent where
  | service (event : Event)
  | proxy (event : ProxyEvent)

def Delivery.objects (delivery : Delivery) : Objects := delivery.service.stores.objects

def deliveryStep (delivery : Delivery) : DeliveryEvent → Option Delivery
  | .service event => (step delivery.service event).map fun service => { delivery with service }
  | .proxy event =>
      (proxyStep delivery.objects delivery.service.stores.now delivery.proxy event).map
        fun proxy => { delivery with proxy }

inductive DeliveryEffect (before : Delivery) : DeliveryEvent → Delivery → Prop where
  | service (event : Event) (service : State) (stepped : step before.service event = some service) :
      DeliveryEffect before (.service event) { before with service }
  | proxy (event : ProxyEvent) (proxy : Proxy)
      (effect : ProxyEffect before.objects before.proxy event proxy) :
      DeliveryEffect before (.proxy event) { before with proxy }

theorem deliveryStep_effect {before after : Delivery} {event : DeliveryEvent}
    (stepped : deliveryStep before event = some after) : DeliveryEffect before event after := by
  cases event with
  | service event =>
      obtain ⟨service, moved, rfl⟩ := Option.map_eq_some_iff.mp stepped
      exact .service event service moved
  | proxy event =>
      obtain ⟨proxy, moved, rfl⟩ := Option.map_eq_some_iff.mp stepped
      exact .proxy event proxy (proxyStep_effect moved)

variable {objects : Objects} {proxy next : Proxy} {proxyEvent : ProxyEvent} {key : String}
  {object : Object}

/-! ## What the proxy holds -/

/-- The object is in the cache, on its way, or was handed out. -/
inductive Holds (proxy : Proxy) (key : String) (object : Object) : Prop where
  | cached (entry : CacheEntry) (found : proxy.cached key = some entry)
      (same : entry.object = object)
  | fetching (request : ⟨key, .ok object⟩ ∈ proxy.requests)
  | answered (answer : ⟨key, .ok object⟩ ∈ proxy.answers)

theorem cached_evicted {cache : ProxyCache} {evicted : String} {entry : CacheEntry}
    {requests : List Request} {answers : List Answer}
    (found : Proxy.cached ⟨cache.delete fun entry => decide (entry.key = evicted), requests,
      answers⟩ key = some entry) :
    Proxy.cached ⟨cache, requests, answers⟩ key = some entry := by
  unfold Proxy.cached at found ⊢
  split at found
  · cases found
  · rename_i other
    rw [if_neg other]
    rw [Table.find?_delete] at found
    exact (Option.filter_eq_some_iff.mp found).1

theorem cached_fetched {cache : ProxyCache} {requests : List Request} {answers : List Answer}
    {entry fetched : CacheEntry}
    (found : Proxy.cached ⟨cache.put fetched, requests, answers⟩ key = some entry) :
    entry = fetched ∧ fetched.key = key ∨
      Proxy.cached ⟨cache, requests, answers⟩ key = some entry := by
  unfold Proxy.cached at found ⊢
  split at found
  · cases found
  · rename_i other
    rw [if_neg other]
    rw [Table.find?_put] at found
    split at found
    · rename_i same
      exact .inl ⟨(Option.some.inj found).symm, same⟩
    · exact .inr found

/-- The proxy makes nothing up. -/
theorem ProxyEffect.holds (effect : ProxyEffect objects proxy proxyEvent next)
    (holds : Holds next key object) : Holds proxy key object ∨ objects.find? key = some object := by
  have requested : ∀ {index : Nat} {request : Request}, proxy.requests[index]? = some request →
      request = ⟨key, .ok object⟩ → Holds proxy key object := by
    rintro index request slot rfl
    exact .fetching (List.mem_of_getElem? slot)
  cases effect with
  | passed asked =>
      cases holds with
      | cached entry found same => exact .inl (.cached entry found same)
      | fetching request =>
          rcases List.mem_append.mp request with older | new
          · exact .inl (.fetching older)
          · cases List.mem_singleton.mp new
      | answered answer => exact .inl (.answered answer)
  | hit asked entry cached =>
      cases holds with
      | cached entry found same => exact .inl (.cached entry found same)
      | fetching request => exact .inl (.fetching request)
      | answered answer =>
          rcases List.mem_append.mp answer with older | new
          · exact .inl (.answered older)
          · cases List.mem_singleton.mp new
            exact .inl (.cached entry cached rfl)
  | asked index originEvent asked slot =>
      cases holds with
      | cached entry found same => exact .inl (.cached entry found same)
      | fetching request =>
          rcases List.mem_or_eq_of_mem_set request with older | new
          · exact .inl (.fetching older)
          · cases originEvent with
            | lookup =>
                cases found : objects.find? asked with
                | none => simp [OriginEvent.answer, found] at new
                | some stored =>
                    simp only [OriginEvent.answer, found, Request.mk.injEq, Upstream.ok.injEq] at new
                    obtain ⟨rfl, rfl⟩ := new
                    exact .inr found
            | refuse status => cases new
            | fail => cases new
      | answered answer => exact .inl (.answered answer)
  | fetched index asked fetched validUntil slot cacheable =>
      cases holds with
      | cached entry found same =>
          rcases cached_fetched found with ⟨rfl, keyed⟩ | older
          · exact .inl (requested slot (by rw [← same, ← keyed]))
          · exact .inl (.cached entry older same)
      | fetching request => exact .inl (.fetching (List.mem_of_mem_eraseIdx request))
      | answered answer =>
          rcases List.mem_append.mp answer with older | new
          · exact .inl (.answered older)
          · cases List.mem_singleton.mp new
            exact .inl (requested slot rfl)
  | responded index asked upstream response slot origin =>
      cases holds with
      | cached entry found same => exact .inl (.cached entry found same)
      | fetching request => exact .inl (.fetching (List.mem_of_mem_eraseIdx request))
      | answered answer =>
          rcases List.mem_append.mp answer with older | new
          · exact .inl (.answered older)
          · cases List.mem_singleton.mp new
            rcases origin with ⟨entry, found, same⟩ | response
            · cases same
              exact .inl (.cached entry found rfl)
            · refine .inl (requested slot ?_)
              cases upstream with
              | ok other => cases response; rfl
              | pending | refused | unreachable => cases response
  | evicted gone =>
      cases holds with
      | cached entry found same => exact .inl (.cached entry (cached_evicted found) same)
      | fetching request => exact .inl (.fetching request)
      | answered answer => exact .inl (.answered answer)

/-- A step of the proxy hands out answers under keys that it was asked for; this is what
those under one key have in common from some answer on. -/
structure Promises (good : Response → Prop) (key : String) (mark : Nat) (proxy : Proxy) :
    Prop where
  marked : mark ≤ proxy.answers.length
  cached : ∀ entry, proxy.cached key = some entry → good (.ok entry.object)
  requests : ∀ upstream response, ⟨key, upstream⟩ ∈ proxy.requests →
    upstream.response = some response → good response
  answers : ∀ response, ⟨key, response⟩ ∈ proxy.answers.drop mark → good response

variable {good : Response → Prop} {mark : Nat}

theorem drop_snoc {answers : List Answer} {answer : Answer} (marked : mark ≤ answers.length)
    {response : Response} (member : ⟨key, response⟩ ∈ (answers ++ [answer]).drop mark) :
    ⟨key, response⟩ ∈ answers.drop mark ∨ answer = ⟨key, response⟩ := by
  rw [List.drop_append_of_le_length marked] at member
  exact (List.mem_append.mp member).imp_right fun new => (List.mem_singleton.mp new).symm

theorem Promises.step (promises : Promises good key mark proxy)
    (effect : ProxyEffect objects proxy proxyEvent next)
    (origin : ∀ index event response, proxyEvent = .upstream index event →
      proxy.requests[index]? = some ⟨key, .pending⟩ →
      (event.answer objects key).response = some response → good response) :
    Promises good key mark next := by
  have longer : ∀ answer, mark ≤ (proxy.answers ++ [answer]).length := fun _ => by
    have marked := promises.marked
    rw [List.length_append]
    omega
  have snoc : ∀ {answered : String} {given : Response}, (answered = key → good given) →
      ∀ response, Answer.mk key response ∈ (proxy.answers ++ [Answer.mk answered given]).drop mark →
        good response := by
    intro answered given holds response member
    rcases drop_snoc promises.marked member with older | same
    · exact promises.answers response older
    · obtain ⟨asked, rfl⟩ := Answer.mk.inj same
      exact holds asked
  have erased : ∀ {index : Nat} (upstream : Upstream) (response : Response),
      ⟨key, upstream⟩ ∈ proxy.requests.eraseIdx index → upstream.response = some response →
        good response := fun upstream response member =>
    promises.requests upstream response (List.mem_of_mem_eraseIdx member)
  cases effect with
  | passed asked =>
      refine ⟨promises.marked, promises.cached, fun upstream response member answered => ?_,
        promises.answers⟩
      rcases List.mem_append.mp member with older | new
      · exact promises.requests upstream response older answered
      · cases List.mem_singleton.mp new
        cases answered
  | hit asked entry cached =>
      refine ⟨longer _, promises.cached, promises.requests, snoc ?_⟩
      rintro rfl
      exact promises.cached entry cached
  | asked index event asked slot =>
      refine ⟨promises.marked, promises.cached, fun upstream response member answered => ?_,
        promises.answers⟩
      rcases List.mem_or_eq_of_mem_set member with older | new
      · exact promises.requests upstream response older answered
      · obtain ⟨rfl, rfl⟩ := Request.mk.inj new
        exact origin index event response rfl slot answered
  | fetched index asked fetched validUntil slot cacheable =>
      have known : asked = key → good (.ok fetched) := by
        rintro rfl
        exact promises.requests _ _ (List.mem_of_getElem? slot) rfl
      refine ⟨longer _, fun entry found => ?_, erased, snoc known⟩
      rcases cached_fetched found with ⟨rfl, keyed⟩ | older
      · exact known keyed
      · exact promises.cached entry older
  | responded index asked upstream response slot answered =>
      refine ⟨longer _, promises.cached, erased, snoc ?_⟩
      rintro rfl
      rcases answered with ⟨entry, found, rfl⟩ | response
      · exact promises.cached entry found
      · exact promises.requests _ _ (List.mem_of_getElem? slot) response
  | evicted gone =>
      exact ⟨promises.marked, fun entry found => promises.cached entry (cached_evicted found),
        promises.requests, promises.answers⟩

/-- When nobody waits for the key, only the cache binds the answers to come. -/
theorem Promises.ofIdle (idle : ∀ request ∈ proxy.requests, request.key ≠ key)
    (cached : ∀ entry, proxy.cached key = some entry → good (.ok entry.object)) :
    Promises good key proxy.answers.length proxy where
  marked := Nat.le_refl _
  cached := cached
  requests upstream _ member := absurd rfl (idle ⟨key, upstream⟩ member)
  answers response member := by
    rw [List.drop_length] at member
    cases member

end Benri.Cdn
