import Benri.Storage.S3Client

namespace Benri.Cdn

open Benri.Data Benri.Domain Benri.Storage

/-! # The CDN

What `nginx.conf` makes of a GET request for a key of the output bucket.  A playlist is
always asked of the origin.  Anything else is answered from the cache while the cached
answer is valid; after that a request goes to the origin, and the expired answer serves
those who ask meanwhile and those whom the origin fails.  Between a request and its
answer anything else may happen.
-/

/-- `location ~ \.m3u8$` -/
def isPlaylist (key : String) : Bool := ".m3u8".toList.isSuffixOf key.toList

/-- `proxy_cache_valid 200 24h`, in milliseconds. -/
def PROXY_CACHE_VALID : Int := 24 * 60 * 60 * 1000

structure CacheEntry where
  key : String
  object : Object
  validUntil : Instant

abbrev ProxyCache := Table String CacheEntry CacheEntry.key

/-- What the origin has answered to a request that was passed on to it. -/
inductive Upstream where
  | pending
  | ok (object : Object)
  | refused (status : Nat)
  | unreachable

structure Request where
  key : String
  upstream : Upstream

inductive Response where
  | ok (object : Object)
  | refused (status : Nat)

structure Answer where
  key : String
  response : Response

structure Proxy where
  cache : ProxyCache
  requests : List Request
  /-- History: what was answered. -/
  answers : List Answer

def Proxy.initial : Proxy where
  cache := .empty
  requests := []
  answers := []

/-- How the origin deals with a request: it looks the key up, it answers with
another status, or there is an error or a timeout. -/
inductive OriginEvent where
  | lookup
  | refuse (status : Nat)
  | fail
deriving DecidableEq, Repr

inductive ProxyEvent where
  | request (key : String)
  | upstream (index : Nat) (event : OriginEvent)
  | respond (index : Nat)
  | evict (key : String)

def Proxy.answer (proxy : Proxy) (key : String) (response : Response) : Proxy :=
  { proxy with answers := proxy.answers ++ [⟨key, response⟩] }

def Proxy.passOn (proxy : Proxy) (key : String) : Proxy :=
  { proxy with requests := proxy.requests ++ [⟨key, .pending⟩] }

/-- A request for the key is under way, so a cached answer is being updated. -/
def Proxy.updating (proxy : Proxy) (key : String) : Bool :=
  proxy.requests.any fun request => decide (request.key = key)

/-- The cached answer for a key; the first location has no cache. -/
def Proxy.cached (proxy : Proxy) (key : String) : Option CacheEntry :=
  if isPlaylist key then none else proxy.cache.find? key

def requestStep (now : Instant) (proxy : Proxy) (key : String) : Proxy :=
  match proxy.cached key with
  | none => proxy.passOn key
  | some entry =>
      if now < entry.validUntil then proxy.answer key (.ok entry.object)
      else if proxy.updating key then proxy.answer key (.ok entry.object)
      else proxy.passOn key

def OriginEvent.answer (objects : Objects) (key : String) : OriginEvent → Upstream
  | .lookup =>
      match objects.find? key with
      | some object => .ok object
      | none => .refused 404
  | .refuse status => .refused status
  | .fail => .unreachable

def upstreamStep (objects : Objects) (proxy : Proxy) (index : Nat) (event : OriginEvent) :
    Option Proxy :=
  match proxy.requests[index]? with
  | some ⟨key, .pending⟩ => some { proxy with
      requests := proxy.requests.set index ⟨key, event.answer objects key⟩ }
  | _ => none

/-- Only a 200 of the second location is cached. -/
def Proxy.store (proxy : Proxy) (now : Instant) (key : String) (object : Object) : Proxy :=
  if isPlaylist key then proxy
  else { proxy with cache := proxy.cache.put ⟨key, object, now + PROXY_CACHE_VALID⟩ }

/-- What a request gets when the origin could not be reached. -/
def Proxy.stale (proxy : Proxy) (key : String) : Response :=
  match proxy.cached key with
  | some entry => .ok entry.object
  | none => .refused 502

def respondStep (now : Instant) (proxy : Proxy) (index : Nat) : Option Proxy :=
  match proxy.requests[index]? with
  | some ⟨key, upstream⟩ =>
      let rest : Proxy := { proxy with requests := proxy.requests.eraseIdx index }
      match upstream with
      | .pending => none
      | .ok object => some ((rest.store now key object).answer key (.ok object))
      | .refused status => some (rest.answer key (.refused status))
      | .unreachable => some (rest.answer key (proxy.stale key))
  | none => none

def proxyStep (objects : Objects) (now : Instant) (proxy : Proxy) : ProxyEvent → Option Proxy
  | .request key => some (requestStep now proxy key)
  | .upstream index event => upstreamStep objects proxy index event
  | .respond index => respondStep now proxy index
  | .evict key => some { proxy with
      cache := proxy.cache.delete fun entry => decide (entry.key = key) }

/-! ## What a step can do -/

variable {objects : Objects} {now : Instant} {proxy after : Proxy} {event : ProxyEvent}
  {key : String}

/-- What the origin's answer comes to without the cache. -/
def Upstream.response : Upstream → Option Response
  | .pending => none
  | .ok object => some (.ok object)
  | .refused status => some (.refused status)
  | .unreachable => some (.refused 502)

inductive ProxyEffect (objects : Objects) (proxy : Proxy) : ProxyEvent → Proxy → Prop where
  | passed (key : String) : ProxyEffect objects proxy (.request key) (proxy.passOn key)
  | hit (key : String) (entry : CacheEntry) (cached : proxy.cached key = some entry) :
      ProxyEffect objects proxy (.request key) (proxy.answer key (.ok entry.object))
  | asked (index : Nat) (event : OriginEvent) (key : String)
      (slot : proxy.requests[index]? = some ⟨key, .pending⟩) :
      ProxyEffect objects proxy (.upstream index event)
        { proxy with requests := proxy.requests.set index ⟨key, event.answer objects key⟩ }
  | fetched (index : Nat) (key : String) (object : Object) (validUntil : Instant)
      (slot : proxy.requests[index]? = some ⟨key, .ok object⟩)
      (cacheable : isPlaylist key = false) :
      ProxyEffect objects proxy (.respond index) {
        cache := proxy.cache.put ⟨key, object, validUntil⟩
        requests := proxy.requests.eraseIdx index
        answers := proxy.answers ++ [⟨key, .ok object⟩] }
  | responded (index : Nat) (key : String) (upstream : Upstream) (response : Response)
      (slot : proxy.requests[index]? = some ⟨key, upstream⟩)
      (origin : (∃ entry, proxy.cached key = some entry ∧ response = .ok entry.object) ∨
        upstream.response = some response) :
      ProxyEffect objects proxy (.respond index) { proxy with
        requests := proxy.requests.eraseIdx index
        answers := proxy.answers ++ [⟨key, response⟩] }
  | evicted (key : String) : ProxyEffect objects proxy (.evict key) { proxy with
      cache := proxy.cache.delete fun entry => decide (entry.key = key) }

theorem requestStep_effect (objects : Objects) (now : Instant) (proxy : Proxy) (key : String) :
    ProxyEffect objects proxy (.request key) (requestStep now proxy key) := by
  unfold requestStep
  split
  · exact .passed key
  · rename_i entry cached
    split
    · exact .hit key entry cached
    · split
      · exact .hit key entry cached
      · exact .passed key

theorem respondStep_effect {index : Nat} (objects : Objects)
    (stepped : respondStep now proxy index = some after) :
    ProxyEffect objects proxy (.respond index) after := by
  unfold respondStep at stepped
  split at stepped
  · rename_i key upstream slot
    cases upstream with
    | pending => cases stepped
    | ok object =>
        cases stepped
        cases cacheable : isPlaylist key with
        | true =>
            rw [Proxy.store, cacheable]
            exact .responded index key _ _ slot (.inr rfl)
        | false =>
            rw [Proxy.store, cacheable]
            exact .fetched index key object _ slot cacheable
    | refused status =>
        cases stepped
        exact .responded index key _ _ slot (.inr rfl)
    | unreachable =>
        cases stepped
        refine .responded index key _ _ slot ?_
        cases cached : proxy.cached key with
        | some entry => exact .inl ⟨entry, rfl, by rw [Proxy.stale, cached]⟩
        | none =>
            rw [Proxy.stale, cached]
            exact .inr rfl
  · contradiction

theorem proxyStep_effect (stepped : proxyStep objects now proxy event = some after) :
    ProxyEffect objects proxy event after := by
  cases event with
  | request key =>
      cases stepped
      exact requestStep_effect objects now proxy key
  | upstream index event =>
      simp only [proxyStep, upstreamStep] at stepped
      split at stepped
      · rename_i key slot
        cases stepped
        exact .asked index event key slot
      · contradiction
  | respond index => exact respondStep_effect objects stepped
  | evict key =>
      cases stepped
      exact .evicted key

end Benri.Cdn
