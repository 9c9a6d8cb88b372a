import Mathlib.Logic.Function.Basic
import Benri.Redis.DistributedLock
import Benri.Transition.Run

namespace Benri.Redis

open Benri.Domain Benri.Transition

/-! # The locks of any number of clients

Clients call `acquire` and `release` for any keys in any order, with tokens of
their own or of others.  Beside what Redis stores, the state remembers every
token that was drawn and every `SET` that took effect; the steps do not read that.
-/

/-- A `SET` that took effect, and whether a release of its token has run since. -/
structure Grant where
  key : String
  token : LockToken
  expiresAt : Instant
  released : Bool
deriving DecidableEq, Repr

def Grant.live (grant : Grant) (now : Instant) : Bool :=
  !grant.released && decide (now < grant.expiresAt)

structure Locks where
  now : Instant
  stored : String → Option Lease
  drawn : List LockToken
  grants : List Grant

def Locks.initial (now : Instant) : Locks where
  now := now
  stored _ := none
  drawn := []
  grants := []

/-- `EX` takes a positive number of seconds, and the expiry has to fit 64 bits. -/
def validExpiry (ttlSecs : Nat) (now : Instant) : Bool :=
  decide (0 < ttlSecs) && decide (now + ttlSecs * 1000 < 2 ^ 63)

/-- `RedisDistributedLock::acquire`; a `SET` that is refused sets nothing. -/
def acquireLock (locks : Locks) (fault : Fault) (key : String) (ttlSecs : Nat)
    (token : LockToken) : Locks × Except String (Option LockToken) :=
  let drawn := { locks with drawn := token :: locks.drawn }
  if validExpiry ttlSecs locks.now then
    let answer := acquire (locks.stored key) token ttlSecs locks.now
    attempt fault lockError drawn { drawn with
      stored := Function.update locks.stored key answer.1
      grants := locks.grants ++ answer.2.toList.map fun token =>
        ⟨key, token, locks.now + ttlSecs * 1000, false⟩ } answer.2
  else (drawn, .error (lockError "invalid expire time in 'set' command"))

/-- `RedisDistributedLock::release`. -/
def releaseLock (locks : Locks) (fault : Fault) (key : String) (token : LockToken) :
    Locks × Except String Unit :=
  attempt fault lockError locks { locks with
    stored := Function.update locks.stored key (release (locks.stored key) token locks.now) } ()

def Grant.release (key : String) (token : LockToken) (grant : Grant) : Grant :=
  if grant.key = key ∧ grant.token = token then { grant with released := true } else grant

/-- A release with this token has run. -/
def Locks.remember (locks : Locks) (key : String) (token : LockToken) : Locks :=
  { locks with grants := locks.grants.map (Grant.release key token) }

inductive LockEvent where
  | advance (now : Instant)
  | acquire (key : String) (ttlSecs : Nat) (token : LockToken) (fault : Fault)
  | release (key : String) (token : LockToken) (fault : Fault)

/-- No token is drawn twice. -/
def lockStep (locks : Locks) : LockEvent → Option Locks
  | .advance now => if locks.now ≤ now then some { locks with now } else none
  | .acquire key ttlSecs token fault =>
      if token ∈ locks.drawn then none else some (acquireLock locks fault key ttlSecs token).1
  | .release key token fault =>
      let released := (releaseLock locks fault key token).1
      some (if fault.applies then released.remember key token else released)

variable {locks next : Locks} {key : String} {token : LockToken}

/-! ## What is stored and what is remembered -/

/-- The grants that are live are the leases that are held, and no two have one token. -/
structure Consistent (locks : Locks) : Prop where
  drawn : ∀ grant ∈ locks.grants, grant.token ∈ locks.drawn
  distinct : locks.grants.Pairwise fun left right => left.token ≠ right.token
  held : ∀ key lease, holder (locks.stored key) locks.now = some lease ↔
    ⟨key, lease.token, lease.expiresAt, false⟩ ∈ locks.grants ∧ lease.live locks.now = true

theorem Consistent.initial (now : Instant) : Consistent (.initial now) where
  drawn _ member := absurd member List.not_mem_nil
  distinct := .nil
  held key lease := by simp [Locks.initial, holder]

theorem holder_eq_some {stored : Option Lease} {now : Instant} {lease : Lease} :
    holder stored now = some lease ↔ stored = some lease ∧ lease.live now = true :=
  Option.filter_eq_some_iff

theorem Consistent.advance {now : Instant} (consistent : Consistent locks)
    (later : locks.now ≤ now) : Consistent { locks with now } := by
  refine ⟨consistent.drawn, consistent.distinct, fun key lease => ?_⟩
  have earlier : lease.live now = true → lease.live locks.now = true := by
    simp only [Lease.live, decide_eq_true_eq]
    exact fun live => Int.lt_of_le_of_lt later live
  have held := consistent.held key lease
  rw [holder_eq_some] at held ⊢
  constructor
  · rintro ⟨same, live⟩
    exact ⟨(held.mp ⟨same, earlier live⟩).1, live⟩
  · rintro ⟨granted, live⟩
    exact ⟨(held.mpr ⟨granted, earlier live⟩).1, live⟩

theorem Consistent.draw (consistent : Consistent locks) (token : LockToken) :
    Consistent { locks with drawn := token :: locks.drawn } :=
  ⟨fun grant member => List.mem_cons_of_mem _ (consistent.drawn grant member),
    consistent.distinct, consistent.held⟩

/-- A free key is granted to the new token. -/
theorem Consistent.grant {expiresAt : Instant} (consistent : Consistent locks)
    (fresh : token ∉ locks.drawn) (later : locks.now < expiresAt)
    (free : holder (locks.stored key) locks.now = none) :
    Consistent { locks with
      drawn := token :: locks.drawn
      stored := Function.update locks.stored key (some ⟨token, expiresAt⟩)
      grants := locks.grants ++ [⟨key, token, expiresAt, false⟩] } := by
  refine ⟨fun grant member => ?_, ?_, fun wanted lease => ?_⟩
  · rcases List.mem_append.mp member with older | new
    · exact List.mem_cons_of_mem _ (consistent.drawn grant older)
    · rw [List.mem_singleton.mp new]
      exact List.mem_cons_self
  · refine List.pairwise_append.mpr ⟨consistent.distinct, List.pairwise_singleton _ _, ?_⟩
    intro grant member new same
    rw [List.mem_singleton.mp same]
    rintro rfl
    exact fresh (consistent.drawn grant member)
  · have held := consistent.held wanted lease
    dsimp only
    rw [List.mem_append, List.mem_singleton, Grant.mk.injEq]
    by_cases same : wanted = key
    · subst same
      rw [Function.update_self, holder_eq_some, Option.some.injEq]
      constructor
      · rintro ⟨rfl, live⟩
        exact ⟨.inr ⟨rfl, rfl, rfl, rfl⟩, live⟩
      · rintro ⟨older | ⟨_, rfl, rfl, _⟩, live⟩
        · rw [free] at held
          cases held.mpr ⟨older, live⟩
        · exact ⟨rfl, live⟩
    · rw [Function.update_of_ne same, held]
      simp [same]

theorem mem_map_release {grants : List Grant} {lease : Lease} {wanted : String} :
    ⟨wanted, lease.token, lease.expiresAt, false⟩ ∈ grants.map (Grant.release key token) ↔
      ⟨wanted, lease.token, lease.expiresAt, false⟩ ∈ grants ∧
        ¬ (wanted = key ∧ lease.token = token) := by
  rw [List.mem_map]
  constructor
  · rintro ⟨grant, member, same⟩
    unfold Grant.release at same
    split at same
    · cases congrArg Grant.released same
    · subst same
      exact ⟨member, ‹_›⟩
  · rintro ⟨member, other⟩
    exact ⟨_, member, if_neg other⟩

/-- What a token holds is given up, and nothing else. -/
theorem Consistent.release (consistent : Consistent locks) (key : String) (token : LockToken) :
    Consistent { locks with
      stored := Function.update locks.stored key (Redis.release (locks.stored key) token locks.now)
      grants := locks.grants.map (Grant.release key token) } := by
  have tokens : ∀ grant : Grant, (grant.release key token).token = grant.token := by
    intro grant
    unfold Grant.release
    split <;> rfl
  refine ⟨fun grant member => ?_, ?_, fun wanted lease => ?_⟩
  · obtain ⟨older, there, rfl⟩ := List.mem_map.mp member
    rw [tokens]
    exact consistent.drawn older there
  · refine List.pairwise_map.mpr (consistent.distinct.imp fun {left right} other => ?_)
    rwa [tokens, tokens]
  · have held := consistent.held wanted lease
    dsimp only
    rw [mem_map_release, and_right_comm, ← held]
    by_cases same : wanted = key
    · subst same
      rw [Function.update_self, holder_eq_some, Redis.release, Option.filter_eq_some_iff]
      constructor
      · rintro ⟨⟨stays, other⟩, _⟩
        exact ⟨stays, fun own => of_decide_eq_true other own.2⟩
      · rintro ⟨stays, other⟩
        exact ⟨⟨stays, decide_eq_true fun own => other ⟨rfl, own⟩⟩, (holder_eq_some.mp stays).2⟩
    · rw [Function.update_of_ne same]
      simp [same]

/-! ## Runs -/

theorem validExpiry_later {ttlSecs : Nat} {now : Instant} (valid : validExpiry ttlSecs now = true) :
    now < now + ttlSecs * 1000 := by
  have positive : 0 < ttlSecs := of_decide_eq_true (Bool.and_eq_true_iff.mp valid).1
  have lasts : (0 : Int) < ttlSecs * 1000 := by omega
  exact Int.lt_add_of_pos_right now lasts

theorem Consistent.acquire (consistent : Consistent locks) (fresh : token ∉ locks.drawn)
    (fault : Fault) (key : String) (ttlSecs : Nat) :
    Consistent (acquireLock locks fault key ttlSecs token).1 := by
  have drawn := consistent.draw token
  unfold acquireLock
  dsimp only
  split
  · rename_i valid
    refine attempt_kept Consistent drawn ?_
    cases free : holder (locks.stored key) locks.now with
    | none =>
        rw [acquire_free free]
        exact consistent.grant fresh (validExpiry_later valid) free
    | some lease =>
        have stays : Function.update locks.stored key (some lease) = locks.stored := by
          rw [← (holder_eq_some.mp free).1, Function.update_eq_self]
        simp only [Redis.acquire, free, stays, Option.toList_none, List.map_nil, List.append_nil]
        exact drawn
  · exact drawn

theorem Consistent.step {event : LockEvent} (consistent : Consistent locks)
    (stepped : lockStep locks event = some next) : Consistent next := by
  cases event with
  | advance now =>
      simp only [lockStep] at stepped
      split at stepped
      · cases stepped
        exact consistent.advance ‹_›
      · contradiction
  | acquire key ttlSecs token fault =>
      simp only [lockStep] at stepped
      split at stepped
      · contradiction
      · cases stepped
        exact consistent.acquire ‹_› fault key ttlSecs
  | release key token fault =>
      cases stepped
      cases fault with
      | none => exact consistent.release key token
      | error applied message =>
          cases applied with
          | true => exact consistent.release key token
          | false => exact consistent

theorem consistent_of_reaches {now : Instant}
    (reached : Reaches lockStep Anything (.initial now) locks) : Consistent locks :=
  reached.preserves Consistent (.initial now) fun consistent _ stepped => consistent.step stepped

/-! ## The grants of one key -/

theorem Grant.live_iff {grant : Grant} {now : Instant} :
    grant.live now = true ↔ grant.released = false ∧ now < grant.expiresAt := by
  simp [Grant.live]

theorem Consistent.holder_of_live {grant : Grant} (consistent : Consistent locks)
    (member : grant ∈ locks.grants) (live : grant.live locks.now = true) :
    holder (locks.stored grant.key) locks.now = some ⟨grant.token, grant.expiresAt⟩ := by
  obtain ⟨unreleased, later⟩ := Grant.live_iff.mp live
  refine (consistent.held _ _).mpr ⟨?_, decide_eq_true later⟩
  rw [← unreleased]
  exact member

theorem Consistent.free_iff (consistent : Consistent locks) (key : String) :
    holder (locks.stored key) locks.now = none ↔
      ∀ grant ∈ locks.grants, grant.key = key → grant.live locks.now = false := by
  constructor
  · rintro free grant member rfl
    rw [Bool.eq_false_iff]
    intro live
    rw [consistent.holder_of_live member live] at free
    cases free
  · intro idle
    rw [Option.eq_none_iff_forall_not_mem]
    intro lease held
    obtain ⟨member, live⟩ := (consistent.held key lease).mp held
    have dead := idle _ member rfl
    rw [Grant.live, show decide (locks.now < lease.expiresAt) = true from live] at dead
    cases dead

theorem acquireLock_answer {fault : Fault} {ttlSecs : Nat} {answer : Option LockToken}
    (answered : (acquireLock locks fault key ttlSecs token).2 = .ok answer) :
    answer = (acquire (locks.stored key) token ttlSecs locks.now).2 := by
  unfold acquireLock at answered
  dsimp only at answered
  split at answered
  · cases fault with
    | none => exact (Except.ok.inj answered).symm
    | error applied message => cases answered
  · cases answered

/-- A call that nothing goes wrong with is answered. -/
theorem acquireLock_answers {ttlSecs : Nat} (valid : validExpiry ttlSecs locks.now = true) :
    ∃ answer, (acquireLock locks .none key ttlSecs token).2 = .ok answer := by
  rw [acquireLock, if_pos valid]
  exact ⟨_, rfl⟩

/-- Who is answered with the token holds the key from then on, for its time to live. -/
theorem acquireLock_granted {fault : Fault} {ttlSecs : Nat}
    (answered : (acquireLock locks fault key ttlSecs token).2 = .ok (some token)) :
    ⟨key, token, locks.now + ttlSecs * 1000, false⟩ ∈
      (acquireLock locks fault key ttlSecs token).1.grants := by
  have given := acquireLock_answer answered
  unfold acquireLock at answered ⊢
  dsimp only at answered ⊢
  split
  · rw [← given]
    cases fault with
    | none => exact List.mem_append_right _ (List.mem_singleton_self _)
    | error applied message =>
        rw [if_pos ‹_›] at answered
        cases answered
  · rw [if_neg ‹_›] at answered
    cases answered

theorem acquire_some_iff {stored : Option Lease} {ttlSecs : Nat} {now : Instant} :
    (acquire stored token ttlSecs now).2 = some token ↔ holder stored now = none := by
  unfold acquire
  split <;> simp [*]

theorem acquire_none_iff {stored : Option Lease} {ttlSecs : Nat} {now : Instant} :
    (acquire stored token ttlSecs now).2 = none ↔ holder stored now ≠ none := by
  unfold acquire
  split <;> simp [*]

/-- A token that holds nothing under the key gives nothing up. -/
theorem Consistent.release_other {fault : Fault} (consistent : Consistent locks)
    (dead : ∀ grant ∈ locks.grants, grant.key = key → grant.token = token →
      grant.live locks.now = false) (wanted : String) :
    holder ((releaseLock locks fault key token).1.stored wanted) locks.now =
      holder (locks.stored wanted) locks.now := by
  refine attempt_kept (fun reached : Locks =>
    holder (reached.stored wanted) locks.now = holder (locks.stored wanted) locks.now) rfl ?_
  dsimp only
  by_cases same : wanted = key
  · subst same
    rw [Function.update_self, Redis.release]
    cases held : holder (locks.stored wanted) locks.now with
    | none => rfl
    | some lease =>
        obtain ⟨member, live⟩ := (consistent.held wanted lease).mp held
        have other : lease.token ≠ token := by
          intro own
          have gone := dead _ member rfl own
          rw [Grant.live, show decide (locks.now < lease.expiresAt) = true from live] at gone
          cases gone
        rw [Option.filter_some, if_pos (decide_eq_true other)]
        exact holder_eq_some.mpr ⟨rfl, live⟩
  · rw [Function.update_of_ne same]

/-- A live token's own release frees its key. -/
theorem Consistent.release_live {grant : Grant} (consistent : Consistent locks)
    (member : grant ∈ locks.grants) (live : grant.live locks.now = true) {fault : Fault}
    (applies : fault.applies = true) :
    holder ((releaseLock locks fault grant.key grant.token).1.stored grant.key) locks.now =
      none := by
  have held := (holder_eq_some.mp (consistent.holder_of_live member live)).1
  have freed := release_own locks.now held
  have ran : (releaseLock locks fault grant.key grant.token).1.stored grant.key =
      Redis.release (locks.stored grant.key) grant.token locks.now := by
    cases fault with
    | none => simp [releaseLock, attempt]
    | error applied message =>
        cases applies
        simp [releaseLock, attempt]
  rw [ran]
  exact freed

/-- At most one token per key is live; a call that is answered gets the key exactly
when no token of it is live; a release with a token that is not live leaves every key
with its holder, and the holder's lease as it is; and one with a live token, if it runs,
frees its key. -/
theorem lock_safety {now : Instant} (reached : Reaches lockStep Anything (.initial now) locks) :
    (∀ first ∈ locks.grants, ∀ second ∈ locks.grants, first.key = second.key →
      first.live locks.now = true → second.live locks.now = true →
      first.token = second.token) ∧
    (∀ key ttlSecs token fault answer, token ∉ locks.drawn →
      (acquireLock locks fault key ttlSecs token).2 = .ok answer →
      (answer = some token ↔
        ∀ grant ∈ locks.grants, grant.key = key → grant.live locks.now = false) ∧
      (answer = none ↔
        ∃ grant ∈ locks.grants, grant.key = key ∧ grant.live locks.now = true) ∧
      (answer = some token → ⟨key, token, locks.now + ttlSecs * 1000, false⟩ ∈
        (acquireLock locks fault key ttlSecs token).1.grants)) ∧
    (∀ key ttlSecs token, validExpiry ttlSecs locks.now = true →
      ∃ answer, (acquireLock locks .none key ttlSecs token).2 = .ok answer) ∧
    (∀ key token fault, (∀ grant ∈ locks.grants, grant.key = key → grant.token = token →
        grant.live locks.now = false) →
      ∀ wanted, holder ((releaseLock locks fault key token).1.stored wanted) locks.now =
        holder (locks.stored wanted) locks.now) ∧
    (∀ grant ∈ locks.grants, grant.live locks.now = true → ∀ fault : Fault,
      fault.applies = true →
      holder ((releaseLock locks fault grant.key grant.token).1.stored grant.key) locks.now =
        none) := by
  have consistent := consistent_of_reaches reached
  refine ⟨fun first firstMember second secondMember same firstLive secondLive => ?_,
    fun key ttlSecs token fault answer fresh answered => ⟨?_, ?_, ?_⟩,
    fun key ttlSecs token valid => acquireLock_answers valid,
    fun key token fault dead => consistent.release_other dead,
    fun grant member live fault applies => consistent.release_live member live applies⟩
  · have one := consistent.holder_of_live firstMember firstLive
    rw [same, consistent.holder_of_live secondMember secondLive] at one
    exact (Lease.mk.inj (Option.some.inj one)).1.symm
  · rw [acquireLock_answer answered, acquire_some_iff, consistent.free_iff]
  · rw [acquireLock_answer answered, acquire_none_iff, ne_eq, consistent.free_iff]
    simp
  · rintro rfl
    exact acquireLock_granted answered

/-- A lock is taken, runs out, is taken by another client, and the first one
releases it late. -/
def lateRelease (key : String) : List LockEvent :=
  [.acquire key 30 ⟨0⟩ .none, .advance 30000, .acquire key 30 ⟨1⟩ .none, .release key ⟨0⟩ .none]

theorem lock_safety_lateRelease : ∃ locks,
    Reaches lockStep Anything (.initial 0) locks ∧
    (acquireLock locks .none "lock" 30 ⟨2⟩).2 = .ok none ∧
    ∃ grant ∈ locks.grants, grant.key = "lock" ∧ grant.live locks.now = true ∧
      holder ((releaseLock locks .none grant.key grant.token).1.stored grant.key) locks.now =
        none := by
  have passed : ((run lockStep Anything (.initial 0) (lateRelease "lock")).map fun locks =>
      decide (⟨2⟩ ∉ locks.drawn) &&
        decide ((acquireLock locks .none "lock" 30 ⟨2⟩).2 = .ok none)) = some true := by decide
  obtain ⟨locks, reached, passed⟩ := reaches_of_check _ passed
  obtain ⟨fresh, refused⟩ := Bool.and_eq_true_iff.mp passed
  have answered := of_decide_eq_true refused
  refine ⟨locks, reached, answered, ?_⟩
  obtain ⟨_, answers, _, _, releases⟩ := lock_safety reached
  obtain ⟨_, refused, _⟩ := answers "lock" 30 ⟨2⟩ .none none (of_decide_eq_true fresh) answered
  obtain ⟨grant, member, same, live⟩ := refused.mp rfl
  exact ⟨grant, member, same, live, releases grant member live .none rfl⟩

end Benri.Redis
