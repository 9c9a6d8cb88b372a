import Benri.Domain.Identifier

namespace Benri.Redis

open Benri.Domain

/-! # The distributed lock, one key of it

`SET NX EX` and the check-and-delete script run atomically; a key whose time to
live has elapsed is gone.
-/

def lockError (message : String) : String := "lock error: " ++ message

/-- A token is a fresh UUID text; tokens are told apart by when they were drawn. -/
structure LockToken where
  serial : Nat
deriving DecidableEq, Repr

structure Lease where
  token : LockToken
  expiresAt : Instant
deriving DecidableEq, Repr

def Lease.live (lease : Lease) (now : Instant) : Bool := decide (now < lease.expiresAt)

/-- The lease the key stores at `now`. -/
def holder (stored : Option Lease) (now : Instant) : Option Lease :=
  stored.filter fun lease => lease.live now

def acquire (stored : Option Lease) (token : LockToken) (ttlSecs : Nat) (now : Instant) :
    Option Lease × Option LockToken :=
  match holder stored now with
  | none => (some ⟨token, now + ttlSecs * 1000⟩, some token)
  | some lease => (some lease, none)

def release (stored : Option Lease) (token : LockToken) (now : Instant) : Option Lease :=
  (holder stored now).filter fun lease => decide (lease.token ≠ token)

theorem acquire_free {stored : Option Lease} {now : Instant} (free : holder stored now = none)
    (token : LockToken) (ttlSecs : Nat) :
    acquire stored token ttlSecs now = (some ⟨token, now + ttlSecs * 1000⟩, some token) := by
  rw [acquire, free]

/-- A lease that is live now was live before. -/
theorem holder_earlier {stored : Option Lease} {now later : Instant} {lease : Lease}
    (order : now ≤ later) (held : holder stored later = some lease) :
    holder stored now = some lease := by
  obtain ⟨same, live⟩ := Option.filter_eq_some_iff.mp held
  simp only [Lease.live, decide_eq_true_eq] at live
  exact Option.filter_eq_some_iff.mpr
    ⟨same, by simpa [Lease.live] using Int.lt_of_le_of_lt order live⟩

/-- After an attempt to acquire, the key is held as before or under the new token. -/
theorem holder_acquire {stored : Option Lease} {token : LockToken} {ttlSecs : Nat} {now : Instant}
    {lease : Lease} (held : holder (acquire stored token ttlSecs now).1 now = some lease) :
    holder stored now = some lease ∨ lease.token = token := by
  cases previous : holder stored now with
  | none =>
      simp only [acquire, previous] at held
      obtain ⟨same, _⟩ := Option.filter_eq_some_iff.mp held
      exact .inr (by rw [← Option.some.inj same])
  | some other =>
      simp only [acquire, previous] at held
      exact .inl (Option.filter_eq_some_iff.mp held).1

/-- A release gives the key to nobody. -/
theorem holder_release {stored : Option Lease} {token : LockToken} {now : Instant} {lease : Lease}
    (held : holder (release stored token now) now = some lease) : holder stored now = some lease :=
  (Option.filter_eq_some_iff.mp (Option.filter_eq_some_iff.mp held).1).1

/-- The holder's own release leaves the key free. -/
theorem release_own {stored : Option Lease} {lease : Lease} (now : Instant)
    (held : stored = some lease) : holder (release stored lease.token now) now = none := by
  subst held
  cases live : lease.live now <;> simp [release, holder, live]

end Benri.Redis
