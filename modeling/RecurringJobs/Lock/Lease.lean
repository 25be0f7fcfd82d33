import RecurringJobs.TimeUnit
import Std.Data.TreeMap

/-!
Leases: named locks that expire.

A lease belongs to its holder until the steady clock reaches its expiry, and that instant itself
is no longer part of it.  A lease that is over may stay in the store; nothing asks who held it.
-/

namespace RecurringJobs

/-- Why a lock was not taken or not given back. -/
inductive LockError where
  | held (holder : String)
  | backend (reason : String)
deriving Repr, DecidableEq

def LockError.message : LockError → String
  | held holder => s!"Lock is held by another instance: {holder}"
  | backend reason => s!"Lock backend error: {reason}"

structure Lease where
  holder : String
  /-- The reading of the steady clock at which the lease is over, in nanoseconds. -/
  expires : Nat
deriving Repr, DecidableEq

def Lease.isLive (l : Lease) (now : Nat) : Bool := now < l.expires

/-- Why a lease was not given. -/
inductive AcquireFault where
  | held (holder : String)
  /-- The expiry cannot be written as a reading of the clock. -/
  | beyondClock
deriving Repr, DecidableEq

/-- The shared table of leases by name. -/
structure LeaseStore where
  leases : Std.TreeMap String Lease := ∅

namespace LeaseStore

/-- The steady clock counts seconds in a signed word of 64 bits, so this many are never read. -/
def clockSeconds : Nat := Nat.pow 2 63

/-- Takes or renews a lease until `ttl` nanoseconds from now and gives its expiry.  It is refused
while another holder's lease is live, and a refusal changes nothing. -/
def acquire (s : LeaseStore) (now : Nat) (name holder : String) (ttl : Nat) :
    Except AcquireFault (Nat × LeaseStore) :=
  let expires := now + ttl
  let take : Except AcquireFault (Nat × LeaseStore) :=
    if expires < clockSeconds * TimeUnit.nanosPerSecond then
      .ok (expires, { leases := s.leases.insert name { holder, expires } })
    else .error .beyondClock
  match s.leases[name]? with
  | some current =>
    if current.holder ≠ holder ∧ current.isLive now then .error (.held current.holder) else take
  | none => take

/-- Gives a lease back.  To give back one that is free or over is no fault. -/
def release (s : LeaseStore) (now : Nat) (name holder : String) :
    Except LockError LeaseStore :=
  match s.leases[name]? with
  | some current =>
    if current.holder = holder then .ok { leases := s.leases.erase name }
    else if current.isLive now then .error (.held current.holder)
    else .ok s
  | none => .ok s

/-- Who holds a lease now. -/
def holder? (s : LeaseStore) (now : Nat) (name : String) : Option String :=
  match s.leases[name]? with
  | some current => if current.isLive now then some current.holder else none
  | none => none

end LeaseStore

/-- What a lock answers to a call. -/
inductive LockAnswer where
  | ok
  | refused (error : LockError)
  /-- The call did not come back. -/
  | crashed
deriving Repr, DecidableEq

/-- One contender for a lease.  It remembers until when it holds the lease, so that asking needs
no look into the store. -/
structure LeaseLock where
  name : String
  holder : String
  /-- How long a lease lasts, in nanoseconds. -/
  ttl : Nat
  heldUntil : Option Nat := none
deriving Repr, DecidableEq

namespace LeaseLock

/-- Takes or renews the lease.  A refusal means that the lease is lost. -/
def tryLock (l : LeaseLock) (s : LeaseStore) (now : Nat) : LockAnswer × LeaseLock × LeaseStore :=
  match s.acquire now l.name l.holder l.ttl with
  | .ok (expires, s) => (.ok, { l with heldUntil := some expires }, s)
  | .error (.held holder) => (.refused (.held holder), { l with heldUntil := none }, s)
  | .error .beyondClock => (.crashed, l, s)

/-- Gives the lease back.  Whatever the store answers, it is no longer held. -/
def tryUnlock (l : LeaseLock) (s : LeaseStore) (now : Nat) : LockAnswer × LeaseLock × LeaseStore :=
  let l := { l with heldUntil := none }
  match s.release now l.name l.holder with
  | .ok s => (.ok, l, s)
  | .error e => (.refused e, l, s)

def hasLock (l : LeaseLock) (now : Nat) : Bool :=
  match l.heldUntil with
  | some expires => now < expires
  | none => false

end LeaseLock
end RecurringJobs
