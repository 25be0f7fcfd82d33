import RecurringJobs.Lock.Lease

/-!
The lock that gates the runs of a scheduler: a contender for a lease, or one that answers from a
script.

A scripted lock stands for any other lock service: what it answers to each call, and whether it
says that it is held, is free.
-/

namespace RecurringJobs

/-- A lock that gives prepared answers.  The last one is repeated when they run out, and without
any the answer is `ok`. -/
structure ScriptedLock where
  held : Bool := false
  onLock : List LockAnswer := []
  onUnlock : List LockAnswer := []
deriving Repr, DecidableEq

namespace ScriptedLock

/-- The first answer, and what is left for the next call. -/
def next : List LockAnswer → LockAnswer × List LockAnswer
  | [] => (.ok, [])
  | [a] => (a, [a])
  | a :: rest => (a, rest)

end ScriptedLock

inductive Lock where
  | lease (l : LeaseLock)
  | scripted (l : ScriptedLock)
deriving Repr, DecidableEq

namespace Lock

def tryLock (l : Lock) (s : LeaseStore) (now : Nat) : LockAnswer × Lock × LeaseStore :=
  match l with
  | lease l =>
    let (answer, l, s) := l.tryLock s now
    (answer, lease l, s)
  | scripted l =>
    let (answer, rest) := ScriptedLock.next l.onLock
    (answer, scripted { l with onLock := rest }, s)

def tryUnlock (l : Lock) (s : LeaseStore) (now : Nat) : LockAnswer × Lock × LeaseStore :=
  match l with
  | lease l =>
    let (answer, l, s) := l.tryUnlock s now
    (answer, lease l, s)
  | scripted l =>
    let (answer, rest) := ScriptedLock.next l.onUnlock
    (answer, scripted { l with onUnlock := rest }, s)

/-- Whether the lock is held now. -/
def hasLock (l : Lock) (now : Nat) : Bool :=
  match l with
  | lease l => l.hasLock now
  | scripted l => l.held

end Lock
end RecurringJobs
