import RecurringJobs.Instant

/-!
The two readings of time: the wall clock, which plans are about, and the steady clock that counts
the nanoseconds since the host began, which leases are about.  The steady clock only goes forward;
the wall clock may be set.
-/

namespace RecurringJobs

structure Clock where
  wall : Instant
  /-- What the steady clock reads. -/
  elapsed : Nat := 0
  /-- What the steady clock read when the process began. -/
  origin : Nat := 0
deriving Repr, DecidableEq

namespace Clock

/-- Whether the wall clock can be read: it may have run beyond the last instant that can be held. -/
def isReadable (c : Clock) : Bool := Instant.inRange c.wall.seconds

/-- Both clocks after so many nanoseconds. -/
def advance (c : Clock) (nanos : Nat) : Clock :=
  { c with wall := c.wall.after nanos, elapsed := c.elapsed + nanos }

/-- How long the process has been running, in nanoseconds. -/
def age (c : Clock) : Nat := c.elapsed - c.origin

end Clock
end RecurringJobs
