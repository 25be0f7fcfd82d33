/-!
The shutdown signal: one request, told to every receiver that has subscribed.

The channel keeps the last request only.  A receiver that is further behind is first told how many
it has missed, and then gets the one that is kept.
-/

namespace RecurringJobs

/-- What a receiver is told. -/
inductive Reception where
  | received
  | empty
  /-- So many requests were dropped before they were received. -/
  | lagged (count : Nat)
deriving Repr, DecidableEq

structure ShutdownSignal where
  /-- The number of requests so far. -/
  sent : Nat := 0
  /-- For each receiver, how many requests are behind it. -/
  positions : List Nat := []
deriving Repr, DecidableEq

namespace ShutdownSignal

/-- A new receiver, which sees what is requested from now on.  Gives its index. -/
def subscribe (s : ShutdownSignal) : Nat × ShutdownSignal :=
  (s.positions.length, { s with positions := s.positions ++ [s.sent] })

/-- Requests a shutdown.  A receiver that subscribes later does not see it. -/
def trigger (s : ShutdownSignal) : ShutdownSignal := { s with sent := s.sent + 1 }

/-- What receiver `rx` is told next, or nothing if there is no such receiver. -/
def receive (s : ShutdownSignal) (rx : Nat) : Option (Reception × ShutdownSignal) :=
  match s.positions[rx]? with
  | none => none
  | some position =>
    let behind := s.sent - position
    if behind = 0 then some (.empty, s)
    else if behind = 1 then some (.received, { s with positions := s.positions.set rx s.sent })
    else some (.lagged (behind - 1), { s with positions := s.positions.set rx (s.sent - 1) })

end ShutdownSignal
end RecurringJobs
