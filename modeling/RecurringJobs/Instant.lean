import RecurringJobs.Calendar
import RecurringJobs.TimeUnit

/-!
Instants of universal time, and their text.

An instant is a whole second since 1970 and a part of a second in nanoseconds.  The part may
exceed one second in the last second of a minute: that is how a leap second is written.
-/

namespace RecurringJobs

structure Instant where
  seconds : Int
  nanos : Nat := 0
deriving Repr, DecidableEq

namespace Instant

open TimeUnit

/-- The first second that can be held, the beginning of year -262143. -/
def earliest : Int := -8334601228800

/-- The last second that can be held, the end of year 262142. -/
def latest : Int := 8210266876799

/-- Whether a second can be held. -/
def inRange (seconds : Int) : Bool := earliest ≤ seconds && seconds ≤ latest

/-- The instant with these parts, if there is one. -/
def make? (seconds : Int) (nanos : Nat) : Option Instant :=
  if inRange seconds
      && (nanos < nanosPerSecond || (nanos < 2 * nanosPerSecond && seconds % 60 = 59)) then
    some { seconds, nanos }
  else none

/-- Earlier or the same. -/
def le (a b : Instant) : Bool :=
  a.seconds < b.seconds || (a.seconds = b.seconds && a.nanos ≤ b.nanos)

/-- The later of two instants. -/
def later (a b : Instant) : Instant := if le a b then b else a

/-- Whether an instant lies in a leap second. -/
def isLeap (a : Instant) : Bool := nanosPerSecond ≤ a.nanos

/-- The instant so many nanoseconds after another.  A leap second is left at its end, and the time
since its beginning counts as if it had been the second before. -/
def after (a : Instant) (nanos : Nat) : Instant :=
  if a.isLeap && a.nanos + nanos < 2 * nanosPerSecond then { a with nanos := a.nanos + nanos }
  else
    let total := (if a.isLeap then a.nanos - nanosPerSecond else a.nanos) + nanos
    { seconds := a.seconds + ↑(total / nanosPerSecond), nanos := total % nanosPerSecond }

/-- The day of an instant, counted from 1970-01-01. -/
def day (seconds : Int) : Int := seconds / secondsPerDay

/-- The second of the day. -/
def secondOfDay (seconds : Int) : Nat := (seconds % secondsPerDay).toNat

/-- The seconds that leap seconds put between `a` and `b`, which are seen within one day only. -/
def leapsBetween (a b : Instant) : Int :=
  let first := secondOfDay a.seconds
  let last := secondOfDay b.seconds
  if first < last && a.isLeap then 1
  else if last < first && b.isLeap then -1
  else 0

/-- The nanoseconds from `a` to `b`, none if `b` is not later. -/
def nanosTo (a b : Instant) : Nat :=
  ((b.seconds - a.seconds + leapsBetween a b) * nanosPerSecond + b.nanos - a.nanos).toNat

/-- A number with zeros in front up to the given width. -/
def padded (width n : Nat) : String :=
  let digits := toString n
  String.ofList (List.replicate (width - digits.length) '0') ++ digits

/-- The year with four digits, and with its sign outside 0 to 9999. -/
def yearText (year : Int) : String :=
  if year < 0 then "-" ++ padded 4 year.natAbs
  else if year ≤ 9999 then padded 4 year.toNat
  else "+" ++ padded 4 year.toNat

/-- Year, month and day. -/
def dateText (t : Instant) : String :=
  let date := Date.ofDayNumber (day t.seconds)
  yearText date.year ++ "-" ++ padded 2 date.month ++ "-" ++ padded 2 date.day

/-- The date and the time of the day in whole seconds. -/
def civilText (t : Instant) : String :=
  let s := secondOfDay t.seconds
  t.dateText ++ "T" ++ padded 2 (s / 3600) ++ ":" ++ padded 2 (s / 60 % 60) ++ ":"
    ++ padded 2 (s % 60)

/-- The RFC 3339 form of a whole second. -/
def text (t : Instant) : String := t.civilText ++ "+00:00"

/-- The time stamp of a log line, in microseconds. -/
def stamp (t : Instant) : String := t.civilText ++ "." ++ padded 6 (t.nanos / 1000) ++ "Z"

end Instant
end RecurringJobs
