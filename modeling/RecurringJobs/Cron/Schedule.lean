import RecurringJobs.Cron.Expression
import RecurringJobs.Instant

/-!
Cron schedules and the seconds they hold.

A second is held when its second, minute, hour, day of month, month, day of week and year are all
in the sets.  `Schedule.first?` looks for the earliest such second from a given one on: through the
years, months and days in order, and on the first day that is held and not over, through the times
of the day.
-/

namespace RecurringJobs
namespace Cron

/-- A schedule: the expression it was read from and its sets. -/
structure Schedule where
  source : String
  sets : Sets
deriving Repr, DecidableEq

/-- Why a text is no schedule. -/
structure ExpressionError where
  text : String
  misreading : Misreading
deriving Repr, DecidableEq

def ExpressionError.message (e : ExpressionError) : String :=
  e.misreading.report e.text.toList

def Schedule.parse (text : List Char) : Except ExpressionError Schedule :=
  match readSets text with
  | .ok sets => .ok { source := String.ofList text, sets }
  | .error misreading => .error { text := String.ofList text, misreading }

namespace Sets

/-- The first time of day in the sets from `low` on, in seconds.  Hours that are over by then are
passed over as a whole. -/
def firstTime? (s : Sets) (low : Nat) : Option Nat :=
  s.hours.findSome? fun h =>
    if (h + 1) * 3600 ≤ low then none
    else
      s.minutes.findSome? fun m =>
        s.seconds.findSome? fun sec =>
          let t := h * 3600 + m * 60 + sec
          if low ≤ t then some t else none

/-- Whether a date is one of the calendar and its day of the week is in the sets. -/
def holdsDate (s : Sets) (d : Date) : Bool :=
  d.day ≤ Date.daysInMonth d.year d.month && s.daysOfWeek.contains (Date.weekday d.dayNumber)

/-- The first second in the sets on the day `d`, no earlier than second `t` since 1970. -/
def firstOnDate? (s : Sets) (t : Int) (d : Date) : Option Int :=
  if s.holdsDate d then
    let today := Instant.day t
    let day := d.dayNumber
    if day < today then none
    else
      (s.firstTime? (if day = today then Instant.secondOfDay t else 0)).map fun time =>
        day * TimeUnit.secondsPerDay + time
  else none

/-- The first second in the sets from second `t` on.  Years before that of `t` are passed over as
a whole. -/
def first? (s : Sets) (t : Int) : Option Int :=
  let year := Date.yearOfDay (Instant.day t)
  s.years.findSome? fun (y : Nat) =>
    if (y : Int) < year then none
    else
      s.months.findSome? fun m =>
        s.daysOfMonth.findSome? fun d => s.firstOnDate? t { year := y, month := m, day := d }

end Sets

/-- A moment of which the following second can no longer be held. -/
structure BeyondRange where
deriving Repr, DecidableEq

/-- The first second that a schedule holds after an instant.  There is none after an instant before
year 0, and the search does not start from a second that cannot be held. -/
def Schedule.next? (s : Schedule) (start : Instant) : Except BeyondRange (Option Instant) :=
  let t := start.seconds + 1
  if Instant.latest < t then .error {}
  else if Date.yearOfDay (Instant.day t) < 0 then .ok none
  else .ok ((s.sets.first? t).map fun seconds => { seconds })

end Cron
end RecurringJobs
