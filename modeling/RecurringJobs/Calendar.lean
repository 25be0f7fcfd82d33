/-!
The Gregorian calendar, extended to all years, over day numbers counted from 1970-01-01.

`Date.dayNumber` is the definition that the rest is measured by: days before the year, plus days
before the month, plus the day.  `Date.ofDayNumber` goes back.
-/

namespace RecurringJobs

structure Date where
  year : Int
  month : Nat
  day : Nat
deriving Repr, DecidableEq

namespace Date

def isLeap (year : Int) : Bool :=
  year % 4 = 0 && (year % 100 ≠ 0 || year % 400 = 0)

/-- The lengths of the twelve months. -/
def monthLengths (year : Int) : List Nat :=
  [31, if isLeap year then 29 else 28, 31, 30, 31, 30, 31, 31, 30, 31, 30, 31]

/-- The length of a month, counted from 1; no days outside the year. -/
def daysInMonth (year : Int) (month : Nat) : Nat :=
  if month = 0 then 0 else (monthLengths year)[month - 1]?.getD 0

/-- The days from the beginning of year 0 to the beginning of `year`: 365 for each year, and one
for each leap year before it. -/
def daysBeforeYear (year : Int) : Int :=
  365 * year + (year + 3) / 4 - (year + 99) / 100 + (year + 399) / 400

def daysBeforeMonth (year : Int) (month : Nat) : Nat :=
  ((monthLengths year).take (month - 1)).foldr (· + ·) 0

/-- The day number of 1970-01-01 when days are counted from year 0. -/
def epochDay : Int := 719528

/-- Days since 1970-01-01. -/
def dayNumber (d : Date) : Int :=
  daysBeforeYear d.year - epochDay + daysBeforeMonth d.year d.month + d.day - 1

/-- The months and days of the calendar, and no others. -/
def IsValid (d : Date) : Prop :=
  1 ≤ d.month ∧ d.month ≤ 12 ∧ 1 ≤ d.day ∧ d.day ≤ daysInMonth d.year d.month

/-- The year in which a day lies.  A year has 365.2425 days on average, so the quotient is off by
at most one. -/
def yearOfDay (n : Int) : Int :=
  let z := n + epochDay
  let guess := 400 * z / 146097
  if z < daysBeforeYear guess then guess - 1
  else if daysBeforeYear (guess + 1) ≤ z then guess + 1
  else guess

/-- Month and day from the days since the year began, given the lengths of the months from
`month` on. -/
def monthAndDay (month : Nat) : List Nat → Nat → Nat × Nat
  | [], rest => (month, rest + 1)
  | len :: lens, rest =>
    if rest < len then (month, rest + 1) else monthAndDay (month + 1) lens (rest - len)

/-- The date of a day number. -/
def ofDayNumber (n : Int) : Date :=
  let year := yearOfDay n
  let rest := (n + epochDay - daysBeforeYear year).toNat
  let md := monthAndDay 1 (monthLengths year) rest
  { year, month := md.1, day := md.2 }

/-- The day of the week, Sunday being 1 and Saturday 7. -/
def weekday (n : Int) : Nat := ((n + 4) % 7).toNat + 1

end Date
end RecurringJobs
