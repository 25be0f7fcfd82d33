/-!
Ready-made plans.
-/

namespace RecurringJobs
namespace Plan
namespace Preset

def everyMinute : String := "0 * * * * *"

def everyFiveMinutes : String := "0 */5 * * * *"

def everyHour : String := "@hourly"

def dailyAtMidnight : String := "@daily"

def mondayMorning : String := "0 0 9 * * Mon"

/-- A fixed delay in seconds. -/
def everySeconds (seconds : Nat) : String := s!"@every {seconds}s"

/-- Once a day at an hour and minute of universal time. -/
def dailyAt (hour minute : Nat) : String := s!"0 {minute} {hour} * * *"

end Preset
end Plan
end RecurringJobs
