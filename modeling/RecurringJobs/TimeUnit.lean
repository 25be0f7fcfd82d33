/-!
The lengths of the units in which time is kept: instants in seconds and nanoseconds, leases in
nanoseconds, the time of a rehearsal in milliseconds.
-/

namespace RecurringJobs
namespace TimeUnit

def nanosPerSecond : Nat := 1000000000

def nanosPerMilli : Nat := 1000000

def secondsPerDay : Int := 86400

end TimeUnit
end RecurringJobs
