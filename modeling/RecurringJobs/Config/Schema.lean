/-!
The configuration of the program and its defaults.
-/

namespace RecurringJobs

structure SchedulerConfig where
  /-- The seconds between two tries to renew the lock, as configured. -/
  refreshSeconds : Nat := 60
deriving Repr, DecidableEq

/-- The seconds between two tries, never less than one. -/
def SchedulerConfig.interval (c : SchedulerConfig) : Nat := max 1 c.refreshSeconds

structure LoggingConfig where
  /-- What is logged when the environment does not say. -/
  level : String := "info"
  dir : Option String := none
deriving Repr, DecidableEq

structure LeaseConfig where
  enabled : Bool := false
  ttlSeconds : Nat := 90
  name : String := "jobhands"
deriving Repr, DecidableEq

structure JobConfig where
  name : String
  plan : String
  /-- What the job logs on every trigger. -/
  message : Option String := none
  /-- Paused as soon as it is added. -/
  paused : Bool := false
  /-- Run once when the process is ready. -/
  runOnReady : Bool := false
deriving Repr, DecidableEq

structure Config where
  scheduler : SchedulerConfig := {}
  logging : LoggingConfig := {}
  lease : LeaseConfig := {}
  jobs : List JobConfig := []
deriving Repr, DecidableEq

end RecurringJobs
