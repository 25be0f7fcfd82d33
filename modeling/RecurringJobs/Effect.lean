import RecurringJobs.Job
import RecurringJobs.Log.Event
import RecurringJobs.Lock.Basic

/-!
What calls do besides changing the state: the effects that a host carries out or reports.

Every call of the scheduler and its engine gives the list of its effects in order.  The calls that
reach the engine and the lock are among them, so that a history of effects shows all of both.
-/

namespace RecurringJobs

/-- What an engine runs when an entry is triggered. -/
inductive Callback (η : Type) where
  /-- A run of a job, gated by the lock. -/
  | job (e : Execution η)
  /-- A try to take or renew the lock. -/
  | refresh
  /-- Something that the host registered with the engine itself. -/
  | host (label : String)
deriving Repr, DecidableEq

/-- What is run once when the host is ready. -/
inductive ReadyCallback (η : Type) where
  /-- A run of a job, not gated by the lock. -/
  | job (e : Execution η)
  | host (label : String)
deriving Repr, DecidableEq

/-- A call that reaches an engine. -/
inductive EngineCall where
  /-- A registration, with the entry it made if it was not refused. -/
  | register (plan : String) (entry : Option Nat)
  | unregister (entry : Nat)
  | start
  | stop
deriving Repr, DecidableEq

/-- A call that reaches a lock and came back. -/
inductive LockCall where
  | tryLock (error : Option LockError)
  | tryUnlock (error : Option LockError)
  | hasLock (held : Bool)
deriving Repr, DecidableEq

inductive Effect (η : Type) where
  | log (e : LogEvent)
  | engine (c : EngineCall)
  | lock (c : LockCall)
  /-- A timer is armed: when its turn comes it begins to wait for an instant.  The number tells the
  timers of an engine apart. -/
  | arm (timer : Nat) (due : Instant)
  /-- A timer that has gone off waits for its next instant from now on. -/
  | wait (timer : Nat) (due : Instant)
  /-- Logged by a timer rather than by the call. -/
  | timerLog (e : LogEvent)
  /-- A callback is run in the background. -/
  | spawn (c : ReadyCallback η)
deriving Repr, DecidableEq

end RecurringJobs
