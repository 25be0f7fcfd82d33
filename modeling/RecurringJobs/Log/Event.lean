import RecurringJobs.Log.Line
import RecurringJobs.Lock.Lease
import RecurringJobs.Plan.Basic

/-!
What the scheduler and its parts log, as events with their data, and the line of each event.
-/

namespace RecurringJobs

/-- Why an engine did not register a plan. -/
inductive EngineError where
  | invalid (error : PlanError)
  /-- The engine takes no registrations at present. -/
  | rejected
deriving Repr, DecidableEq

def EngineError.message : EngineError → String
  | invalid error => error.message
  | rejected => "Engine error: registrations rejected"

inductive LogEvent where
  | entryRegistered (entry : Nat) (plan : String)
  | entryUnregistered (entry : Nat) (plan : String)
  | entryUnknown (entry : Nat)
  | entryExhausted (entry : Nat)
  | engineStarted (entries : Nat)
  | engineRestarted (entries : Nat)
  | engineStopped
  | engineAlreadyRunning
  | engineWithoutRuntime
  | leaseAcquired (lease holder : String)
  | readyQueued (pending : Nat)
  | serverReady (callbacks : Nat)
  | readyDropped
  | jobAdded (job plan : String) (entry : Nat)
  | jobQueued (job : String)
  | jobRemoved (job : String) (paused : Bool)
  | jobPaused (job : String)
  | jobContinued (job : String) (entry : Nat)
  | lockAcquired
  | lockNotAcquired (error : LockError)
  | refreshInstalled (plan : String) (entry : Nat)
  | refreshNotInstalled (plan : String) (error : EngineError)
  | schedulerStarted (jobs : Nat)
  | lockNotReleased (error : LockError)
  | schedulerStopped
  | jobSkipped (job : String)
  | jobStarted (job : String)
  | jobCompleted (job : String)
  | jobFailed (job error : String)
  | jobCompletedWithError (job : String)
  | jobPanicked (job panic : String)
  | jobCompletedWithPanic (job : String)
deriving Repr, DecidableEq

namespace LogEvent

/-- What is said where background work is asked for and there is nothing to run it. -/
def noRuntime : String :=
  "there is no reactor running, must be called from the context of a Tokio 1.x runtime"

private def num (name : String) (n : Nat) : LogField := { name, value := toString n }

private def shown (name value : String) : LogField := { name, value }

private def text (name value : String) : LogField := { name, value, isText := true }

private def engineLine (level : Level) (message : String) (fields : List LogField := []) :
    LogLine :=
  { level, source := "jobhands_engine::engine", message, fields }

private def signalLine (level : Level) (message : String) (fields : List LogField := []) :
    LogLine :=
  { level, source := "jobhands_core::lifecycle", message, fields }

private def registryLine (message : String) (fields : List LogField) : LogLine :=
  { level := .debug, source := "jobhands_scheduler::scheduler", message, fields }

private def lifecycleLine (level : Level) (message : String) (fields : List LogField := []) :
    LogLine :=
  { level, source := "jobhands_scheduler::lifecycle", message, fields }

private def runLine (level : Level) (message job : String) (fields : List LogField := [])
    (measured : List String := []) : LogLine :=
  { level, source := "jobhands_scheduler::execution", message,
    fields := shown "job" job :: fields, measured }

/-- What is measured of a run that has ended. -/
private def duration : List String := ["elapsed_ms"]

/-- The line of an event. -/
def line : LogEvent → LogLine
  | entryRegistered entry plan =>
    engineLine .debug "Entry registered" [num "entry_id" entry, text "plan" plan]
  | entryUnregistered entry plan =>
    engineLine .debug "Entry unregistered" [num "entry_id" entry, shown "plan" plan]
  | entryUnknown entry =>
    engineLine .debug "Unregister ignored, unknown entry" [num "entry_id" entry]
  | entryExhausted entry =>
    engineLine .debug "Entry has no upcoming trigger" [num "entry_id" entry]
  | engineStarted entries => engineLine .info "CronEngine started" [num "entries" entries]
  | engineRestarted entries => engineLine .info "CronEngine restarted" [num "entries" entries]
  | engineStopped => engineLine .info "CronEngine stopped"
  | engineAlreadyRunning => engineLine .warn "CronEngine is already running"
  | engineWithoutRuntime =>
    engineLine .error ("CronEngine must be started inside a Tokio runtime: " ++ noRuntime)
  | leaseAcquired lease holder =>
    { level := .debug, source := "jobhands_core::lease", message := "Lease acquired",
      fields := [shown "lease" lease, shown "holder" holder] }
  | readyQueued pending => signalLine .debug "Queued ready callback" [num "pending" pending]
  | serverReady callbacks => signalLine .info "Server ready" [num "callbacks" callbacks]
  | readyDropped => signalLine .error ("Ready callback dropped, no Tokio runtime: " ++ noRuntime)
  | jobAdded job plan entry =>
    registryLine "Job added" [shown "job" job, text "plan" plan, num "entry_id" entry]
  | jobQueued job => registryLine "Job queued for server ready" [shown "job" job]
  | jobRemoved job paused =>
    registryLine "Job removed" [shown "job" job, shown "paused" (toString paused)]
  | jobPaused job => registryLine "Job paused" [shown "job" job]
  | jobContinued job entry => registryLine "Job continued" [shown "job" job, num "entry_id" entry]
  | lockAcquired => lifecycleLine .debug "Lock acquired"
  | lockNotAcquired error =>
    lifecycleLine .warn "Failed to acquire lock" [shown "error" error.message]
  | refreshInstalled plan entry =>
    lifecycleLine .debug "Lock refresh installed" [shown "plan" plan, num "entry_id" entry]
  | refreshNotInstalled plan error =>
    lifecycleLine .error "Failed to install lock refresh"
      [shown "plan" plan, shown "error" error.message]
  | schedulerStarted jobs => lifecycleLine .info "Scheduler started" [num "jobs" jobs]
  | lockNotReleased error =>
    lifecycleLine .warn "Failed to release lock" [shown "error" error.message]
  | schedulerStopped => lifecycleLine .info "Scheduler stopped"
  | jobSkipped job => runLine .debug "Job skipped, lock not held" job
  | jobStarted job => runLine .debug "Job started" job
  | jobCompleted job => runLine .debug "Job completed" job [] duration
  | jobFailed job error => runLine .error "Job failed" job [shown "error" error] duration
  | jobCompletedWithError job => runLine .debug "Job completed with error" job [] duration
  | jobPanicked job panic => runLine .error "Job panicked" job [shown "panic" panic] duration
  | jobCompletedWithPanic job => runLine .debug "Job completed with panic" job [] duration

end LogEvent
end RecurringJobs
