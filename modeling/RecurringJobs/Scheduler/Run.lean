import RecurringJobs.Scheduler.Lifecycle

/-!
One run of a job: the lock is asked, the handler is called, and the end is logged.

Whatever a handler does, its run ends with one of the ends of `RunEnd`, and nothing of it reaches
the engine.
-/

namespace RecurringJobs

variable {η : Type}

namespace Scheduler

/-- Whether a handler is to be called, and what is done to find out.  Without a lock every run
goes ahead; an ungated run does not ask. -/
def gate (s : Scheduler η) (now : Nat) (name : String) (gated : Bool) :
    Bool × List (Effect η) :=
  match gated, s.lock with
  | true, some lock =>
    if lock.hasLock now then
      (true, [.lock (.hasLock true), .log (.jobStarted name)])
    else (false, [.lock (.hasLock false), .log (.jobSkipped name)])
  | _, _ => (true, [.log (.jobStarted name)])

/-- What a handler is told. -/
def context (s : Scheduler η) (name : String) : JobContext :=
  { jobName := name, resolver := s.resolver }

end Scheduler

/-- What is logged when a run ends. -/
def RunEnd.effects (name : String) : RunEnd → List (Effect η)
  | completed => [.log (.jobCompleted name)]
  | failed e => [.log (.jobFailed name e.message), .log (.jobCompletedWithError name)]
  | panicked p => [.log (.jobPanicked name p.message), .log (.jobCompletedWithPanic name)]

end RecurringJobs
