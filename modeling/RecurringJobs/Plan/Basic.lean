import RecurringJobs.Plan.Interval
import RecurringJobs.Cron.Schedule

/-!
Plans: when a job is to run.

A plan is a fixed delay or a cron schedule.  `Plan.parse` reads one; the text is trimmed, then
tried as a fixed delay, as a descriptor, and as a cron expression, in this order, and the first
form that recognises it decides.
-/

namespace RecurringJobs

inductive Plan where
  /-- Every so many seconds, counted from the trigger before. -/
  | every (seconds : Nat)
  | cron (schedule : Cron.Schedule)
deriving Repr, DecidableEq

/-- Why a text is no plan. -/
inductive PlanFault where
  | empty
  | interval (fault : Interval.Fault)
  | unknownDescriptor (name : String)
  | fieldCount (count : Nat)
  | cron (error : Cron.ExpressionError)
deriving Repr, DecidableEq

def PlanFault.message : PlanFault → String
  | empty => "empty expression"
  | interval fault => fault.message
  | unknownDescriptor name => s!"unknown descriptor '{name}'"
  | fieldCount count => s!"expected 6 or 7 cron fields (seconds first), got {count}"
  | cron error => error.message

/-- A refused plan, with the text as it was given. -/
structure PlanError where
  plan : String
  fault : PlanFault
deriving Repr, DecidableEq

def PlanError.message (e : PlanError) : String := s!"Invalid plan '{e.plan}': {e.fault.message}"

namespace Plan

/-- The cron expression that a descriptor stands for. -/
def descriptor? (name : String) : Option String :=
  match name with
  | "@yearly" | "@annually" => some "0 0 0 1 1 *"
  | "@monthly" => some "0 0 0 1 * *"
  | "@weekly" => some "0 0 0 * * Sun"
  | "@daily" | "@midnight" => some "0 0 0 * * *"
  | "@hourly" => some "0 0 * * * *"
  | _ => none

/-- Whole seconds, and at least one. -/
def normalizedSeconds (nanos : Nat) : Nat := max 1 (nanos / TimeUnit.nanosPerSecond)

/-- Reads a cron expression.  The words are counted first, so that a text with too few of them is
told so. -/
def readCron (text : List Char) : Except PlanFault Plan :=
  let count := Text.wordCount text
  if count = 6 ∨ count = 7 then
    match Cron.Schedule.parse text with
    | .ok schedule => .ok (.cron schedule)
    | .error error => .error (.cron error)
  else .error (.fieldCount count)

/-- Reads a trimmed text. -/
def read (text : List Char) : Except PlanFault Plan :=
  if text = [] then .error .empty
  else
    match Interval.requested? text with
    | some (.ok nanos) => .ok (.every (normalizedSeconds nanos))
    | some (.error fault) => .error (.interval fault)
    | none =>
      match text with
      | '@' :: _ =>
        match descriptor? (String.ofList text) with
        | some expression => readCron expression.toList
        | none => .error (.unknownDescriptor (String.ofList text))
      | _ => readCron text

/-- Reads a plan. -/
def parse (text : String) : Except PlanError Plan :=
  (read (Text.trim text.toList)).mapError fun fault => { plan := text, fault }

/-- The interval that a fixed delay asks for as it is written, in nanoseconds. -/
def requestedInterval (text : String) : Option Nat :=
  match Interval.requested? (Text.trim text.toList) with
  | some (.ok nanos) => some nanos
  | _ => none

end Plan
end RecurringJobs
