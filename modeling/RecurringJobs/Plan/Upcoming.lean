import RecurringJobs.Plan.Basic

/-!
The triggers of a plan.

`Plan.next?` gives the trigger after an instant and `Plan.gather` some of them, each taken after the
one before.  A delay is counted from whole seconds, so all triggers are whole seconds.
`Plan.upcoming` is what is gathered as a list, as long as there can be a list of that length.
-/

namespace RecurringJobs
namespace Plan

/-- The longest delay that can be counted, in seconds. -/
def longestDelay : Nat := 9223372036854775

/-- The next trigger strictly after an instant, or none when the plan has no more. -/
def next? (plan : Plan) (start : Instant) : Except Cron.BeyondRange (Option Instant) :=
  match plan with
  | .every seconds =>
    let due := start.seconds + seconds
    .ok (if seconds ≤ longestDelay ∧ due ≤ Instant.latest then some { seconds := due } else none)
  | .cron schedule => schedule.next? start

/-- The triggers after an instant, each taken after the one before, until there are `count` of them or
there is none left. -/
def gather (plan : Plan) (start : Instant) : Nat → Except Cron.BeyondRange (List Instant)
  | 0 => .ok []
  | count + 1 => do
    match ← plan.next? start with
    | none => return []
    | some due => return due :: (← plan.gather due count)

/-- The largest number of instants for which room can be asked. -/
def longestList : Nat := 768614336404564650

/-- Why there is no list of triggers. -/
inductive ListFault where
  /-- The list would not fit into any memory. -/
  | tooLong
  /-- The search would leave the range of instants. -/
  | beyondRange
deriving Repr, DecidableEq

/-- The next `count` triggers after an instant, ascending.  There is room for all of them before the
first is looked for. -/
def upcoming (plan : Plan) (start : Instant) (count : Nat) : Except ListFault (List Instant) :=
  if longestList < count then .error .tooLong
  else (plan.gather start count).mapError fun _ => .beyondRange

/-- Why triggers cannot be listed. -/
inductive ListingError where
  | invalid (error : PlanError)
  | unlisted (fault : ListFault)
deriving Repr, DecidableEq

/-- Reads a plan and lists its triggers. -/
def parseNext (text : String) (start : Instant) (count : Nat) :
    Except ListingError (List Instant) :=
  match parse text with
  | .error error => .error (.invalid error)
  | .ok plan => (plan.upcoming start count).mapError .unlisted

end Plan
end RecurringJobs
