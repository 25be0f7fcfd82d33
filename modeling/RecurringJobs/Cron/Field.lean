import RecurringJobs.Text.Digit

/-!
The seven fields of a cron schedule, the items a field is written with, and what they denote.

A field is a list of items; it holds a value when one of its items does.  `Item.values` gives
what an item denotes or the reason why it denotes nothing.
-/

namespace RecurringJobs
namespace Cron

inductive Field where
  | seconds
  | minutes
  | hours
  | daysOfMonth
  | months
  | daysOfWeek
  | years
deriving Repr, DecidableEq

namespace Field

def title : Field → String
  | seconds => "Seconds"
  | minutes => "Minutes"
  | hours => "Hours"
  | daysOfMonth => "Days of Month"
  | months => "Months"
  | daysOfWeek => "Days of Week"
  | years => "Years"

def least : Field → Nat
  | seconds | minutes | hours => 0
  | daysOfMonth | months | daysOfWeek => 1
  | years => 1970

def greatest : Field → Nat
  | seconds | minutes => 59
  | hours => 23
  | daysOfMonth => 31
  | months => 12
  | daysOfWeek => 7
  | years => 2100

/-- The values from `a` to `b`, both included. -/
def span (a b : Nat) : List Nat := List.range' a (b + 1 - a)

/-- Everything the field can hold, ascending. -/
def values (f : Field) : List Nat := span f.least f.greatest

def monthNames : List (List String) :=
  [["jan", "january"], ["feb", "february"], ["mar", "march"], ["apr", "april"], ["may"],
   ["jun", "june"], ["jul", "july"], ["aug", "august"], ["sep", "september"],
   ["oct", "october"], ["nov", "november"], ["dec", "december"]]

/-- The names of the days, Sunday first. -/
def dayNames : List (List String) :=
  [["sun", "sunday"], ["mon", "monday"], ["tue", "tues", "tuesday"], ["wed", "wednesday"],
   ["thu", "thurs", "thursday"], ["fri", "friday"], ["sat", "saturday"]]

end Field

/-- Why an item denotes nothing. -/
inductive FieldFault where
  | below (field : Field) (value : Nat)
  | above (field : Field) (value : Nat)
  | badSpan (field : Field) (first last : Nat)
  | badNamedSpan (field : Field) (first last : String)
  | zeroStep
  | badStep (field : Field) (step : Nat)
  | unknownMonth (name : String)
  | unknownDay (name : String)
  | noNames (field : Field) (name : String)
deriving Repr, DecidableEq

def FieldFault.message : FieldFault → String
  | below f n => s!"{f.title} must be greater than or equal to {f.least}. ('{n}' specified.)"
  | above f n => s!"{f.title} must be less than {f.greatest}. ('{n}' specified.)"
  | badSpan f a b => s!"Invalid range for {f.title}: {a}-{b}"
  | badNamedSpan f a b => s!"Invalid named range for {f.title}: {a}-{b}"
  | zeroStep => "range step cannot be zero"
  | badStep f n => s!"{f.title} must be between 1 and {f.greatest}. ('{n}' specified.)"
  | unknownMonth name => s!"'{name}' is not a valid month name."
  | unknownDay name => s!"'{name}' is not a valid day of the week."
  | noNames f name => s!"The '{f.title}' field does not support using names. '{name}' specified."

namespace Field

/-- A number that the field can hold. -/
def check (f : Field) (n : Nat) : Except FieldFault Nat :=
  if n < f.least then .error (.below f n)
  else if f.greatest < n then .error (.above f n)
  else .ok n

/-- The number that a name stands for, in any letter case. -/
def ofName (f : Field) (name : String) : Except FieldFault Nat :=
  let lower := name.toLower
  match f with
  | months =>
    match monthNames.findIdx? (·.contains lower) with
    | some i => .ok (i + 1)
    | none => .error (.unknownMonth name)
  | daysOfWeek =>
    match dayNames.findIdx? (·.contains lower) with
    | some i => .ok (i + 1)
    | none => .error (.unknownDay name)
  | _ => .error (.noNames f name)

end Field

/-- A run of values as it is written. -/
inductive Range where
  | all
  | point (n : Nat)
  | span (first last : Nat)
  | named (first last : String)
deriving Repr, DecidableEq

/-- An item of a field: a run, every so-many-th element of a run, or one name. -/
inductive Item where
  | run (r : Range)
  | stepped (r : Range) (step : Nat)
  | name (s : String)
deriving Repr, DecidableEq

/-- What a run denotes, ascending. -/
def Range.values (f : Field) : Range → Except FieldFault (List Nat)
  | all => .ok f.values
  | point n => do return [← f.check n]
  | span a b =>
    if (f.check a).isOk && (f.check b).isOk && a ≤ b then .ok (Field.span a b)
    else .error (.badSpan f a b)
  | named a b => do
    let first ← f.ofName a
    let last ← f.ofName b
    if first ≤ last then .ok (Field.span first last) else .error (.badNamedSpan f a b)

/-- The run that steps are taken in: a single number stands for everything from it on. -/
def Range.base (f : Field) : Range → Except FieldFault (List Nat)
  | point n => do return Field.span (← f.check n) f.greatest
  | r => r.values f

/-- The elements at the positions 0, `step`, `2 * step` and so on. -/
def everyNth (step : Nat) (xs : List Nat) : List Nat :=
  xs.zipIdx.filterMap fun p => if p.2 % step = 0 then some p.1 else none

/-- What an item denotes.  The step is looked at before the run it is taken in. -/
def Item.values (f : Field) : Item → Except FieldFault (List Nat)
  | run r => r.values f
  | stepped r step =>
    if step = 0 then .error .zeroStep
    else if f.greatest < step then .error (.badStep f step)
    else do return everyNth step (← r.base f)
  | name s => do return [← f.ofName s]

/-- The values of a field, ascending: those that some item denotes.  The first item in the text
that denotes nothing decides the fault. -/
def Field.evaluate (f : Field) (items : List Item) : Except FieldFault (List Nat) := do
  let sets ← items.mapM (·.values f)
  return f.values.filter fun v => sets.any (·.contains v)

end Cron
end RecurringJobs
