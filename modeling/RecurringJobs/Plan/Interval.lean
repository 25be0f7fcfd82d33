import RecurringJobs.Plan.Duration
import RecurringJobs.TimeUnit

/-!
The two spellings of a fixed delay: `@every` with a duration, and `every` with a number and a
unit in words.

`requested?` is the one place where a text is recognised as a fixed delay.  It gives the interval
as written, in nanoseconds, before anything is rounded or raised.
-/

namespace RecurringJobs
namespace Interval

/-- Why a text that is recognised as a fixed delay has no interval. -/
inductive Fault where
  | duration (text : String) (fault : Duration.Fault)
  | amount (fault : Text.NumberFault)
deriving Repr, DecidableEq

def Fault.message : Fault → String
  | duration _ .missing => "missing duration"
  | duration text .malformed => s!"invalid duration '{text}'"
  | duration text .badNumber => s!"invalid number in duration '{text}'"
  | duration text .outOfRange => s!"duration '{text}' out of range"
  | amount .foreignDigit => "invalid digit found in string"
  | amount .tooLarge => "number too large to fit in target type"

/-- Whether a character is a lower-case letter up to case.  The long s is a form of s. -/
def isLetterForm (letter c : Char) : Bool :=
  c.toLower = letter || (letter = 's' && c = 'ſ')

/-- What follows a word in any letter case. -/
def dropWord (word cs : List Char) : Option (List Char) :=
  match word, cs with
  | [], cs => some cs
  | _ :: _, [] => none
  | w :: word, c :: cs => if isLetterForm w c then dropWord word cs else none

/-- The words for a unit, the families in the order second, minute, hour, day. -/
def unitWords : List (List String) :=
  [["seconds", "second", "secs", "sec", "s"],
   ["minutes", "minute", "mins", "min", "m"],
   ["hours", "hour", "hrs", "hr", "h"],
   ["days", "day", "d"]]

def isUnitWord (cs : List Char) : Bool :=
  unitWords.flatten.any fun word => dropWord word.toList cs = some []

/-- The seconds of a unit, told by the first letter of its word.  What begins with none of the
letters of second, minute and hour is a day. -/
def unitSeconds (cs : List Char) : Nat :=
  match cs.head?.map Char.toLower with
  | some 's' => 1
  | some 'm' => 60
  | some 'h' => 3600
  | _ => 86400

/-- The digits and the unit of `every N unit`. -/
def inWords? (cs : List Char) : Option (List Char × List Char) :=
  match dropWord "every".toList cs with
  | none => none
  | some rest =>
    match rest.takeWhile Text.isBlank with
    | [] => none
    | _ =>
      let rest := rest.dropWhile Text.isBlank
      match rest.takeWhile Text.isDigit with
      | [] => none
      | digits =>
        let unit := (rest.dropWhile Text.isDigit).dropWhile Text.isBlank
        if isUnitWord unit then some (digits, unit) else none

/-- The seconds of a number of units, saturating at 64 bits. -/
def amountSeconds (digits unit : List Char) : Except Fault Nat :=
  match Text.readUpTo Text.maxWord64 0 digits with
  | .ok n => .ok (min (n * unitSeconds unit) Text.maxWord64)
  | .error fault => .error (.amount fault)

/-- The interval that a trimmed text asks for, in nanoseconds, if it is a fixed delay at all. -/
def requested? (cs : List Char) : Option (Except Fault Nat) :=
  match Text.dropLead "@every".toList cs with
  | some rest =>
    let text := Text.trim rest
    some ((Duration.parse text).mapError (.duration (String.ofList text)))
  | none =>
    match inWords? cs with
    | some (digits, unit) =>
      some ((amountSeconds digits unit).map (· * TimeUnit.nanosPerSecond))
    | none => none

end Interval
end RecurringJobs
