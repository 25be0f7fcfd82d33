import RecurringJobs.Log.Line
import RecurringJobs.Text.Alphanumeric
import RecurringJobs.Text.Blank
import RecurringJobs.Text.Digit
import RecurringJobs.Text.Pattern

/-!
Directives on which log lines are shown.

A directive is a level, a part of the program, or both with `=` between; a part alone lets every
level through.  Brackets after the part hold the name of a span, and in it braces hold the name of
a field that a line must have, with a pattern for its value after another `=`.

A directive is scanned without the blanks around it, while its parts are cut from the whole text at
the places that the scan gives.  So a level with a blank after it is no level but a part, and with a
blank before it all cuts are off by one.
-/

namespace RecurringJobs

/-- What a directive asks of the fields of a line. -/
structure FieldDemand where
  name : String
  /-- Whether the value matters too. -/
  hasValue : Bool := false
deriving Repr, DecidableEq

structure LogDirective where
  /-- The part, or all. -/
  target : Option String := none
  /-- The rank of the least severe level that is shown; zero shows nothing. -/
  rank : Nat := Level.trace.rank
  span : Option String := none
  field : Option FieldDemand := none
deriving Repr, DecidableEq

/-- Why a text is no directive. -/
inductive DirectiveFault where
  | malformed
  | level
  | field (fault : Pattern.Fault)
deriving Repr, DecidableEq

def DirectiveFault.message : DirectiveFault → String
  | malformed => "invalid filter directive"
  | level =>
    "error parsing level filter: expected one of \"off\", \"error\", \"warn\", \"info\", "
      ++ "\"debug\", \"trace\", or a number 0-5"
  | field fault => "invalid field filter: " ++ fault.message

namespace LogDirective

/-! ## Levels -/

/-- The rank that a number stands for. -/
def numberRank? (cs : List Char) : Option Nat :=
  let digits :=
    match cs with
    | '+' :: rest => rest
    | _ => cs
  if digits.isEmpty || !digits.all Text.isAsciiDigit then none
  else
    let n := Text.ofDigits digits
    if n ≤ Level.trace.rank then some n else none

/-- The rank of a level, in any letter case. -/
def rank? (s : String) : Option Nat :=
  match numberRank? s.toList with
  | some n => some n
  | none =>
    match String.ofList (s.toList.map Char.toLower) with
    | "" | "error" => some Level.error.rank
    | "warn" => some Level.warn.rank
    | "info" => some Level.info.rank
    | "debug" => some Level.debug.rank
    | "trace" => some Level.trace.rank
    | "off" => some 0
    | _ => none

/-- The level after the equals sign; none means every level. -/
def levelAfter (d : LogDirective) (s : String) : Except DirectiveFault LogDirective :=
  if s.isEmpty then .ok d
  else
    match rank? s with
    | some rank => .ok { d with rank }
    | none => .error .level

/-- A directive that is one word: a level, or else a part. -/
def ofWord (s : String) : LogDirective :=
  if s.isEmpty then {}
  else
    match rank? s with
    | some rank => { rank }
    | none => { target := some s }

/-! ## Values of fields -/

/-- Whether a text without a sign is a decimal number, with a point and an exponent at most, or the
name of a number that no digits write. -/
def isNumeral (cs : List Char) : Bool :=
  let whole := cs.takeWhile Text.isAsciiDigit
  let rest := cs.dropWhile Text.isAsciiDigit
  let (places, rest) :=
    match rest with
    | '.' :: rest => (rest.takeWhile Text.isAsciiDigit, rest.dropWhile Text.isAsciiDigit)
    | _ => ([], rest)
  let hasExponent (cs : List Char) : Bool :=
    match cs with
    | 'e' :: '+' :: cs | 'e' :: '-' :: cs | 'e' :: cs => !cs.isEmpty && cs.all Text.isAsciiDigit
    | _ => false
  let name := cs.map Char.toLower
  name = "inf".toList || name = "infinity".toList || name = "nan".toList
    || (!(whole.isEmpty && places.isEmpty)
      && (rest.isEmpty || hasExponent (rest.map Char.toLower)))

/-- A value is a number or a pattern.  A number with a plus sign is the only one that is no
pattern. -/
def checkValue (cs : List Char) : Except DirectiveFault Unit :=
  match cs with
  | '+' :: rest => if isNumeral rest then .ok () else .error (.field .malformed)
  | _ => (Pattern.ofText cs).mapError .field

/-- Reads what is asked of a field. -/
def demandOf (s : String) : Except DirectiveFault FieldDemand :=
  if s.isEmpty then .error .malformed
  else
    let name := String.ofList (s.toList.takeWhile (· ≠ '='))
    match s.toList.dropWhile (· ≠ '=') with
    | [] => .ok { name }
    | _ :: rest => (checkValue (rest.takeWhile (· ≠ '='))).map fun _ => { name, hasValue := true }

/-! ## Directives -/

/-- Where the scan of a directive stands.  A number is the place where the current piece began. -/
inductive Stage where
  | start
  | word (since : Nat)
  | span (since : Nat)
  | field (since : Nat)
  | afterField
  | afterSpan
  | level (since : Nat)
deriving Repr, DecidableEq

/-- A directive may begin with a letter or number of any script, or with one of three marks. -/
def isOpening (c : Char) : Bool :=
  c = '-' || c = ':' || c = '_' || Text.isAlphanumeric c

/-- The piece of a text between two places.  There is none where a place falls into a character. -/
def piece (text : ByteArray) (since until_ : Nat) : Except DirectiveFault String :=
  match String.fromUTF8? (text.extract since until_) with
  | some s => .ok s
  | none => .error .malformed

/-- Takes the character at a place. -/
def advance (text : ByteArray) (stage : Stage) (d : LogDirective) (place : Nat) (c : Char) :
    Except DirectiveFault (Stage × LogDirective) :=
  match stage with
  | .start =>
    if c = '[' then .ok (.span (place + 1), d)
    else if isOpening c then .ok (.word place, d)
    else .error .malformed
  | .word since =>
    if c = '=' then
      (piece text since place).map fun s => (.level (place + 1), { d with target := some s })
    else if c = '[' then
      (piece text since place).map fun s => (.span (place + 1), { d with target := some s })
    else .ok (stage, d)
  | .span since =>
    if c = ']' then (piece text since place).map fun s => (.afterSpan, { d with span := some s })
    else if c = '\x7b' then
      (piece text since place).map fun s =>
        (.field (place + 1), { d with span := if s.isEmpty then none else some s })
    else .ok (stage, d)
  | .field since =>
    if c = '\x7d' then do
      let demand ← demandOf (← piece text since place)
      return (.afterField, { d with field := some demand })
    else .ok (stage, d)
  | .afterField => if c = ']' then .ok (.afterSpan, d) else .error .malformed
  | .afterSpan => if c = '=' then .ok (.level (place + 1), d) else .error .malformed
  | .level _ => .ok (stage, d)

/-- Ends the scan. -/
def finish (text : ByteArray) (stage : Stage) (d : LogDirective) :
    Except DirectiveFault LogDirective :=
  match stage with
  | .word since => (piece text since text.size).map ofWord
  | .level since => (piece text since text.size).bind d.levelAfter
  | .afterSpan => .ok d
  | _ => .error .malformed

/-- Scans characters from a place on. -/
def scan (text : ByteArray) (stage : Stage) (d : LogDirective) (place : Nat) :
    List Char → Except DirectiveFault LogDirective
  | [] => finish text stage d
  | c :: cs => do
    let (stage, d) ← advance text stage d place c
    scan text stage d (place + c.utf8Size) cs

/-- Reads a directive. -/
def ofText (s : String) : Except DirectiveFault LogDirective :=
  scan s.toUTF8 .start {} 0 (Text.trim s.toList)

/-- Whether a directive is about a line.  A line stands in no span, and the values of its fields
are not looked at. -/
def concerns (d : LogDirective) (l : LogLine) : Bool :=
  d.span.isNone
    && (d.target.all fun target => l.source.startsWith target)
    && d.field.all fun field => !field.hasValue && l.fieldNames.contains field.name

/-- How specific a directive is: the length of its part counts first, then whether it asks for a
field. -/
def weight (d : LogDirective) : Nat :=
  2 * (match d.target with
    | none => 0
    | some target => target.utf8ByteSize + 1)
  + (if d.field.isSome then 1 else 0)

/-- Whether a directive counts before another that is about the same line.  Between two fields the
name that is greater decides, and a later directive replaces an equal one. -/
def yieldsTo (d later : LogDirective) : Bool :=
  d.weight < later.weight
    || (d.weight = later.weight
      && (d.field.map (·.name)).getD "" ≤ (later.field.map (·.name)).getD "")

end LogDirective
end RecurringJobs
