import RecurringJobs.Config.Variables
import RecurringJobs.Text.Digit

/-!
What the command line asks for.

The arguments are read from left to right.  An option has its value behind an equals sign, right
behind its letter, or in the next argument; a question for help is answered as soon as it is met,
and anything wrong before it is told instead.
-/

namespace RecurringJobs

/-- What help can be asked for about. -/
inductive HelpTopic where
  | program
  | run
  | next
  | check
  | help
deriving Repr, DecidableEq

inductive Request where
  | run (config : Option String)
  | next (plan : String) (count : Nat)
  | check (config : Option String)
  | help (topic : HelpTopic)
  | version
deriving Repr, DecidableEq

namespace Request

/-- The name of the variable that stands in for the option of the configuration file. -/
def configVariable : String := "JOBHANDS_CONFIG"

/-- How many triggers are listed when no number is given. -/
def usualCount : Nat := 5

/-- The option of a command and the number of other arguments that it takes. -/
structure Form (α : Type) where
  letter : Char
  word : String
  read? : String → Option α
  places : Nat

/-- What was found among the arguments of a command. -/
structure Found (α : Type) where
  value : Option α := none
  others : List String := []

inductive Scan (α : Type) where
  | help
  | found (f : Found α)

variable {α : Type}

/-- Takes the value of the option, which is given once at most. -/
def Found.withValue? (f : Found α) (form : Form α) (text : String) : Option (Found α) :=
  match f.value with
  | some _ => none
  | none => (form.read? text).map fun value => { f with value := some value }

/-- Takes an argument that is no option. -/
def Found.withOther? (f : Found α) (form : Form α) (text : String) : Option (Found α) :=
  if f.others.length < form.places then some { f with others := f.others ++ [text] } else none

/-- What an argument is. -/
inductive Word where
  | other
  | endOfOptions
  | help
  /-- The option, with its value if that is in the same argument. -/
  | option (value : Option String)
  | unknown

/-- The value in a text that follows a letter; an equals sign before it is passed over. -/
def attached (cs : List Char) : Option String :=
  match cs with
  | [] => none
  | '=' :: rest => some (String.ofList rest)
  | _ => some (String.ofList cs)

/-- Tells what an argument is. -/
def Form.classify (form : Form α) (text : String) : Word :=
  match text.toList with
  | ['-'] => .other
  | ['-', '-'] => .endOfOptions
  | '-' :: '-' :: rest =>
    let name := String.ofList (rest.takeWhile (· ≠ '='))
    match rest.dropWhile (· ≠ '=') with
    | _ :: value => if name = form.word then .option (some (String.ofList value)) else .unknown
    | [] =>
      if name = form.word then .option none
      else if name = "help" then .help
      else .unknown
  | '-' :: c :: rest =>
    if c = form.letter then .option (attached rest)
    else if c = 'h' then .help
    else .unknown
  | _ => .other

/-- Reads the arguments of a command. -/
def scan (form : Form α) (f : Found α) : List String → Option (Scan α)
  | [] => some (.found f)
  | text :: rest =>
    match form.classify text with
    | .other => (f.withOther? form text).bind fun f => scan form f rest
    | .endOfOptions =>
      (rest.foldlM (fun (f : Found α) text => f.withOther? form text) f).map .found
    | .help => some .help
    | .option (some value) => (f.withValue? form value).bind fun f => scan form f rest
    | .option none =>
      match rest with
      | [] => none
      | value :: rest =>
        match form.classify value with
        | .other => (f.withValue? form value).bind fun f => scan form f rest
        | _ => none
    | .unknown => none

/-- A path is not empty. -/
def readPath? (text : String) : Option String := if text.isEmpty then none else some text

/-- A number of 64 bits in decimal, possibly with a plus sign. -/
def readCount? (text : String) : Option Nat :=
  let digits :=
    match text.toList with
    | '+' :: rest => rest
    | cs => cs
  if digits.isEmpty || !digits.all Text.isAsciiDigit then none
  else
    let n := Text.ofDigits digits
    if n ≤ Text.maxWord64 then some n else none

def configForm : Form String := { letter := 'c', word := "config", read? := readPath?, places := 0 }

def countForm : Form Nat := { letter := 'n', word := "count", read? := readCount?, places := 1 }

/-- Reads the arguments of a command that takes a configuration file. -/
def ofConfigArguments (env : Environment) (topic : HelpTopic)
    (make : Option String → Request) (args : List String) : Option Request :=
  match scan configForm {} args with
  | some .help => some (help topic)
  | some (.found f) =>
    match f.value, env.text? configVariable with
    | some path, _ => some (make (some path))
    | none, some text => (readPath? text).map fun path => make (some path)
    | none, none => some (make none)
  | none => none

def ofNextArguments (args : List String) : Option Request :=
  match scan countForm {} args with
  | some .help => some (help .next)
  | some (.found f) => f.others.head?.map fun plan => next plan (f.value.getD usualCount)
  | none => none

/-- Reads what stands after the word for help. -/
def ofHelpArguments (args : List String) : Option Request :=
  match args with
  | [] => some (help .program)
  | ["run"] => some (help .run)
  | ["next"] => some (help .next)
  | ["check"] => some (help .check)
  | ["help"] => some (help .help)
  | _ => none

/-- What the arguments ask for, unless they are misused. -/
def ofArguments (env : Environment) (args : List String) : Option Request :=
  match args with
  | "run" :: rest => ofConfigArguments env .run run rest
  | "next" :: rest => ofNextArguments rest
  | "check" :: rest => ofConfigArguments env .check check rest
  | "help" :: rest => ofHelpArguments rest
  | "--help" :: _ => some (help .program)
  | "--version" :: _ => some version
  | text :: _ =>
    match text.toList with
    | '-' :: 'h' :: _ => some (help .program)
    | '-' :: 'V' :: _ => some version
    | _ => none
  | [] => none

end Request
end RecurringJobs
