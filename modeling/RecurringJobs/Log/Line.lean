import RecurringJobs.Text.Quoted

/-!
Log lines: a level, the part of the program that speaks, a message, and named fields.

A field may be marked as a text.  The plain form of a line shows all fields as they are; the
console form puts such texts in quotes.
-/

namespace RecurringJobs

inductive Level where
  | error
  | warn
  | info
  | debug
  | trace
deriving Repr, DecidableEq

namespace Level

def label : Level → String
  | error => "ERROR"
  | warn => "WARN"
  | info => "INFO"
  | debug => "DEBUG"
  | trace => "TRACE"

/-- The label at its full width, the words ending in one column. -/
def padded (l : Level) : String :=
  String.ofList (List.replicate (5 - l.label.length) ' ') ++ l.label

/-- The number of the colour in which the console shows a level. -/
def colour : Level → Nat
  | error => 31
  | warn => 33
  | info => 32
  | debug => 34
  | trace => 35

/-- The place of a level, the most severe first. -/
def rank : Level → Nat
  | error => 1
  | warn => 2
  | info => 3
  | debug => 4
  | trace => 5

end Level

structure LogField where
  name : String
  value : String
  isText : Bool := false
deriving Repr, DecidableEq

def LogField.shownValue (f : LogField) : String :=
  if f.isText then Text.quoted f.value else f.value

structure LogLine where
  level : Level
  source : String
  message : String
  fields : List LogField := []
  /-- Fields that the line has and does not show: measurements, which differ from run to run. -/
  measured : List String := []
deriving Repr, DecidableEq

namespace LogLine

/-- The names of all fields, of which the message is one. -/
def fieldNames (l : LogLine) : List String :=
  "message" :: l.fields.map LogField.name ++ l.measured

/-- The level, the message and the fields. -/
def plain (l : LogLine) : String :=
  " ".intercalate (l.level.label :: l.message :: l.fields.map fun f => f.name ++ "=" ++ f.value)

/-- A character of a message as a terminal may get it: those that would steer the terminal are
written out. -/
def harmless (c : Char) : String :=
  if c = '\x1b' then "\\x1b"
  else if c = '\x07' then "\\x07"
  else if c = '\x08' then "\\x08"
  else if c = '\x0c' then "\\x0c"
  else if c = '\x7f' then "\\x7f"
  else if 0x80 ≤ c.toNat && c.toNat ≤ 0x9F then "\\u\x7b" ++ Text.hex c.toNat ++ "\x7d"
  else String.singleton c

/-- The message without characters that would steer a terminal. -/
def shownMessage (l : LogLine) : String := String.join (l.message.toList.map harmless)

/-- The source, the message and the fields, with texts in quotes. -/
def body (l : LogLine) : String :=
  let shown (f : LogField) : String := f.name ++ "=" ++ f.shownValue
  " ".intercalate ((l.source ++ ":") :: l.shownMessage :: l.fields.map shown)

/-- The line as the console shows it, after the time and without colours. -/
def console (l : LogLine) : String := l.level.label ++ " " ++ l.body

/-- The line in a log file. -/
def stamped (l : LogLine) (time : String) : String :=
  time ++ " " ++ l.level.padded ++ " " ++ l.body

/-- A text between the marks of a style of the console. -/
def styled (style : Nat) (text : String) : String :=
  "\x1b[" ++ toString style ++ "m" ++ text ++ "\x1b[0m"

/-- The line on the console: the time, the source and the equals signs are dim, the names of the
fields slanted, and the level has its colour. -/
def coloured (l : LogLine) (time : String) : String :=
  let shown (f : LogField) : String := styled 3 f.name ++ styled 2 "=" ++ f.shownValue
  " ".intercalate
    (styled 2 time :: styled l.level.colour l.level.padded :: (styled 2 l.source ++ styled 2 ":")
      :: l.shownMessage :: l.fields.map shown)

end LogLine
end RecurringJobs
