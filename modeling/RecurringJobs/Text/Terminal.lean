/-!
Texts for a terminal, without what would steer it.

A control sequence begins with the escape character and goes on for as long as its form allows; a
terminal shows nothing of it.  Where the output is no terminal, sequences and lone controls are left
out.  Characters beyond ASCII stand in no form, so inside a sequence they neither end it nor show.
-/

namespace RecurringJobs
namespace Text

/-- What part of a control sequence is being read. -/
inductive Sequence where
  /-- None. -/
  | ground
  /-- The escape character has been read. -/
  | escape
  /-- A mark between the escape character and the end has been read. -/
  | marked
  /-- The bracket of a sequence with parameters has been read. -/
  | parameters
  /-- A text for the terminal itself, up to a bell. -/
  | command
  /-- Another text for the terminal itself. -/
  | message
deriving Repr, DecidableEq

namespace Sequence

/-- Whether a character lies between two others, ends included. -/
def within (c first last : Char) : Bool := first ≤ c && c ≤ last

/-- What is being read after a character, if that changes. -/
def after? (s : Sequence) (c : Char) : Option Sequence :=
  if c = '\x18' || c = '\x1a' then some .ground
  else if c = '\x1b' then some .escape
  else
    match s with
    | .ground => none
    | .escape =>
      if c = '[' then some .parameters
      else if c = ']' then some .command
      else if c = 'P' || c = 'X' || c = '^' || c = '_' then some .message
      else if within c ' ' '/' then some .marked
      else if within c '0' '~' then some .ground
      else none
    | .marked => if within c '0' '~' then some .ground else none
    | .parameters => if within c '@' '~' then some .ground else none
    | .command => if c = '\x07' then some .ground else none
    | .message => none

/-- Whether a character shows itself, or is white space that a terminal acts on. -/
def shows (s : Sequence) (c : Char) : Bool :=
  let isSpace := c = '\t' || c = '\n' || c = '\x0c' || c = '\r'
  match s with
  | .ground => (' ' ≤ c && c ≠ '\x7f') || isSpace
  | .command | .message => false
  | _ => isSpace

end Sequence

/-- A text without control sequences.  White space inside a sequence ends it. -/
def stripped (s : Sequence) : List Char → List Char
  | [] => []
  | c :: cs =>
    if s.shows c then c :: stripped .ground cs
    else stripped ((s.after? c).getD s) cs

/-- A text as it is written where nothing can be steered. -/
def withoutControls (text : String) : String := String.ofList (stripped .ground text.toList)

end Text
end RecurringJobs
