import RecurringJobs.Text.Alphanumeric
import RecurringJobs.Text.Digit

/-!
Which texts are regular expressions.

A pattern is read from left to right with two things kept in mind: how many groups are open, and
whether there is something that a repetition could repeat.  Nothing is matched here.

Bounded repetition and escapes with braces are left out: no pattern that is read here can hold a
closing brace, so an opening one outside a class is always a fault.
-/

namespace RecurringJobs
namespace Pattern

/-- Why a text cannot be used as a pattern. -/
inductive Fault where
  /-- It is no regular expression. -/
  | malformed
  /-- It speaks of the edges of words, which the matcher does not know. -/
  | wordEdge
deriving Repr, DecidableEq

def Fault.message : Fault → String
  | malformed => "error building NFA"
  | wordEdge =>
    "unsupported regex feature for DFAs: cannot build DFAs for regexes with Unicode word "
      ++ "boundaries; switch to ASCII word boundaries, or heuristically enable Unicode word "
      ++ "boundaries or use a different regex engine"

/-! ## Escapes -/

/-- What stands after a backslash. -/
inductive Escape where
  | literal (c : Char)
  | classOf
  | textEdge
  | wordEdge
deriving Repr, DecidableEq

/-- The number that hexadecimal digits write. -/
def hexValue? (cs : List Char) : Option Nat :=
  cs.foldl
    (fun n c =>
      n.bind fun n =>
        if Text.isAsciiDigit c then some (16 * n + Text.digitValue c)
        else if 'a' ≤ c && c ≤ 'f' then some (16 * n + (c.toNat - 87))
        else if 'A' ≤ c && c ≤ 'F' then some (16 * n + (c.toNat - 55))
        else none)
    (some 0)

/-- Whether a number is the code point of a character. -/
def isScalar (n : Nat) : Bool := n < 0xD800 || (0xDFFF < n && n < 0x110000)

/-- A character by its code point, in so many hexadecimal digits. -/
def codePoint? (width : Nat) (cs : List Char) : Option (Escape × List Char) :=
  if cs.length < width then none
  else
    match hexValue? (cs.take width) with
    | some n => if isScalar n then some (.literal (Char.ofNat n), cs.drop width) else none
    | none => none

/-- Reads what stands after a backslash. -/
def escape? : List Char → Option (Escape × List Char)
  | [] => none
  | 'x' :: cs => codePoint? 2 cs
  | 'u' :: cs => codePoint? 4 cs
  | 'U' :: cs => codePoint? 8 cs
  | c :: cs =>
    if c = 'p' || c = 'P' then
      match cs with
      | [] => none
      | name :: cs =>
        if "CLMNPSZclmnpsz".toList.contains name then some (.classOf, cs) else none
    else if "dDsSwW".toList.contains c then some (.classOf, cs)
    else if c = 'a' then some (.literal '\x07', cs)
    else if c = 'f' then some (.literal '\x0c', cs)
    else if c = 't' then some (.literal '\t', cs)
    else if c = 'n' then some (.literal '\n', cs)
    else if c = 'r' then some (.literal '\r', cs)
    else if c = 'v' then some (.literal '\x0b', cs)
    else if c = 'A' || c = 'z' then some (.textEdge, cs)
    else if c = 'b' || c = 'B' || c = '<' || c = '>' then some (.wordEdge, cs)
    else if c.isAlphanum || 0x80 ≤ c.toNat then none
    else some (.literal c, cs)

/-! ## Classes in brackets -/

/-- The names that may stand between the marks `[:` and `:]`. -/
def classNames : List String :=
  ["alnum", "alpha", "ascii", "blank", "cntrl", "digit", "graph", "lower", "print", "punct",
   "space", "upper", "word", "xdigit"]

/-- The text after a named class, of which the opening bracket is already read. -/
def afterNamedClass? (cs : List Char) : Option (List Char) :=
  match cs with
  | ':' :: cs =>
    let cs :=
      match cs with
      | '^' :: rest => rest
      | _ => cs
    let name := cs.takeWhile (· ≠ ':')
    match cs.dropWhile (· ≠ ':') with
    | ':' :: ']' :: rest => if classNames.contains (String.ofList name) then some rest else none
    | _ => none
  | _ => none

/-- The text after what may stand first in a class: the mark of its complement, dashes, and a
closing bracket that closes nothing. -/
def afterOpening (cs : List Char) : List Char :=
  let cs :=
    match cs with
    | '^' :: rest => rest
    | _ => cs
  match cs with
  | '-' :: _ => cs.dropWhile (· = '-')
  | ']' :: rest => rest
  | _ => cs

/-- One member of a class, with the character that it stands for if it is just one. -/
def member? : List Char → Option (Option Char × List Char)
  | [] => none
  | '\\' :: cs =>
    match escape? cs with
    | some (.literal c, rest) => some (some c, rest)
    | some (.classOf, rest) => some (none, rest)
    | _ => none
  | c :: cs => some (some c, cs)

/-- The text after a member or a range of a class. -/
def afterRange? (cs : List Char) : Option (List Char) :=
  match member? cs with
  | none => none
  | some (first, rest) =>
    match rest with
    | [] => none
    | ['-'] => none
    | '-' :: ']' :: _ => some rest
    | '-' :: '-' :: _ => some rest
    | '-' :: more =>
      match first, member? more with
      | some a, some (some b, rest) => if a ≤ b then some rest else none
      | _, _ => none
    | _ => some rest

/-- The text after the bracket that closes the outermost of `depth` classes. -/
def afterClass? : (fuel : Nat) → (depth : Nat) → List Char → Option (List Char)
  | 0, _, _ => none
  | fuel + 1, depth, cs =>
    match cs with
    | [] => none
    | ']' :: rest => if depth ≤ 1 then some rest else afterClass? fuel (depth - 1) rest
    | '[' :: rest =>
      match afterNamedClass? rest with
      | some rest => afterClass? fuel depth rest
      | none => afterClass? fuel (depth + 1) (afterOpening rest)
    | '&' :: '&' :: rest => afterClass? fuel depth rest
    | '-' :: '-' :: rest => afterClass? fuel depth rest
    | '~' :: '~' :: rest => afterClass? fuel depth rest
    | _ =>
      match afterRange? cs with
      | some rest => afterClass? fuel depth rest
      | none => none

/-! ## Groups -/

/-- What an opening parenthesis begins. -/
inductive Opening where
  | group (name : Option String)
  /-- Flags for what follows, with no group. -/
  | flags
deriving Repr, DecidableEq

/-- Whether a text can name a group. -/
def isGroupName (name : List Char) : Bool :=
  match name with
  | [] => false
  | c :: cs =>
    (c = '_' || (Text.isAlphanumeric c && !Text.isDigit c))
      && cs.all fun c => Text.isAlphanumeric c || "_.[]".toList.contains c

/-- Whether these are flags: each of them once, some of them after a minus sign. -/
def areFlags (cs : List Char) : Bool :=
  cs.all ("imsUuRx-".toList.contains ·) && cs.eraseDups.length = cs.length
    && cs.getLast? ≠ some '-'

/-- Reads what stands after an opening parenthesis. -/
def opening? (cs : List Char) : Option (Opening × List Char) :=
  let named (cs : List Char) : Option (Opening × List Char) :=
    let name := cs.takeWhile (· ≠ '>')
    match cs.dropWhile (· ≠ '>') with
    | _ :: rest => if isGroupName name then some (.group (String.ofList name), rest) else none
    | [] => none
  match cs with
  | '?' :: 'P' :: '<' :: cs => named cs
  | '?' :: '<' :: cs => named cs
  | '?' :: cs =>
    let flags := cs.takeWhile fun c => c ≠ ':' && c ≠ ')'
    if areFlags flags then
      match cs.dropWhile fun c => c ≠ ':' && c ≠ ')' with
      | ':' :: rest => some (.group none, rest)
      | _ :: rest => if flags.isEmpty then none else some (.flags, rest)
      | [] => none
    else none
  | cs => some (.group none, cs)

/-! ## Patterns -/

/-- What is known between two parts of a pattern. -/
structure Place where
  /-- How many groups are open. -/
  depth : Nat := 0
  /-- Whether a repetition may follow. -/
  repeatable : Bool := false
  /-- The names of groups so far. -/
  names : List String := []
  /-- Whether the edge of a word has been spoken of. -/
  wordEdge : Bool := false
deriving Repr, DecidableEq

/-- Reads one part of a pattern. -/
def part? (p : Place) : List Char → Option (Place × List Char)
  | [] => none
  | '(' :: cs =>
    match opening? cs with
    | some (.flags, rest) => some ({ p with repeatable := false }, rest)
    | some (.group none, rest) => some ({ p with depth := p.depth + 1, repeatable := false }, rest)
    | some (.group (some name), rest) =>
      if p.names.contains name then none
      else some ({ p with depth := p.depth + 1, repeatable := false, names := name :: p.names }, rest)
    | none => none
  | ')' :: cs =>
    if p.depth = 0 then none else some ({ p with depth := p.depth - 1, repeatable := true }, cs)
  | '|' :: cs => some ({ p with repeatable := false }, cs)
  | '[' :: cs =>
    (afterClass? (cs.length + 1) 1 (afterOpening cs)).map ({ p with repeatable := true }, ·)
  | '\x7b' :: _ => none
  | '\\' :: cs =>
    match escape? cs with
    | some (.wordEdge, rest) => some ({ p with repeatable := true, wordEdge := true }, rest)
    | some (_, rest) => some ({ p with repeatable := true }, rest)
    | none => none
  | c :: cs =>
    if c = '*' || c = '+' || c = '?' then
      if p.repeatable then
        match cs with
        | '?' :: rest => some (p, rest)
        | _ => some (p, cs)
      else none
    else some ({ p with repeatable := true }, cs)

/-- Reads a pattern to its end.  Each part takes a character at least, so the length of the text
bounds the number of parts. -/
def check (fuel : Nat) (p : Place) (cs : List Char) : Except Fault Unit :=
  match fuel, cs with
  | _, [] =>
    if p.depth ≠ 0 then .error .malformed
    else if p.wordEdge then .error .wordEdge
    else .ok ()
  | 0, _ => .error .malformed
  | fuel + 1, cs =>
    match part? p cs with
    | some (p, rest) => check fuel p rest
    | none => .error .malformed

/-- Whether a text is a pattern. -/
def ofText (cs : List Char) : Except Fault Unit := check cs.length {} cs

end Pattern
end RecurringJobs
