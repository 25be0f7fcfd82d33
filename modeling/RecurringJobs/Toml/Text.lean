import RecurringJobs.Toml.Scalar

/-!
The four kinds of text of TOML 1.0.

The bodies are read with an explicit bound on the number of steps.  Every step takes at least one
character, so the length of the text is always enough.
-/

namespace RecurringJobs
namespace Toml

/-- The characters that may stand in a line: a tab, and everything that is no control. -/
def isPlain (c : Char) : Bool := c = '\t' || (0x20 ≤ c.toNat && c.toNat ≠ 0x7F)

def newline? : List Char → Option (List Char)
  | '\n' :: rest => some rest
  | '\r' :: '\n' :: rest => some rest
  | _ => none

def isSpace (c : Char) : Bool := c = ' ' || c = '\t'

def skipSpace (cs : List Char) : List Char := cs.dropWhile isSpace

/-- A character given by so many hexadecimal digits. -/
def codePoint? (count : Nat) (cs : List Char) : Option (Char × List Char) :=
  let ds := cs.take count
  if ds.length = count ∧ ds.all isHexDigit then
    let n := ofBase 16 ds
    if h : n.isValidChar then some (Char.ofNatAux n h, cs.drop count) else none
  else none

/-- What a backslash and the characters after it stand for. -/
def escape? : List Char → Option (Char × List Char)
  | 'b' :: rest => some ('\x08', rest)
  | 't' :: rest => some ('\t', rest)
  | 'n' :: rest => some ('\n', rest)
  | 'f' :: rest => some ('\x0c', rest)
  | 'r' :: rest => some ('\r', rest)
  | '"' :: rest => some ('"', rest)
  | '\\' :: rest => some ('\\', rest)
  | 'u' :: rest => codePoint? 4 rest
  | 'U' :: rest => codePoint? 8 rest
  | _ => none

/-- The text from the first character on that is neither a blank nor part of a newline. -/
def skipBlankLines : List Char → List Char
  | [] => []
  | '\r' :: '\n' :: rest => skipBlankLines rest
  | c :: rest => if isSpace c || c = '\n' then skipBlankLines rest else c :: rest

/-- A line that ends in a backslash is joined to the next character that is no blank. -/
def joinLine? (cs : List Char) : Option (List Char) :=
  (newline? (skipSpace cs)).map skipBlankLines

/-- The text up to the closing quote. -/
def basicBody : Nat → List Char → Option (List Char × List Char)
  | 0, _ => none
  | _, [] => none
  | _ + 1, '"' :: rest => some ([], rest)
  | fuel + 1, '\\' :: rest => do
    let (c, rest) ← escape? rest
    let (text, rest) ← basicBody fuel rest
    return (c :: text, rest)
  | fuel + 1, c :: rest =>
    if isPlain c then do
      let (text, rest) ← basicBody fuel rest
      return (c :: text, rest)
    else none

/-- A run of quotes inside a text of several lines: with three or more the text ends, and the ones
before the last three belong to it. -/
def closing? (quote : Char) (cs : List Char) : Option (List Char × List Char) :=
  let run := (cs.takeWhile (· = quote)).length
  if 3 ≤ run then
    let kept := min (run - 3) 2
    some (List.replicate kept quote, cs.drop (kept + 3))
  else none

def multiBasicBody : Nat → List Char → Option (List Char × List Char)
  | 0, _ => none
  | _, [] => none
  | fuel + 1, c :: rest =>
    match closing? '"' (c :: rest) with
    | some closed => some closed
    | none =>
      match newline? (c :: rest) with
      | some rest => do
        let (text, rest) ← multiBasicBody fuel rest
        return ('\n' :: text, rest)
      | none =>
        if c = '\\' then
          match escape? rest with
          | some (e, rest) => do
            let (text, rest) ← multiBasicBody fuel rest
            return (e :: text, rest)
          | none => do
            let rest ← joinLine? rest
            multiBasicBody fuel rest
        else if isPlain c then do
          let (text, rest) ← multiBasicBody fuel rest
          return (c :: text, rest)
        else none

def literalBody : List Char → Option (List Char × List Char)
  | [] => none
  | '\'' :: rest => some ([], rest)
  | c :: rest =>
    if isPlain c then do
      let (text, rest) ← literalBody rest
      return (c :: text, rest)
    else none

def multiLiteralBody : Nat → List Char → Option (List Char × List Char)
  | 0, _ => none
  | _, [] => none
  | fuel + 1, c :: rest =>
    match closing? '\'' (c :: rest) with
    | some closed => some closed
    | none =>
      match newline? (c :: rest) with
      | some rest => do
        let (text, rest) ← multiLiteralBody fuel rest
        return ('\n' :: text, rest)
      | none =>
        if isPlain c then do
          let (text, rest) ← multiLiteralBody fuel rest
          return (c :: text, rest)
        else none

/-- A newline right after the opening of a text of several lines is left out. -/
def openLine (cs : List Char) : List Char := (newline? cs).getD cs

/-- A text on one line. -/
def lineText? : List Char → Option (String × List Char)
  | '"' :: rest => (basicBody (rest.length + 1) rest).map fun p => (String.ofList p.1, p.2)
  | '\'' :: rest => (literalBody rest).map fun p => (String.ofList p.1, p.2)
  | _ => none

/-- A text of any kind. -/
def text? (cs : List Char) : Option (String × List Char) :=
  let made (p : List Char × List Char) : String × List Char := (String.ofList p.1, p.2)
  match cs with
  | '"' :: '"' :: '"' :: rest => (multiBasicBody (rest.length + 1) (openLine rest)).map made
  | '\'' :: '\'' :: '\'' :: rest => (multiLiteralBody (rest.length + 1) (openLine rest)).map made
  | _ => lineText? cs

end Toml
end RecurringJobs
