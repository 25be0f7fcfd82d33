import RecurringJobs.Binary64
import RecurringJobs.Calendar
import RecurringJobs.Text.Digit

/-!
Numbers, dates and times of TOML 1.0.

Each reader takes the text before it and gives what it read with the rest, or nothing.  What a
value is followed by is not looked at here: digits that are left over make the line around the
value wrong.
-/

namespace RecurringJobs
namespace Toml

/-- A scalar value.  Nothing in this library asks which float or which time was written. -/
inductive Scalar where
  | int (n : Int)
  | float
  | flag (b : Bool)
  | time
deriving Repr, DecidableEq

/-- The text after a word. -/
def word? (word : String) (cs : List Char) : Option (List Char) := Text.dropLead word.toList cs

/-! ## Digits -/

def isHexDigit (c : Char) : Bool :=
  Text.isAsciiDigit c || ('a' ≤ c && c ≤ 'f') || ('A' ≤ c && c ≤ 'F')

def hexValue (c : Char) : Nat :=
  if Text.isAsciiDigit c then Text.digitValue c
  else if 'a' ≤ c then c.toNat - 'a'.toNat + 10
  else c.toNat - 'A'.toNat + 10

/-- The number that digits of a base write. -/
def ofBase (base : Nat) (cs : List Char) : Nat := cs.foldl (fun n c => base * n + hexValue c) 0

/-- Digits of a class, with single underscores between them. -/
def digitsTail (p : Char → Bool) : List Char → List Char × List Char
  | [] => ([], [])
  | c :: cs =>
    if p c then
      let tail := digitsTail p cs
      (c :: tail.1, tail.2)
    else
      match c, cs with
      | '_', d :: rest =>
        if p d then
          let tail := digitsTail p rest
          (d :: tail.1, tail.2)
        else ([], c :: cs)
      | _, _ => ([], c :: cs)

/-- At least one digit, then more with underscores between them. -/
def digits? (p : Char → Bool) (cs : List Char) : Option (List Char × List Char) :=
  match cs with
  | c :: _ => if p c then some (digitsTail p cs) else none
  | [] => none

/-- The sign, true for minus, and the rest. -/
def sign? : List Char → Option Bool × List Char
  | '+' :: rest => (some false, rest)
  | '-' :: rest => (some true, rest)
  | cs => (none, cs)

/-! ## Integers -/

/-- The digits of a decimal integer: a zero stands alone. -/
def decimal? (cs : List Char) : Option (List Char × List Char) :=
  match cs with
  | '0' :: rest => some (['0'], rest)
  | _ => digits? Text.isAsciiDigit cs

/-- An integer is kept in 64 bits with a sign. -/
def inWord (n : Int) : Bool := -0x8000000000000000 ≤ n && n < 0x8000000000000000

def based? (lead : String) (base : Nat) (p : Char → Bool) (cs : List Char) :
    Option (Int × List Char) :=
  match (word? lead cs).bind (digits? p) with
  | some (digits, rest) => some (ofBase base digits, rest)
  | none => none

def anyInteger? (cs : List Char) : Option (Int × List Char) :=
  match based? "0x" 16 isHexDigit cs with
  | some r => some r
  | none =>
    match based? "0o" 8 (fun c => '0' ≤ c && c ≤ '7') cs with
    | some r => some r
    | none =>
      match based? "0b" 2 (fun c => c = '0' || c = '1') cs with
      | some r => some r
      | none =>
        let (sign, rest) := sign? cs
        match decimal? rest with
        | some (digits, rest) =>
          let n : Int := Text.ofDigits digits
          some (if sign = some true then -n else n, rest)
        | none => none

def integer? (cs : List Char) : Option (Scalar × List Char) :=
  match anyInteger? cs with
  | some (n, rest) => if inWord n then some (.int n, rest) else none
  | none => none

/-! ## Floats -/

def exponent? : List Char → Option ((Bool × List Char) × List Char)
  | 'e' :: cs | 'E' :: cs =>
    let (sign, rest) := sign? cs
    (digits? Text.isAsciiDigit rest).map fun p => ((sign = some true, p.1), p.2)
  | _ => none

def fraction? : List Char → Option (List Char × List Char)
  | '.' :: cs => digits? Text.isAsciiDigit cs
  | _ => none

/-- Whether a number in scientific form is too large for a double.  With its point after
`whole.length + exponent` digits it is at least a power of ten that tells, unless the exponent is
near the limit. -/
def overflows (whole fraction : List Char) (down : Bool) (exponent : List Char) : Bool :=
  let n := Text.ofDigits (whole ++ fraction)
  let e := Text.ofDigits exponent
  if n = 0 || down then
    n ≠ 0 && (e < whole.length) && Binary64.ofDecimal n (fraction.length + e) = .infinite
  else if 400 + fraction.length < e then true
  else Binary64.ofRatio (n * Nat.pow 10 e * Binary64.one) (Nat.pow 10 fraction.length) = .infinite

/-- A float has a fraction or an exponent, and is not above the largest double. -/
def number? (cs : List Char) : Option (Scalar × List Char) :=
  let (sign, rest) := sign? cs
  match decimal? rest with
  | none => none
  | some (whole, rest) =>
    let fits (fraction : List Char) (down : Bool) (exponent rest : List Char) :
        Option (Scalar × List Char) :=
      if sign = some true || !overflows whole fraction down exponent then some (.float, rest)
      else none
    match exponent? rest with
    | some ((down, exponent), rest) => fits [] down exponent rest
    | none =>
      match fraction? rest with
      | none => none
      | some (fraction, rest) =>
        match exponent? rest with
        | some ((down, exponent), rest) => fits fraction down exponent rest
        | none => fits fraction false [] rest

def float? (cs : List Char) : Option (Scalar × List Char) :=
  match number? cs with
  | some r => some r
  | none =>
    let rest := (sign? cs).2
    match word? "inf" rest with
    | some rest => some (.float, rest)
    | none => (word? "nan" rest).map fun rest => (.float, rest)

/-! ## Dates and times -/

/-- A number of so many digits. -/
def fixed? (count : Nat) (cs : List Char) : Option (Nat × List Char) :=
  let ds := cs.take count
  if ds.length = count ∧ ds.all Text.isAsciiDigit then some (Text.ofDigits ds, cs.drop count)
  else none

def sep? (c : Char) : List Char → Option (List Char)
  | d :: rest => if c = d then some rest else none
  | [] => none

def date? (cs : List Char) : Option (List Char) := do
  let (year, cs) ← fixed? 4 cs
  let cs ← sep? '-' cs
  let (month, cs) ← fixed? 2 cs
  let cs ← sep? '-' cs
  let (day, cs) ← fixed? 2 cs
  guard (1 ≤ month ∧ month ≤ 12 ∧ 1 ≤ day ∧ day ≤ Date.daysInMonth year month)
  return cs

def timeOfDay? (cs : List Char) : Option (List Char) := do
  let (hour, cs) ← fixed? 2 cs
  let cs ← sep? ':' cs
  let (minute, cs) ← fixed? 2 cs
  let cs ← sep? ':' cs
  let (second, cs) ← fixed? 2 cs
  guard (hour ≤ 23 ∧ minute ≤ 59 ∧ second ≤ 60)
  match cs with
  | '.' :: c :: rest =>
    if Text.isAsciiDigit c then return rest.dropWhile Text.isAsciiDigit else return cs
  | _ => return cs

/-- The difference from universal time, if one is written. -/
def zone (cs : List Char) : List Char :=
  match cs with
  | 'Z' :: rest | 'z' :: rest => rest
  | c :: rest =>
    if c = '+' ∨ c = '-' then
      match fixed? 2 rest with
      | some (hours, ':' :: rest) =>
        match fixed? 2 rest with
        | some (minutes, rest) => if hours ≤ 23 ∧ minutes ≤ 59 then rest else cs
        | none => cs
      | _ => cs
    else cs
  | [] => cs

/-- A date, a time, or both. -/
def time? (cs : List Char) : Option (Scalar × List Char) :=
  match date? cs with
  | some rest =>
    match rest with
    | c :: after =>
      if c = 'T' ∨ c = 't' ∨ c = ' ' then
        match timeOfDay? after with
        | some after => some (.time, zone after)
        | none => some (.time, rest)
      else some (.time, rest)
    | [] => some (.time, rest)
  | none => (timeOfDay? cs).map fun rest => (.time, rest)

/-- A value that is neither text nor made of others.  A time is tried before a float and a float
before an integer, since they begin alike. -/
def scalar? (cs : List Char) : Option (Scalar × List Char) :=
  match word? "true" cs with
  | some rest => some (.flag true, rest)
  | none =>
    match word? "false" cs with
    | some rest => some (.flag false, rest)
    | none =>
      match time? cs with
      | some r => some r
      | none =>
        match float? cs with
        | some r => some r
        | none => integer? cs

end Toml
end RecurringJobs
