import RecurringJobs.Text.Blank

/-!
Decimal digits.

A number in a plan is recognised by Unicode's class of decimal digits and read by ASCII's: the
digits of another script are seen as a number, and then refused.
-/

namespace RecurringJobs
namespace Text

/-- The zeros of the scripts: each begins a block of ten digits (Unicode's general category Nd). -/
def zeros : List Nat :=
  [0x30, 0x660, 0x6F0, 0x7C0, 0x966, 0x9E6, 0xA66, 0xAE6, 0xB66, 0xBE6, 0xC66, 0xCE6, 0xD66,
   0xDE6, 0xE50, 0xED0, 0xF20, 0x1040, 0x1090, 0x17E0, 0x1810, 0x1946, 0x19D0, 0x1A80, 0x1A90,
   0x1B50, 0x1BB0, 0x1C40, 0x1C50, 0xA620, 0xA8D0, 0xA900, 0xA9D0, 0xA9F0, 0xAA50, 0xABF0, 0xFF10,
   0x104A0, 0x10D30, 0x10D40, 0x11066, 0x110F0, 0x11136, 0x111D0, 0x112F0, 0x11450, 0x114D0,
   0x11650, 0x116C0, 0x116D0, 0x116DA, 0x11730, 0x118E0, 0x11950, 0x11BF0, 0x11C50, 0x11D50,
   0x11DA0, 0x11F50, 0x16130, 0x16A60, 0x16AC0, 0x16B50, 0x16D70, 0x1CCF0, 0x1D7CE, 0x1D7D8,
   0x1D7E2, 0x1D7EC, 0x1D7F6, 0x1E140, 0x1E2F0, 0x1E4F0, 0x1E5F1, 0x1E950, 0x1FBF0]
/-- A decimal digit of any script. -/
def isDigit (c : Char) : Bool := zeros.any fun z => z ≤ c.toNat && c.toNat < z + 10

def isAsciiDigit (c : Char) : Bool := '0' ≤ c && c ≤ '9'

/-- The value of an ASCII digit. -/
def digitValue (c : Char) : Nat := c.toNat - 48

/-- The number that ASCII digits write, the first the most significant. -/
def ofDigits (cs : List Char) : Nat := cs.foldl (fun n c => 10 * n + digitValue c) 0

/-- Why a run of digits is no number of the wanted size. -/
inductive NumberFault where
  | foreignDigit
  | tooLarge
deriving Repr, DecidableEq

/-- Reads digits into a number up to `limit`, starting from what earlier digits gave.  The digits
are taken one by one, so of two faults the one that comes first in the text is reported. -/
def readUpTo (limit : Nat) (sofar : Nat) : List Char → Except NumberFault Nat
  | [] => .ok sofar
  | c :: cs =>
    if !isAsciiDigit c then .error .foreignDigit
    else
      let n := 10 * sofar + digitValue c
      if n ≤ limit then readUpTo limit n cs else .error .tooLarge

/-- The largest value of a 64-bit word. -/
def maxWord64 : Nat := Nat.pow 2 64 - 1

/-- The largest value of a 32-bit word. -/
def maxWord32 : Nat := Nat.pow 2 32 - 1

end Text
end RecurringJobs
