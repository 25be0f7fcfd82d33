import RecurringJobs.Text.Joining
import RecurringJobs.Text.Printable

/-!
The quoted form of a text in reports and log fields: double quotes around it, escapes for what
would not show, everything else as it is.
-/

namespace RecurringJobs
namespace Text

/-- Lower-case hexadecimal without leading zeros. -/
def hex (n : Nat) : String := String.ofList (Nat.toDigits 16 n)

/-- One character inside the quotes.  A joining mark is escaped too, since after the escape
before it, or after the opening quote, it would attach to that. -/
def quoteChar (c : Char) : String :=
  if c = '\x00' then "\\0"
  else if c = '\t' then "\\t"
  else if c = '\n' then "\\n"
  else if c = '\r' then "\\r"
  else if c = '"' then "\\\""
  else if c = '\\' then "\\\\"
  else if isJoining c || isInvisible c then "\\u\x7b" ++ hex c.toNat ++ "\x7d"
  else String.singleton c

/-- The text between double quotes, with escapes. -/
def quoted (s : String) : String :=
  "\"" ++ String.join (s.toList.map quoteChar) ++ "\""

end Text
end RecurringJobs
