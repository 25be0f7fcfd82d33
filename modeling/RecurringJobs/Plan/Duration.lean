import RecurringJobs.Text.Digit
import RecurringJobs.Binary64

/-!
Durations written as parts, such as `1h30m` or `2.5s`.

A part is a number and a unit with nothing between, before or after them.  The parts are read as
doubles and added up as doubles, in the order of the text, and the whole nanoseconds of the sum
are the duration.
-/

namespace RecurringJobs
namespace Duration

/-- The units of a part. -/
inductive Unit where
  | hours
  | minutes
  | seconds
  | millis
  | micros
  | nanos
deriving Repr, DecidableEq

namespace Unit

def nanoseconds : Unit → Nat
  | hours => 3600000000000
  | minutes => 60000000000
  | seconds => 1000000000
  | millis => 1000000
  | micros => 1000
  | nanos => 1

/-- The unit that the text begins with.  Milliseconds come before minutes, so that the longer
spelling wins. -/
def read? : List Char → Option (Unit × List Char)
  | 'h' :: rest => some (hours, rest)
  | 'm' :: 's' :: rest => some (millis, rest)
  | 'm' :: rest => some (minutes, rest)
  | 's' :: rest => some (seconds, rest)
  | 'u' :: 's' :: rest => some (micros, rest)
  | 'µ' :: 's' :: rest => some (micros, rest)
  | 'n' :: 's' :: rest => some (nanos, rest)
  | _ => none

end Unit

/-- A part as it is written. -/
structure Part where
  whole : List Char
  fraction : List Char
  unit : Unit
deriving Repr, DecidableEq

/-- The digits after a point, if there is a point with digits after it. -/
def fraction? : List Char → List Char × List Char
  | '.' :: rest =>
    match rest.takeWhile Text.isDigit with
    | [] => ([], '.' :: rest)
    | digits => (digits, rest.dropWhile Text.isDigit)
  | cs => ([], cs)

/-- The part that the text begins with. -/
def part? (cs : List Char) : Option (Part × List Char) :=
  match cs.takeWhile Text.isDigit with
  | [] => none
  | whole =>
    let tail := fraction? (cs.dropWhile Text.isDigit)
    (Unit.read? tail.2).map fun p => ({ whole, fraction := tail.1, unit := p.1 }, p.2)

namespace Part

/-- A part is a number when its digits are ASCII. -/
def isNumber (p : Part) : Bool :=
  p.whole.all Text.isAsciiDigit && p.fraction.all Text.isAsciiDigit

/-- The nanoseconds of a part: the number rounded to a double, then the product rounded. -/
def value (p : Part) : Binary64 :=
  (Binary64.ofDecimal (Text.ofDigits (p.whole ++ p.fraction)) p.fraction.length).scale
    p.unit.nanoseconds

end Part

/-- Why a text is no duration. -/
inductive Fault where
  | missing
  | malformed
  | badNumber
  | outOfRange
deriving Repr, DecidableEq

theorem fraction?_length (cs : List Char) : (fraction? cs).2.length ≤ cs.length := by
  unfold fraction?
  split
  · next rest =>
    split
    · exact Nat.le_refl _
    · have := (List.dropWhile_suffix (l := rest) Text.isDigit).length_le
      simp only [List.length_cons]
      omega
  · exact Nat.le_refl _

theorem Unit.read?_length {cs rest : List Char} {u : Unit} (h : Unit.read? cs = some (u, rest)) :
    rest.length < cs.length := by
  unfold Unit.read? at h
  split at h
  case h_8 => simp at h
  all_goals
    simp only [Option.some.injEq, Prod.mk.injEq] at h
    simp only [← h.2, List.length_cons]
    omega

/-- Every part takes something from the text. -/
theorem part?_length {cs rest : List Char} {p : Part} (h : part? cs = some (p, rest)) :
    rest.length < cs.length := by
  unfold part? at h
  split at h
  · simp at h
  · obtain ⟨q, hq, he⟩ := Option.map_eq_some_iff.1 h
    simp only [Prod.mk.injEq] at he
    have h1 := Unit.read?_length hq
    have h2 := fraction?_length (cs.dropWhile Text.isDigit)
    have h3 := (List.dropWhile_suffix (l := cs) Text.isDigit).length_le
    rw [← he.2]
    omega

/-- Adds the parts of a text to what came before them. -/
def total (sofar : Binary64) (cs : List Char) : Except Fault Binary64 :=
  if cs = [] then .ok sofar
  else
    match _h : part? cs with
    | none => .error .malformed
    | some (p, rest) =>
      if p.isNumber then total (sofar.add p.value) rest else .error .badNumber
termination_by cs.length
decreasing_by exact part?_length ‹part? cs = some (p, rest)›

/-- The nanoseconds that a text of parts writes, saturating at 64 bits.  The bound is looked at in
doubles, where it is `2 ^ 64`. -/
def parse (cs : List Char) : Except Fault Nat :=
  if cs = [] then .error .missing
  else
    match total (.finite 0) cs with
    | .error fault => .error fault
    | .ok sum =>
      if sum.atMost (Nat.pow 2 64) then .ok (min (sum.floor.getD 0) Text.maxWord64)
      else .error .outOfRange

end Duration
end RecurringJobs
