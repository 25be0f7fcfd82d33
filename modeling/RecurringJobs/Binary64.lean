/-!
Non-negative doubles (IEEE 754 binary64, round to nearest, ties to even) in exact arithmetic.

A finite double is a whole number of the smallest subnormal, `2 ^ -1074`, so a natural number
stands for it and every operation is: compute exactly, then round once.  Nothing here rests on
the machine's own floats, so what is computed can also be reasoned about.
-/

namespace RecurringJobs

inductive Binary64 where
  /-- So many units of `2 ^ -1074`. -/
  | finite (units : Nat)
  | infinite
deriving Repr, DecidableEq

namespace Binary64

/-- The number one in units. -/
def one : Nat := Nat.pow 2 1074

/-- The first power of two that is too large, `2 ^ 1024`, in units. -/
def limit : Nat := Nat.pow 2 (1024 + 1074)

/-- The quotient rounded to nearest, an exact half to the even neighbour. -/
def roundDiv (n d : Nat) : Nat :=
  let q := n / d
  let r := n % d
  if 2 * r < d then q else if d < 2 * r then q + 1 else q + q % 2

/-- How many low bits of a number of this size lie below the 53 that a double keeps. -/
def spareBits (q : Nat) : Nat := q.log2 + 1 - 53

/-- The double nearest to `n / d` units. -/
def ofRatio (n d : Nat) : Binary64 :=
  let step := Nat.pow 2 (spareBits (n / d))
  let units := roundDiv n (d * step) * step
  if units < limit then .finite units else .infinite

/-- The double nearest to the decimal `n / 10 ^ places`. -/
def ofDecimal (n places : Nat) : Binary64 := ofRatio (n * one) (Nat.pow 10 places)

/-- The double that a natural number rounds to. -/
def ofNat (n : Nat) : Binary64 := ofDecimal n 0

/-- The rounded product with a natural number that is itself a double. -/
def scale (x : Binary64) (k : Nat) : Binary64 :=
  match x with
  | .finite u => ofRatio (u * k) 1
  | .infinite => .infinite

/-- The rounded sum. -/
def add (x y : Binary64) : Binary64 :=
  match x, y with
  | .finite u, .finite v => ofRatio (u + v) 1
  | _, _ => .infinite

/-- The whole part of a finite double. -/
def floor : Binary64 → Option Nat
  | .finite u => some (u / one)
  | .infinite => none

/-- Whether a double is at most the natural number `n`. -/
def atMost (x : Binary64) (n : Nat) : Bool :=
  match x with
  | .finite u => u ≤ n * one
  | .infinite => false

end Binary64
end RecurringJobs
