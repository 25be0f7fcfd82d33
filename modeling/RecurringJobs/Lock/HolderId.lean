import RecurringJobs.Text.Quoted

/-!
Identities for holders that were not given one: random identifiers of version 4, which carry
122 random bits.
-/

namespace RecurringJobs
namespace HolderId

/-- The hexadecimal digits of a number, the given number of them. -/
def digits : Nat → Nat → List Char
  | 0, _ => []
  | count + 1, n => digits count (n / 16) ++ [(Nat.toDigits 16 (n % 16)).headD '0']

/-- The identifier that a random number gives. -/
def ofRandom (n : Nat) : String :=
  let high := digits 12 n
  let middle := digits 3 (n / Nat.pow 2 48)
  let low := digits 15 (n / Nat.pow 2 60)
  let variant := (Nat.toDigits 16 (8 + n / Nat.pow 2 120 % 4)).headD '8'
  String.ofList
    (high.take 8 ++ '-' :: high.drop 8 ++ '-' :: '4' :: middle ++ '-' :: variant :: low.take 3
      ++ '-' :: low.drop 3)

end HolderId
end RecurringJobs
