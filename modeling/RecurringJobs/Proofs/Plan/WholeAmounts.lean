import RecurringJobs.Proofs.Plan.DurationText
import RecurringJobs.Proofs.Rounding

/-!
Delays of whole amounts.

As long as the nanoseconds come to `2 ^ 53` at most, every number that is met on the way to their
sum is a double itself: the amounts, their products with the units and the sums of the first of
them.  So nothing is rounded and the delay is the one that was written, in whatever order and
however often a unit is used (`Plan.parse_amounts`).
-/

namespace RecurringJobs
namespace Duration

open Binary64

namespace Unit

def symbol : Unit → String
  | hours => "h"
  | minutes => "m"
  | seconds => "s"
  | millis => "ms"
  | micros => "us"
  | nanos => "ns"

def spelling : Unit → Spelling
  | hours => .hours
  | minutes => .minutes
  | seconds => .seconds
  | millis => .millis
  | micros => .micros
  | nanos => .nanos

theorem unit_spelling (u : Unit) : u.spelling.unit = u := by
  cases u <;> rfl

theorem text_spelling (u : Unit) : u.spelling.text = u.symbol.toList := by
  cases u <;> rfl

theorem nanoseconds_pos (u : Unit) : 0 < u.nanoseconds := by
  cases u <;> decide

end Unit

/-- The amounts one behind the other, each with its unit. -/
def amountsText (as : List (Nat × Unit)) : String :=
  String.join (as.map fun a => s!"{a.1}{a.2.symbol}")

def totalNanos : List (Nat × Unit) → Nat
  | [] => 0
  | (n, u) :: as => n * u.nanoseconds + totalNanos as

/-! ## Amounts as parts -/

def part (a : Nat × Unit) : PartText := .ofNat a.1 a.2.spelling

theorem text_part (a : Nat × Unit) : (part a).text = s!"{a.1}{a.2.symbol}".toList := by
  have hdigits : (toString a.1).toList = Nat.toDigits 10 a.1 := Nat.toList_repr
  show Nat.toDigits 10 a.1 ++ ([] ++ a.2.spelling.text) = (toString a.1 ++ a.2.symbol).toList
  rw [String.toList_append, hdigits, Unit.text_spelling, List.nil_append]

theorem texts_parts (as : List (Nat × Unit)) :
    String.ofList (texts (as.map part)) = amountsText as := by
  refine String.toList_inj.mp ?_
  rw [String.toList_ofList, amountsText, String.toList_join, texts, List.flatMap_map,
    List.flatMap_map]
  simp only [text_part]

/-! ## Their sum -/

theorem value_part {n : Nat} {u : Unit} (h : n * u.nanoseconds ≤ exactBelow) :
    (part (n, u)).part.value = .finite (n * u.nanoseconds * one) := by
  have hnumber : n ≤ exactBelow := by
    have hle := Nat.le_mul_of_pos_right n u.nanoseconds_pos
    omega
  rw [part, PartText.value_ofNat, ofNat_whole hnumber, Unit.unit_spelling, scale_whole h]

/-- The sum of the first amounts is a whole number, and what is added keeps it one. -/
theorem sumFrom_parts {m : Nat} {as : List (Nat × Unit)} (h : m + totalNanos as ≤ exactBelow) :
    sumFrom (.finite (m * one)) (as.map part) = .finite ((m + totalNanos as) * one) := by
  induction as generalizing m with
  | nil => rfl
  | cons a as ih =>
    obtain ⟨n, u⟩ := a
    rw [totalNanos] at h ⊢
    have hvalue := value_part (n := n) (u := u) (by omega)
    have hsum := add_whole (m := m) (n := n * u.nanoseconds) (by omega)
    have hrest := ih (m := m + n * u.nanoseconds) (by omega)
    rw [List.map_cons, sumFrom, List.foldl_cons, hvalue, hsum]
    rw [← Nat.add_assoc, ← hrest, sumFrom]

theorem sum_parts {as : List (Nat × Unit)} (h : totalNanos as ≤ exactBelow) :
    sum (as.map part) = .finite (totalNanos as * one) := by
  have hstart : 0 + totalNanos as ≤ exactBelow := by omega
  have hsum := sumFrom_parts hstart
  rwa [Nat.zero_mul, Nat.zero_add] at hsum

theorem exactBelow_le : exactBelow ≤ Text.maxWord64 := by decide

theorem parse_parts {as : List (Nat × Unit)} (hne : as ≠ []) (h : totalNanos as ≤ exactBelow) :
    parse (texts (as.map part)) = .ok (totalNanos as) := by
  have hword : totalNanos as ≤ Text.maxWord64 := Nat.le_trans h exactBelow_le
  have hrange : IsInRange (as.map part) := by
    have hpow : totalNanos as ≤ Nat.pow 2 64 := Nat.le_trans hword (by decide)
    exact ⟨_, sum_parts h, Nat.mul_le_mul_right one hpow⟩
  rw [parse_texts (by simpa using hne) hrange, sum_parts h, floor_whole, Option.getD_some,
    Nat.min_eq_left hword]

end Duration

namespace Plan

open Duration

theorem everyText_amount (n : Nat) (u : Duration.Unit) :
    everyText [part (n, u)] = s!"@every {n}{u.symbol}" := by
  have htext : String.ofList (texts [part (n, u)]) = s!"{n}{u.symbol}" := by
    rw [texts, List.flatMap_singleton, text_part, String.ofList_toList]
  rw [everyText, htext, String.append_assoc]
  rfl

theorem everyText_parts (as : List (Nat × Duration.Unit)) :
    everyText (as.map part) = "@every " ++ amountsText as := by
  rw [everyText, texts_parts]

/-- Whole amounts whose nanoseconds come to no more than `2 ^ 53` ask for exactly these, and make a
delay of the whole seconds in them, of one second at least. -/
theorem parse_amounts (as : List (Nat × Duration.Unit)) (hne : as ≠ [])
    (h : totalNanos as ≤ Nat.pow 2 53) :
    requestedInterval ("@every " ++ amountsText as) = some (totalNanos as) ∧
      parse ("@every " ++ amountsText as) =
        .ok (.every (max 1 (totalNanos as / TimeUnit.nanosPerSecond))) := by
  have hparse := parse_parts hne h
  rw [← everyText_parts]
  refine ⟨?_, ?_⟩
  · rw [requestedInterval_everyText, hparse]
    rfl
  · rw [parse_everyText, hparse]
    rfl

/-- The longest delay that is surely exact, its units in disorder and the seconds in two parts. -/
def longestExact : List (Nat × Duration.Unit) :=
  [(254, .millis), (992, .nanos), (50, .seconds), (2501, .hours), (740, .micros), (9, .seconds),
   (59, .minutes)]

theorem parse_longestExact :
    (longestExact ≠ [] ∧ totalNanos longestExact ≤ Nat.pow 2 53) ∧
      totalNanos longestExact = 9007199254740992 ∧
      requestedInterval "@every 254ms992ns50s2501h740us9s59m" = some 9007199254740992 ∧
      parse "@every 254ms992ns50s2501h740us9s59m" = .ok (.every 9007199) := by
  have hne : longestExact ≠ [] := by decide
  have hexact : totalNanos longestExact = 9007199254740992 := by decide
  have hle : totalNanos longestExact ≤ Nat.pow 2 53 := by decide
  have htext : "@every " ++ amountsText longestExact = "@every 254ms992ns50s2501h740us9s59m" := by
    decide +kernel
  obtain ⟨hasked, hparse⟩ := parse_amounts longestExact hne hle
  rw [htext, hexact] at hasked hparse
  exact ⟨⟨hne, hle⟩, hexact, hasked, hparse⟩

end Plan
end RecurringJobs
