import RecurringJobs.Proofs.Plan.InWords
import RecurringJobs.Proofs.Plan.LongDelays

/-!
The two spellings of a delay.

In words a delay is counted in whole seconds, as far as 64 bits go.  Behind `@every` it is counted in
doubles of nanoseconds, as far as 64 bits of these go.  So the two spellings of a number of seconds,
minutes or hours part where the doubles do: where the nanoseconds are rounded down a second is lost,
and above `Duration.longestSeconds` there is no delay at all (`Plan.sameDelay_iff`).
-/

namespace RecurringJobs
namespace Interval

open Text

/-- The units that both spellings have. -/
inductive ClockUnit where
  | second
  | minute
  | hour
deriving DecidableEq

namespace ClockUnit

def family : ClockUnit → Family
  | second => .second
  | minute => .minute
  | hour => .hour

def unit : ClockUnit → Duration.Unit
  | second => .seconds
  | minute => .minutes
  | hour => .hours

def seconds (u : ClockUnit) : Nat := u.family.seconds

theorem nanoseconds_unit (u : ClockUnit) :
    u.unit.nanoseconds = u.seconds * TimeUnit.nanosPerSecond := by
  cases u <;> rfl

end ClockUnit

end Interval

namespace Plan

open Text Duration TimeUnit
open RecurringJobs.Interval

/-! ## In words -/

theorem normalizedSeconds_mul (n : Nat) : normalizedSeconds (n * nanosPerSecond) = max 1 n := by
  rw [normalizedSeconds, Nat.mul_div_cancel n (by decide)]

theorem parse_words {f : Family} {n : Nat} {word : String} (hword : word ∈ f.words)
    (hn : n ≤ maxWord64) :
    parse s!"every {n} {word}" = .ok (.every (max 1 (min (n * f.seconds) maxWord64))) := by
  have hvalue : (f.wording n hword).number.value = n := Cron.Numeral.value_ofNat n
  have hrequested := (f.wording n hword).requested?_text (by rwa [hvalue])
  have hseconds : unitSeconds (f.wording n hword).unit = f.seconds :=
    Family.unitSeconds_of_names (f.wording n hword).named (Family.head_ne_longS word hword)
  rw [hvalue, hseconds] at hrequested
  unfold parse
  rw [Family.trim_wording n hword, read_of_requested hrequested]
  show Except.ok (every (normalizedSeconds (min (n * f.seconds) maxWord64 * nanosPerSecond))) = _
  rw [normalizedSeconds_mul]

/-! ## Behind `@every` -/

theorem parse_symbol {n : Nat} {u : ClockUnit} (h : n * u.seconds ≤ longestSeconds) :
    parse s!"@every {n}{u.unit.symbol}" = .ok (.every
      (if IsRoundedDown (n * u.seconds) then n * u.seconds - 1 else max 1 (n * u.seconds))) := by
  rw [← everyText_amount, parse_every_amount u.nanoseconds_unit h]
  by_cases hdown : IsRoundedDown (n * u.seconds)
  · rw [if_pos hdown, normalizedSeconds_of_roundedDown h hdown]
  · rw [if_neg hdown, normalizedSeconds_nearest h hdown]

theorem parse_symbol_tooLong {n : Nat} {u : ClockUnit} (h : longestSeconds < n * u.seconds) :
    ∃ text, parse s!"@every {n}{u.unit.symbol}" = .error
      { plan := s!"@every {n}{u.unit.symbol}", fault := .interval (.duration text .outOfRange) } := by
  rw [← everyText_amount]
  exact ⟨_, parse_every_amount_tooLong u.nanoseconds_unit h⟩

/-! ## The same delay -/

/-- Both are the same fixed delay, or both are refused. -/
def SameDelay (a b : Except PlanError Plan) : Prop :=
  (∃ k, a = .ok (.every k) ∧ b = .ok (.every k)) ∨ ∃ e f, a = .error e ∧ b = .error f

theorem sameDelay_every_iff {j k : Nat} :
    SameDelay (.ok (.every j)) (.ok (.every k)) ↔ j = k := by
  constructor
  · rintro (⟨i, hj, hk⟩ | ⟨e, f, he, -⟩)
    · cases hj
      cases hk
      rfl
    · cases he
  · rintro rfl
    exact .inl ⟨j, rfl, rfl⟩

theorem not_sameDelay_error {p : Plan} {e : PlanError} : ¬SameDelay (.ok p) (.error e) := by
  rintro (⟨k, -, hk⟩ | ⟨f, g, hf, -⟩)
  · cases hk
  · cases hf

/-- A number of seconds, minutes or hours in words is always a delay.  With the symbol of the unit it
is the same delay exactly when it is no more than the longest one and its nanoseconds are not rounded
down.  Where they are, it is a delay that is one second shorter, and above the longest it is
refused. -/
theorem sameDelay_iff (u : ClockUnit) (n : Nat) (word : String) (hword : word ∈ u.family.words)
    (hn : n < Nat.pow 2 64) :
    (SameDelay (parse s!"every {n} {word}") (parse s!"@every {n}{u.unit.symbol}") ↔
        n * u.seconds ≤ longestSeconds ∧ ¬IsRoundedDown (n * u.seconds)) ∧
      parse s!"every {n} {word}" = .ok (.every (max 1 (min (n * u.seconds) maxWord64))) ∧
      (n * u.seconds ≤ longestSeconds → IsRoundedDown (n * u.seconds) →
        parse s!"@every {n}{u.unit.symbol}" = .ok (.every (n * u.seconds - 1))) ∧
      (longestSeconds < n * u.seconds → ∃ text, parse s!"@every {n}{u.unit.symbol}" = .error
        { plan := s!"@every {n}{u.unit.symbol}"
          fault := .interval (.duration text .outOfRange) }) := by
  have hwords : parse s!"every {n} {word}" =
      .ok (.every (max 1 (min (n * u.seconds) maxWord64))) :=
    parse_words hword (Nat.le_sub_one_of_lt hn)
  refine ⟨?_, hwords, fun hshort hdown => ?_, parse_symbol_tooLong⟩
  · rw [hwords]
    by_cases hshort : n * u.seconds ≤ longestSeconds
    · have hmin : min (n * u.seconds) maxWord64 = n * u.seconds :=
        Nat.min_eq_left (Nat.le_trans hshort (by decide))
      rw [parse_symbol hshort, hmin, sameDelay_every_iff]
      by_cases hdown : IsRoundedDown (n * u.seconds)
      · rw [if_pos hdown]
        refine iff_of_false ?_ fun h => h.2 hdown
        omega
      · rw [if_neg hdown]
        exact iff_of_true rfl ⟨hshort, hdown⟩
    · obtain ⟨text, hrefused⟩ := parse_symbol_tooLong (Nat.lt_of_not_le hshort)
      rw [hrefused]
      exact iff_of_false not_sameDelay_error fun h => hshort h.1
  · rw [parse_symbol hshort, if_pos hdown]

/-- The first number of seconds whose nanoseconds are no double.  They are rounded up, and nothing is
lost. -/
theorem sameDelay_roundedUp :
    ("secs" ∈ ClockUnit.second.family.words ∧ 4611686019 < Nat.pow 2 64) ∧
      SameDelay (parse "every 4611686019 secs") (parse "@every 4611686019s") := by
  have hword : "secs" ∈ ClockUnit.second.family.words := by decide
  have hsize : 4611686019 < Nat.pow 2 64 := by decide
  have hshort : 4611686019 * ClockUnit.second.seconds ≤ longestSeconds := by decide
  have hkept : ¬IsRoundedDown (4611686019 * ClockUnit.second.seconds) := by decide +kernel
  have hiff := (sameDelay_iff .second 4611686019 "secs" hword hsize).1
  exact ⟨⟨hword, hsize⟩, hiff.mpr ⟨hshort, hkept⟩⟩

/-- Two numbers of seconds that are delays in words.  With the symbol of the unit, one is refused and
the other is a second short. -/
theorem spellings_part :
    (parse "every 18446744074 seconds" = .ok (.every 18446744074) ∧
      parse "@every 18446744074s" = .error
        { plan := "@every 18446744074s"
          fault := .interval (.duration "18446744074s" .outOfRange) }) ∧
    parse "every 4611686021 seconds" = .ok (.every 4611686021) ∧
      parse "@every 4611686021s" = .ok (.every 4611686020) := by
  decide +kernel

end Plan
end RecurringJobs
