import RecurringJobs.Proofs.Plan.WholeAmounts

/-!
Fixed delays of so many seconds, minutes or hours, however many.

A delay is read as the double nearest to its nanoseconds (`Duration.parse_amount`).  Up to
`longestSeconds` there is such a delay, and where the double is not below the nanoseconds it is the
one that was written (`Plan.parse_everySeconds`).  Beyond, the text is refused
(`Duration.parse_tooLong`).
-/

namespace RecurringJobs
namespace Duration

open Binary64 TimeUnit

/-- The longest delay that can be written in seconds. -/
def longestSeconds : Nat := 18446744073

/-- The double nearest to the nanoseconds of a delay is less than they are. -/
def IsRoundedDown (n : Nat) : Prop := nearest (n * nanosPerSecond) < n * nanosPerSecond

instance (n : Nat) : Decidable (IsRoundedDown n) := inferInstanceAs (Decidable (_ < _))

/-! ## Near the nanoseconds -/

/-- The numbers around the nanoseconds that are whole in units of the last bit are doubles. -/
theorem isDouble_grid {n q : Nat} (h : n ≤ longestSeconds)
    (hq : q ≤ n * nanosPerSecond / 2048 + 1) : IsDouble (q * 2048 * one) := by
  have hmul : n * nanosPerSecond ≤ longestSeconds * nanosPerSecond :=
    Nat.mul_le_mul_right nanosPerSecond h
  have hlongest : longestSeconds * nanosPerSecond / 2048 + 1 < exactBelow := by decide
  have hsmall : q < exactBelow := by omega
  exact isDouble_whole (j := 11) rfl hsmall

/-- Rounding adds at most the last bit of a double of this size. -/
theorem nearest_nanos_le {n : Nat} (h : n ≤ longestSeconds) :
    nearest (n * nanosPerSecond) ≤ n * nanosPerSecond + 2048 := by
  have hle := nearest_le (isDouble_grid h (Nat.le_refl _)) (n := n * nanosPerSecond) (by omega)
  omega

/-- And it takes no more away. -/
theorem le_nearest_nanos {n : Nat} (h : n ≤ longestSeconds) :
    n * nanosPerSecond ≤ nearest (n * nanosPerSecond) + 2048 := by
  have hle := le_nearest (isDouble_grid h (Nat.le_succ _)) (n := n * nanosPerSecond) (by omega)
  omega

theorem mul_nanosPerSecond_le {n : Nat} (h : n ≤ longestSeconds) :
    n * nanosPerSecond + 2048 ≤ Text.maxWord64 := by
  have hmul : n * nanosPerSecond ≤ longestSeconds * nanosPerSecond :=
    Nat.mul_le_mul_right nanosPerSecond h
  have hword : longestSeconds * nanosPerSecond + 2048 ≤ Text.maxWord64 := by decide
  omega

theorem longestSeconds_lt : longestSeconds < exactBelow := by decide

/-! ## One amount

`k` seconds make up the unit. -/

variable {n k : Nat} {u : Unit}

theorem seconds_pos (hunit : u.nanoseconds = k * nanosPerSecond) : 0 < k := by
  have hpos := u.nanoseconds_pos
  rw [hunit] at hpos
  exact Nat.pos_of_mul_pos_right hpos

theorem sum_amount (n : Nat) (u : Unit) :
    sum [part (n, u)] = add (.finite 0) ((ofNat n).scale u.nanoseconds) := by
  rw [sum_singleton, part, PartText.value_ofNat, Unit.unit_spelling]

/-- A delay that is not too long is read as the double nearest to it. -/
theorem parse_amount (hunit : u.nanoseconds = k * nanosPerSecond)
    (h : n * k ≤ longestSeconds) :
    parse (texts [part (n, u)]) = .ok (nearest (n * k * nanosPerSecond)) := by
  have hword := mul_nanosPerSecond_le h
  have hbound : n * k * nanosPerSecond ≤ Nat.pow 2 64 := by
    have hpow : Text.maxWord64 ≤ Nat.pow 2 64 := by decide
    omega
  have hnumber : n ≤ exactBelow := by
    have hle : n ≤ n * k := Nat.le_mul_of_pos_right n (seconds_pos hunit)
    have hlt := longestSeconds_lt
    omega
  have hsum : sum [part (n, u)] = ofNat (n * k * nanosPerSecond) := by
    rw [sum_amount, hunit, scale_ofNat hnumber, zero_add_ofNat, Nat.mul_assoc]
  have hrange : IsInRange [part (n, u)] := by
    rw [← atMost_sum_iff, hsum]
    exact atMost_ofNat (by decide) hbound
  have hmin : min (nearest (n * k * nanosPerSecond)) Text.maxWord64 =
      nearest (n * k * nanosPerSecond) :=
    Nat.min_eq_left (Nat.le_trans (nearest_nanos_le h) hword)
  rw [parse_texts (List.cons_ne_nil _ _) hrange, hsum, floor_ofNat (by decide) hbound,
    Option.getD_some, hmin]

/-! ## Beyond -/

/-- A double between `2 ^ 64` and the nanoseconds of the first delay that is too long. -/
def firstBeyond : Nat := (Nat.pow 2 52 + 1) * Nat.pow 2 12

theorem firstBeyond_bounds :
    Nat.pow 2 64 < firstBeyond ∧ firstBeyond ≤ (longestSeconds + 1) * nanosPerSecond := by
  decide

theorem parse_tooLong (hunit : u.nanoseconds = k * nanosPerSecond)
    (h : longestSeconds < n * k) : parse (texts [part (n, u)]) = .error .outOfRange := by
  have hk := seconds_pos hunit
  -- the first number of units that is too long is a double, and `n` is no less
  have hfirst : longestSeconds / k + 1 ≤ n := (Nat.div_lt_iff_lt_mul hk).mpr h
  have hsmall : longestSeconds / k + 1 < exactBelow := by
    have hle := Nat.div_le_self longestSeconds k
    have hlt : longestSeconds + 1 < exactBelow := by decide
    omega
  have hnumber : AtLeast (longestSeconds / k + 1) (ofNat n) :=
    atLeast_ofNat (isDouble_small hsmall) hfirst
  have hproduct : firstBeyond ≤ (longestSeconds / k + 1) * u.nanoseconds := by
    have hseconds : longestSeconds + 1 ≤ (longestSeconds / k + 1) * k :=
      (Nat.div_lt_iff_lt_mul hk).mp (Nat.lt_succ_self _)
    calc firstBeyond ≤ (longestSeconds + 1) * nanosPerSecond := firstBeyond_bounds.2
      _ ≤ (longestSeconds / k + 1) * k * nanosPerSecond := Nat.mul_le_mul_right _ hseconds
      _ = (longestSeconds / k + 1) * u.nanoseconds := by rw [hunit, Nat.mul_assoc]
  have hbeyond : IsDouble (firstBeyond * one) := isDouble_whole rfl (by decide)
  have hsum := (hnumber.scale hbeyond hproduct).zero_add hbeyond
  refine parse_outOfRange (List.cons_ne_nil _ _) fun hrange => ?_
  rw [← atMost_sum_iff, sum_amount, hsum.atMost_eq_false firstBeyond_bounds.1] at hrange
  cases hrange

/-! ## Where nothing is lost -/

/-- Up to here every number of seconds is kept. -/
def longestKept : Nat := 4611686018

/-- Below `2 ^ 62` nanoseconds, whole seconds are doubles: a second is `5 ^ 9 * 2 ^ 9` of them. -/
theorem not_isRoundedDown_of_le {n : Nat} (h : n ≤ longestKept) : ¬IsRoundedDown n := by
  have hsmall : n * 1953125 < exactBelow :=
    Nat.lt_of_le_of_lt (Nat.mul_le_mul_right 1953125 h) (by decide)
  have hnanos : n * nanosPerSecond = n * 1953125 * Nat.pow 2 9 := by
    rw [Nat.mul_assoc]
    rfl
  have hdouble : IsDouble (n * nanosPerSecond * one) := isDouble_whole hnanos hsmall
  unfold IsRoundedDown
  rw [nearest_of_isDouble hdouble]
  exact Nat.lt_irrefl _

example : IsRoundedDown 4611686021 := by decide +kernel

end Duration

namespace Plan

open Binary64 Duration TimeUnit

theorem normalizedSeconds_nearest {n : Nat} (h : n ≤ longestSeconds) (hkept : ¬IsRoundedDown n) :
    normalizedSeconds (nearest (n * nanosPerSecond)) = max 1 n := by
  have hlow : n * nanosPerSecond ≤ nearest (n * nanosPerSecond) := Nat.not_lt.mp hkept
  have hhigh := nearest_nanos_le h
  have hsecond : nanosPerSecond = 1000000000 := rfl
  have hquotient : nearest (n * nanosPerSecond) / nanosPerSecond = n := by
    rw [hsecond] at hlow hhigh ⊢
    omega
  rw [normalizedSeconds, hquotient]

/-- Only delays of many seconds are rounded down, and these lose one. -/
theorem normalizedSeconds_of_roundedDown {n : Nat} (h : n ≤ longestSeconds)
    (hdown : IsRoundedDown n) : normalizedSeconds (nearest (n * nanosPerSecond)) = n - 1 := by
  have hlong : ¬n ≤ longestKept := fun hle => not_isRoundedDown_of_le hle hdown
  have hmany : 2 ≤ longestKept := by decide
  have hlow := le_nearest_nanos h
  have hhigh : nearest (n * nanosPerSecond) < n * nanosPerSecond := hdown
  have hsecond : nanosPerSecond = 1000000000 := rfl
  have hquotient : nearest (n * nanosPerSecond) / nanosPerSecond = n - 1 := by
    rw [hsecond] at hlow hhigh ⊢
    omega
  rw [normalizedSeconds, hquotient]
  omega

theorem parse_every_amount {n k : Nat} {u : Duration.Unit}
    (hunit : u.nanoseconds = k * nanosPerSecond) (h : n * k ≤ longestSeconds) :
    parse (everyText [part (n, u)]) =
      .ok (.every (normalizedSeconds (nearest (n * k * nanosPerSecond)))) := by
  rw [parse_everyText, parse_amount hunit h]

theorem parse_every_amount_tooLong {n k : Nat} {u : Duration.Unit}
    (hunit : u.nanoseconds = k * nanosPerSecond) (h : longestSeconds < n * k) :
    parse (everyText [part (n, u)]) = .error
      { plan := everyText [part (n, u)]
        fault := .interval (.duration (String.ofList (texts [part (n, u)])) .outOfRange) } := by
  rw [parse_everyText, parse_tooLong hunit h]

theorem everyText_seconds (n : Nat) : everyText [part (n, .seconds)] = s!"@every {n}s" :=
  everyText_amount n .seconds

/-- The text of a delay that is not too long is read as that delay, or as one that is a second shorter
when its nanoseconds are rounded down. -/
theorem parse_everySeconds {n : Nat} (hpos : 1 ≤ n) (h : n ≤ longestSeconds) :
    parse s!"@every {n}s" = .ok (.every (if IsRoundedDown n then n - 1 else n)) := by
  have hparse : parse s!"@every {n}s" =
      .ok (.every (normalizedSeconds (nearest (n * nanosPerSecond)))) := by
    rw [← everyText_seconds, parse_every_amount (k := 1) rfl (by rwa [Nat.mul_one]), Nat.mul_one]
  rw [hparse]
  by_cases hdown : IsRoundedDown n
  · rw [if_pos hdown, normalizedSeconds_of_roundedDown h hdown]
  · rw [if_neg hdown, normalizedSeconds_nearest h hdown, Nat.max_eq_right hpos]

theorem parse_every_of_le {n : Nat} (hpos : 1 ≤ n) (h : n ≤ longestKept) :
    parse s!"@every {n}s" = .ok (.every n) := by
  rw [parse_everySeconds hpos (Nat.le_trans h (by decide)), if_neg (not_isRoundedDown_of_le h)]

theorem parse_every_tooLong {n : Nat} (h : longestSeconds < n) :
    parse s!"@every {n}s" = .error
      { plan := s!"@every {n}s"
        fault := .interval (.duration (String.ofList (texts [part (n, .seconds)])) .outOfRange) } := by
  rw [← everyText_seconds]
  exact parse_every_amount_tooLong (k := 1) rfl (by rwa [Nat.mul_one])

end Plan
end RecurringJobs
