import RecurringJobs.Binary64

/-!
Rounding to a double, in units.

`rounded` is what is left of a whole number of units.  It fixes the doubles
(`rounded_of_isDouble`) and gives one itself (`isDouble_rounded`), so what was rounded once is not
rounded again.  A number between two doubles stays between them (`le_rounded`, `rounded_le`).
Whole numbers up to `2 ^ 53` are doubles, so nothing is rounded where only such numbers are
multiplied and added (`scale_whole`, `add_whole`).
-/

namespace RecurringJobs
namespace Binary64

/-! The exponents are too large for the powers to be written out, so they are given names where
the powers are used. -/

theorem one_eq {k : Nat} (hk : 1074 = k) : one = Nat.pow 2 k := by
  unfold one
  rw [hk]

theorem limit_eq {k l : Nat} (hk : 1074 = k) (hl : 1024 = l) : limit = Nat.pow 2 l * one := by
  unfold limit
  rw [one_eq hk, hk, hl]
  exact Nat.pow_add 2 l k

theorem one_pos : 0 < one := by
  obtain ⟨k, hk⟩ : ∃ k, 1074 = k := ⟨_, rfl⟩
  rw [one_eq hk]
  exact Nat.pow_pos (by decide)

/-- Numbers below this are doubles themselves. -/
def exactBelow : Nat := Nat.pow 2 53

theorem roundDiv_of_dvd {n d : Nat} (hd : 0 < d) (h : d ∣ n) : roundDiv n d = n / d := by
  have hr : n % d = 0 := Nat.mod_eq_zero_of_dvd h
  unfold roundDiv
  simp only [hr, Nat.mul_zero]
  rw [if_pos hd]

/-- All bits below the 53 highest are zero. -/
def IsDouble (u : Nat) : Prop := Nat.pow 2 (spareBits u) ∣ u

def rounded (u : Nat) : Nat := roundDiv u (Nat.pow 2 (spareBits u)) * Nat.pow 2 (spareBits u)

theorem ofRatio_eq_rounded (u : Nat) :
    ofRatio u 1 = if rounded u < limit then .finite (rounded u) else .infinite := by
  unfold ofRatio rounded
  simp only [Nat.div_one, Nat.one_mul]

/-! ## Bits -/

theorem lt_pow_spareBits (u : Nat) : u < Nat.pow 2 (53 + spareBits u) := by
  refine Nat.lt_of_lt_of_le Nat.lt_log2_self (Nat.pow_le_pow_right (by decide) ?_)
  unfold spareBits
  omega

theorem pow_spareBits_le {u : Nat} (h : 0 < spareBits u) : Nat.pow 2 (52 + spareBits u) ≤ u := by
  unfold spareBits at h ⊢
  have hne : u ≠ 0 := by
    rintro rfl
    rw [Nat.log2_zero] at h
    omega
  refine Nat.le_trans (Nat.pow_le_pow_right (by decide) ?_) (Nat.log2_self_le hne)
  omega

theorem lt_of_pow_lt {i j : Nat} (h : Nat.pow 2 i < Nat.pow 2 j) : i < j :=
  (Nat.pow_lt_pow_iff_right (by decide)).mp h

theorem spareBits_mono {u v : Nat} (h : u ≤ v) : spareBits u ≤ spareBits v := by
  rcases Nat.eq_zero_or_pos (spareBits u) with hzero | hpos
  · omega
  · have hlt := Nat.lt_of_le_of_lt (Nat.le_trans (pow_spareBits_le hpos) h) (lt_pow_spareBits v)
    have hexp := lt_of_pow_lt hlt
    omega

theorem isDouble_mul_pow {m : Nat} (h : m < exactBelow) (j : Nat) : IsDouble (m * Nat.pow 2 j) := by
  have hbits : spareBits (m * Nat.pow 2 j) ≤ j := by
    rcases Nat.eq_zero_or_pos (spareBits (m * Nat.pow 2 j)) with hzero | hpos
    · omega
    · have hlt : m * Nat.pow 2 j < Nat.pow 2 (53 + j) := by
        have hsplit : Nat.pow 2 (53 + j) = exactBelow * Nat.pow 2 j := Nat.pow_add 2 53 j
        rw [hsplit]
        exact Nat.mul_lt_mul_of_pos_right h (Nat.pow_pos (by decide))
      have hexp := lt_of_pow_lt (Nat.lt_of_le_of_lt (pow_spareBits_le hpos) hlt)
      omega
  exact Nat.dvd_trans (Nat.pow_dvd_pow 2 hbits) (Nat.dvd_mul_left _ m)

/-! ## Quotients -/

theorem div_le_roundDiv (n d : Nat) : n / d ≤ roundDiv n d := by
  unfold roundDiv
  dsimp only
  split
  · exact Nat.le_refl _
  · split <;> omega

theorem le_roundDiv {n d c : Nat} (hd : 0 < d) (h : c * d ≤ n) : c ≤ roundDiv n d :=
  Nat.le_trans ((Nat.le_div_iff_mul_le hd).mpr h) (div_le_roundDiv n d)

theorem roundDiv_le {n d c : Nat} (hd : 0 < d) (h : n ≤ c * d) : roundDiv n d ≤ c := by
  by_cases hdvd : d ∣ n
  · rw [roundDiv_of_dvd hd hdvd]
    exact Nat.div_le_of_le_mul (by rwa [Nat.mul_comm])
  · have hlt : n / d < c := by
      refine (Nat.div_lt_iff_lt_mul hd).mpr (Nat.lt_of_le_of_ne h ?_)
      rintro rfl
      exact hdvd (Nat.dvd_mul_left d c)
    unfold roundDiv
    dsimp only
    split
    · omega
    · split <;> omega

/-! ## Laws of rounding -/

theorem pow_spareBits_pos (u : Nat) : 0 < Nat.pow 2 (spareBits u) := Nat.pow_pos (by decide)

theorem rounded_of_isDouble {u : Nat} (h : IsDouble u) : rounded u = u := by
  unfold rounded
  rw [roundDiv_of_dvd (pow_spareBits_pos u) h, Nat.div_mul_cancel h]

theorem rounded_le {u b : Nat} (hb : IsDouble b) (h : u ≤ b) : rounded u ≤ b := by
  obtain ⟨c, hc⟩ := Nat.dvd_trans (Nat.pow_dvd_pow 2 (spareBits_mono h)) hb
  have hmul : b = c * Nat.pow 2 (spareBits u) := by rw [hc, Nat.mul_comm]; rfl
  rw [hmul] at h ⊢
  exact Nat.mul_le_mul_right _ (roundDiv_le (pow_spareBits_pos u) h)

theorem le_rounded {a u : Nat} (ha : IsDouble a) (h : a ≤ u) : a ≤ rounded u := by
  rcases Nat.lt_or_eq_of_le (spareBits_mono h) with hlt | heq
  · -- fewer bits: already the highest bit of `u` alone is more
    have hbelow : a ≤ Nat.pow 2 (52 + spareBits u) :=
      Nat.le_trans (Nat.le_of_lt (lt_pow_spareBits a)) (Nat.pow_le_pow_right (by decide) (by omega))
    have hpow : Nat.pow 2 (52 + spareBits u) = Nat.pow 2 52 * Nat.pow 2 (spareBits u) :=
      Nat.pow_add 2 52 (spareBits u)
    have hle : Nat.pow 2 52 * Nat.pow 2 (spareBits u) ≤ u := by
      rw [← hpow]
      exact pow_spareBits_le (by omega)
    refine Nat.le_trans hbelow ?_
    rw [hpow]
    exact Nat.mul_le_mul_right _ (le_roundDiv (pow_spareBits_pos u) hle)
  · obtain ⟨c, hc⟩ := ha
    have hmul : a = c * Nat.pow 2 (spareBits u) := by rw [← heq, Nat.mul_comm]; exact hc
    rw [hmul] at h ⊢
    exact Nat.mul_le_mul_right _ (le_roundDiv (pow_spareBits_pos u) h)

theorem isDouble_rounded (u : Nat) : IsDouble (rounded u) := by
  have hquotient : roundDiv u (Nat.pow 2 (spareBits u)) ≤ exactBelow := by
    refine roundDiv_le (pow_spareBits_pos u) (Nat.le_of_lt ?_)
    have hpow : Nat.pow 2 (53 + spareBits u) = exactBelow * Nat.pow 2 (spareBits u) :=
      Nat.pow_add 2 53 (spareBits u)
    rw [← hpow]
    exact lt_pow_spareBits u
  unfold rounded
  rcases Nat.lt_or_eq_of_le hquotient with hlt | heq
  · exact isDouble_mul_pow hlt _
  · -- the carry reached a new bit, and what is left is a power of two
    have hpow : exactBelow * Nat.pow 2 (spareBits u) = 1 * Nat.pow 2 (53 + spareBits u) := by
      rw [Nat.one_mul]
      exact (Nat.pow_add 2 53 (spareBits u)).symm
    rw [heq, hpow]
    exact isDouble_mul_pow (by decide) _

/-! ## Whole numbers -/

/-- Fifty-three bits and zeros behind them. -/
theorem isDouble_whole {n m j : Nat} (hn : n = m * Nat.pow 2 j) (h : m < exactBelow) :
    IsDouble (n * one) := by
  obtain ⟨k, hk⟩ : ∃ k, 1074 = k := ⟨_, rfl⟩
  have hpow : n * one = m * Nat.pow 2 (j + k) := by
    rw [hn, one_eq hk, Nat.mul_assoc]
    exact congrArg (m * ·) (Nat.pow_add 2 j k).symm
  rw [hpow]
  exact isDouble_mul_pow h (j + k)

theorem isDouble_small {m : Nat} (h : m < exactBelow) : IsDouble (m * one) :=
  isDouble_whole (j := 0) (Nat.mul_one m).symm h

theorem isDouble_pow (j : Nat) : IsDouble (Nat.pow 2 j * one) :=
  isDouble_whole (m := 1) (Nat.one_mul _).symm (by decide)

theorem isDouble_of_le {m : Nat} (h : m ≤ exactBelow) : IsDouble (m * one) := by
  rcases Nat.lt_or_eq_of_le h with hlt | heq
  · exact isDouble_small hlt
  · rw [heq]
    exact isDouble_whole (m := 1) (j := 53) (by decide) (by decide)

theorem rounded_lt_limit {u j : Nat} (hj : j < 1024) (h : u ≤ Nat.pow 2 j * one) :
    rounded u < limit := by
  refine Nat.lt_of_le_of_lt (rounded_le (isDouble_pow j) h) ?_
  obtain ⟨k, hk⟩ : ∃ k, 1074 = k := ⟨_, rfl⟩
  obtain ⟨l, hl⟩ : ∃ l, 1024 = l := ⟨_, rfl⟩
  rw [limit_eq hk hl]
  exact Nat.mul_lt_mul_of_pos_right (Nat.pow_lt_pow_right (by decide) (by omega)) one_pos

theorem ofRatio_whole {m : Nat} (h : m ≤ exactBelow) : ofRatio (m * one) 1 = .finite (m * one) := by
  have hfix := rounded_of_isDouble (isDouble_of_le h)
  have hle : m * one ≤ exactBelow * one := Nat.mul_le_mul_right one h
  have hlimit : rounded (m * one) < limit := by
    unfold exactBelow at hle
    exact rounded_lt_limit (by decide) hle
  rw [hfix] at hlimit
  rw [ofRatio_eq_rounded, hfix, if_pos hlimit]

theorem ofNat_eq (n : Nat) : ofNat n = ofRatio (n * one) 1 := rfl

theorem ofNat_whole {n : Nat} (h : n ≤ exactBelow) : ofNat n = .finite (n * one) := by
  rw [ofNat_eq, ofRatio_whole h]

theorem scale_whole {n k : Nat} (h : n * k ≤ exactBelow) :
    scale (.finite (n * one)) k = .finite (n * k * one) := by
  show ofRatio (n * one * k) 1 = _
  rw [Nat.mul_right_comm, ofRatio_whole h]

theorem add_whole {m n : Nat} (h : m + n ≤ exactBelow) :
    add (.finite (m * one)) (.finite (n * one)) = .finite ((m + n) * one) := by
  show ofRatio (m * one + n * one) 1 = _
  rw [← Nat.add_mul, ofRatio_whole h]

theorem floor_whole (n : Nat) : floor (.finite (n * one)) = some n := by
  show some (n * one / one) = some n
  rw [Nat.mul_div_cancel n one_pos]

/-- The whole number that is left of a whole number. -/
def nearest (n : Nat) : Nat := rounded (n * one) / one

theorem rounded_whole_le {n b : Nat} (hb : IsDouble (b * one)) (h : n ≤ b) :
    rounded (n * one) ≤ b * one :=
  rounded_le hb (Nat.mul_le_mul_right one h)

theorem nearest_le {n b : Nat} (hb : IsDouble (b * one)) (h : n ≤ b) : nearest n ≤ b := by
  have hle := rounded_whole_le hb h
  unfold nearest
  generalize one = k at hle ⊢
  exact Nat.div_le_of_le_mul (by rwa [Nat.mul_comm k b])

theorem le_nearest {n b : Nat} (hb : IsDouble (b * one)) (h : b ≤ n) : b ≤ nearest n := by
  have hle : b * one ≤ rounded (n * one) := le_rounded hb (Nat.mul_le_mul_right one h)
  exact (Nat.le_div_iff_mul_le one_pos).mpr hle

theorem nearest_of_isDouble {n : Nat} (h : IsDouble (n * one)) : nearest n = n := by
  unfold nearest
  rw [rounded_of_isDouble h, Nat.mul_div_cancel n one_pos]

theorem ofNat_of_le {n j : Nat} (hj : j < 1024) (h : n ≤ Nat.pow 2 j) :
    ofNat n = .finite (rounded (n * one)) := by
  rw [ofNat_eq, ofRatio_eq_rounded, if_pos (rounded_lt_limit hj (Nat.mul_le_mul_right one h))]

theorem floor_ofNat {n j : Nat} (hj : j < 1024) (h : n ≤ Nat.pow 2 j) :
    (ofNat n).floor = some (nearest n) := by
  rw [ofNat_of_le hj h]
  rfl

theorem atMost_ofNat {n j : Nat} (hj : j < 1024) (h : n ≤ Nat.pow 2 j) :
    (ofNat n).atMost (Nat.pow 2 j) = true := by
  have hle := rounded_whole_le (isDouble_pow j) h
  rw [ofNat_of_le hj h]
  generalize rounded (n * one) = u at hle ⊢
  exact decide_eq_true hle

theorem add_finite (u v : Nat) : add (.finite u) (.finite v) = ofRatio (u + v) 1 := rfl

theorem scale_finite (u k : Nat) : scale (.finite u) k = ofRatio (u * k) 1 := rfl

/-- Nothing is rounded again. -/
theorem zero_add_ofRatio (u : Nat) : add (.finite 0) (ofRatio u 1) = ofRatio u 1 := by
  have hfix := rounded_of_isDouble (isDouble_rounded u)
  rw [ofRatio_eq_rounded]
  generalize rounded u = v at hfix ⊢
  split
  · next hlt => rw [add_finite, Nat.zero_add, ofRatio_eq_rounded, hfix, if_pos hlt]
  · rfl

theorem zero_add_ofNat (n : Nat) : add (.finite 0) (ofNat n) = ofNat n := by
  rw [ofNat_eq, zero_add_ofRatio]

theorem scale_ofNat {n : Nat} (h : n ≤ exactBelow) (k : Nat) :
    scale (ofNat n) k = ofNat (n * k) := by
  rw [ofNat_whole h, scale_finite, Nat.mul_right_comm, ofNat_eq]

/-! ## Bounds from below -/

/-- A double of so much at least, which may be infinite. -/
def AtLeast (b : Nat) (x : Binary64) : Prop := ∀ u, x = .finite u → b * one ≤ u

theorem atLeast_ofRatio {b u : Nat} (hb : IsDouble (b * one)) (h : b * one ≤ u) :
    AtLeast b (ofRatio u 1) := by
  have hle := le_rounded hb h
  intro v hv
  rw [ofRatio_eq_rounded] at hv
  split at hv
  · cases hv
    exact hle
  · cases hv

theorem atLeast_ofNat {b n : Nat} (hb : IsDouble (b * one)) (h : b ≤ n) : AtLeast b (ofNat n) := by
  rw [ofNat_eq]
  exact atLeast_ofRatio hb (Nat.mul_le_mul_right one h)

theorem AtLeast.scale {b c k : Nat} {x : Binary64} (hx : AtLeast b x) (hc : IsDouble (c * one))
    (h : c ≤ b * k) : AtLeast c (x.scale k) := by
  cases x with
  | infinite => exact nofun
  | finite u =>
    rw [scale_finite]
    refine atLeast_ofRatio hc ?_
    calc c * one ≤ b * k * one := Nat.mul_le_mul_right one h
      _ = b * one * k := Nat.mul_right_comm b k one
      _ ≤ u * k := Nat.mul_le_mul_right k (hx u rfl)

theorem AtLeast.zero_add {b : Nat} {x : Binary64} (hx : AtLeast b x) (hb : IsDouble (b * one)) :
    AtLeast b (add (.finite 0) x) := by
  cases x with
  | infinite => exact nofun
  | finite u =>
    rw [add_finite, Nat.zero_add]
    exact atLeast_ofRatio hb (hx u rfl)

theorem AtLeast.atMost_eq_false {b n : Nat} {x : Binary64} (hx : AtLeast b x) (h : n < b) :
    x.atMost n = false := by
  cases x with
  | infinite => rfl
  | finite u =>
    have hlt := Nat.lt_of_lt_of_le (Nat.mul_lt_mul_of_pos_right h one_pos) (hx u rfl)
    exact decide_eq_false (Nat.not_le.mpr hlt)

end Binary64
end RecurringJobs
