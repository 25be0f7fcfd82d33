import RecurringJobs.Instant

/-!
Instants, their seconds and their days, and instants after others.
-/

namespace RecurringJobs
namespace Instant

theorem day_mono {s t : Int} (h : s ≤ t) : day s ≤ day t := by
  unfold day TimeUnit.secondsPerDay
  omega

theorem secondOfDay_lt (t : Int) : secondOfDay t < 86400 := by
  unfold secondOfDay TimeUnit.secondsPerDay
  omega

/-- A second is its day and the second of the day. -/
theorem day_add_secondOfDay (t : Int) : day t * TimeUnit.secondsPerDay + secondOfDay t = t := by
  unfold day secondOfDay TimeUnit.secondsPerDay
  omega

theorem day_and_secondOfDay_eq {t day' : Int} {time : Nat} (htime : time < 86400) :
    day' * TimeUnit.secondsPerDay + time = t ↔ day t = day' ∧ secondOfDay t = time := by
  unfold day secondOfDay TimeUnit.secondsPerDay
  omega

/-- A whole second is after an instant when its number is greater, whatever part of a second has
passed. -/
theorem not_le_iff {u : Int} {start : Instant} :
    le { seconds := u } start = false ↔ start.seconds + 1 ≤ u := by
  unfold le
  simp
  omega

/-! ## Earlier and later -/

/-- Strictly earlier. -/
def Before (a b : Instant) : Prop := le b a = false

instance : DecidableRel Before := fun a b => inferInstanceAs (Decidable (le b a = false))

theorem before_iff {a b : Instant} :
    a.Before b ↔ a.seconds < b.seconds ∨ a.seconds = b.seconds ∧ a.nanos < b.nanos := by
  unfold Before le
  simp
  omega

theorem Before.trans {a b c : Instant} (hab : a.Before b) (hbc : b.Before c) : a.Before c := by
  rw [before_iff] at *
  omega

instance : Trans Before Before Before := ⟨Before.trans⟩

theorem before_of_seconds_lt {a b : Instant} (h : a.seconds < b.seconds) : a.Before b :=
  before_iff.mpr (Or.inl h)

/-! ## Time that passes -/

/-- The nanoseconds since 1970, where a leap second counts as the second before it. -/
def unixNanos (a : Instant) : Int :=
  a.seconds * TimeUnit.nanosPerSecond +
    (if a.isLeap then a.nanos - TimeUnit.nanosPerSecond else a.nanos : Nat)

theorem unixNanos_of_lt {a : Instant} (h : a.nanos < TimeUnit.nanosPerSecond) :
    a.unixNanos = a.seconds * TimeUnit.nanosPerSecond + a.nanos := by
  unfold unixNanos isLeap
  rw [decide_eq_false (Nat.not_le.mpr h), if_neg Bool.false_ne_true]

theorem unixNanos_after (a : Instant) (nanos : Nat) :
    (a.after nanos).unixNanos = a.unixNanos + nanos := by
  unfold after
  split
  · next hstays =>
    simp only [isLeap, Bool.and_eq_true, decide_eq_true_eq] at hstays
    have hleap : TimeUnit.nanosPerSecond ≤ a.nanos + nanos := by omega
    simp only [unixNanos, isLeap, hstays.1, hleap, decide_true, if_true]
    omega
  · have hpart : 0 < TimeUnit.nanosPerSecond := by decide
    rw [unixNanos_of_lt (Nat.mod_lt _ hpart)]
    unfold unixNanos TimeUnit.nanosPerSecond
    dsimp only
    omega

theorem seconds_le_unixNanos (a : Instant) : a.seconds * TimeUnit.nanosPerSecond ≤ a.unixNanos := by
  unfold unixNanos
  omega

theorem unixNanos_lt {a : Instant} (h : a.nanos < 2 * TimeUnit.nanosPerSecond) :
    a.unixNanos < (a.seconds + 1) * TimeUnit.nanosPerSecond := by
  unfold unixNanos isLeap
  unfold TimeUnit.nanosPerSecond at *
  split
  · omega
  · next hleap =>
    have hsmall : a.nanos < 1000000000 := by simpa using hleap
    omega

theorem seconds_le_after (a : Instant) (nanos : Nat) : a.seconds ≤ (a.after nanos).seconds := by
  unfold after
  split
  · exact Int.le_refl _
  · exact Int.le_add_of_nonneg_right (Int.natCast_nonneg _)

theorem nanos_after_lt (a : Instant) (nanos : Nat) :
    (a.after nanos).nanos < 2 * TimeUnit.nanosPerSecond := by
  unfold after
  split
  · next hstays =>
    simp only [Bool.and_eq_true, decide_eq_true_eq] at hstays
    exact hstays.2
  · have hpart := Nat.mod_lt ((if a.isLeap then a.nanos - TimeUnit.nanosPerSecond else a.nanos) +
      nanos) (show 0 < TimeUnit.nanosPerSecond by decide)
    dsimp only
    omega

theorem nanos_lt_of_make? {seconds : Int} {nanos : Nat} {a : Instant}
    (h : make? seconds nanos = some a) : a.nanos < 2 * TimeUnit.nanosPerSecond := by
  unfold make? at h
  split at h
  · next hparts =>
    cases h
    simp only [Bool.and_eq_true, Bool.or_eq_true, decide_eq_true_eq] at hparts
    rcases hparts.2 with hpart | ⟨hleap, -⟩
    · show nanos < _
      omega
    · exact hleap
  · cases h

theorem whole_le_iff {d : Int} {a : Instant} : le { seconds := d } a = true ↔ d ≤ a.seconds := by
  unfold le
  simp
  omega

/-- A second after a whole second. -/
theorem whole_after_le_iff {d : Int} {a : Instant} :
    ((({ seconds := d } : Instant).after TimeUnit.nanosPerSecond).le a) = true ↔
      d + 1 ≤ a.seconds := by
  have hnext : ({ seconds := d } : Instant).after TimeUnit.nanosPerSecond = { seconds := d + 1 } := by
    simp [after, isLeap, TimeUnit.nanosPerSecond]
  rw [hnext, whole_le_iff]

/-! ## Time that passes -/

section

open TimeUnit

/-- A leap second goes on. -/
theorem after_of_stays {a : Instant} (hleap : a.isLeap = true) {n : Nat}
    (h : a.nanos + n < 2 * nanosPerSecond) : a.after n = { a with nanos := a.nanos + n } := by
  simp [after, hleap, h]

theorem after_of_leaves {a : Instant} (hleap : a.isLeap = true) {n : Nat}
    (h : 2 * nanosPerSecond ≤ a.nanos + n) :
    a.after n = { seconds := a.seconds + ↑((a.nanos - nanosPerSecond + n) / nanosPerSecond),
                  nanos := (a.nanos - nanosPerSecond + n) % nanosPerSecond } := by
  have hleaves : ¬(a.isLeap && decide (a.nanos + n < 2 * nanosPerSecond)) = true := by
    rw [hleap, Bool.true_and, decide_eq_true_eq]
    exact Nat.not_lt.mpr h
  unfold after
  rw [if_neg hleaves, if_pos hleap]

theorem after_of_not_leap {a : Instant} (hleap : a.isLeap = false) (n : Nat) :
    a.after n = { seconds := a.seconds + ↑((a.nanos + n) / nanosPerSecond),
                  nanos := (a.nanos + n) % nanosPerSecond } := by
  simp [after, hleap]

theorem after_zero {a : Instant} (h : a.nanos < 2 * nanosPerSecond) : a.after 0 = a := by
  cases hleap : a.isLeap with
  | true => rw [after_of_stays hleap h, Nat.add_zero]
  | false =>
    have hsmall : a.nanos < nanosPerSecond := by simpa [isLeap] using hleap
    rw [after_of_not_leap hleap, Nat.add_zero, Nat.div_eq_of_lt hsmall, Nat.mod_eq_of_lt hsmall]
    simp

/-- After so many nanoseconds, and then so many more. -/
theorem parts_after (seconds : Int) (nanos m n : Nat) :
    after { seconds := seconds + ↑((nanos + m) / nanosPerSecond),
            nanos := (nanos + m) % nanosPerSecond } n =
      { seconds := seconds + ↑((nanos + (m + n)) / nanosPerSecond),
        nanos := (nanos + (m + n)) % nanosPerSecond } := by
  have hsmall : (nanos + m) % nanosPerSecond < nanosPerSecond := Nat.mod_lt _ (by decide)
  rw [after_of_not_leap (by simpa [isLeap] using hsmall)]
  unfold nanosPerSecond
  dsimp only
  have hseconds : ((nanos + (m + n)) / 1000000000 : Nat) =
      (nanos + m) / 1000000000 + ((nanos + m) % 1000000000 + n) / 1000000000 := by omega
  have hnanos : (nanos + (m + n)) % 1000000000 =
      ((nanos + m) % 1000000000 + n) % 1000000000 := by omega
  rw [hseconds, hnanos]
  simp [Int.add_assoc]

theorem after_after (a : Instant) (m n : Nat) : (a.after m).after n = a.after (m + n) := by
  cases hleap : a.isLeap with
  | false =>
    rw [after_of_not_leap hleap, after_of_not_leap hleap]
    exact parts_after _ _ _ _
  | true =>
    have hlong : nanosPerSecond ≤ a.nanos := of_decide_eq_true hleap
    by_cases hstays : a.nanos + m < 2 * nanosPerSecond
    · have hstill : ({ a with nanos := a.nanos + m } : Instant).isLeap = true :=
        decide_eq_true (Nat.le_add_right_of_le hlong)
      rw [after_of_stays hleap hstays]
      by_cases hlater : a.nanos + (m + n) < 2 * nanosPerSecond
      · rw [after_of_stays hleap hlater, after_of_stays hstill (by dsimp only; omega)]
        simp [Nat.add_assoc]
      · have hsum : a.nanos + m - nanosPerSecond + n = a.nanos - nanosPerSecond + (m + n) := by
          omega
        rw [after_of_leaves hleap (by omega), after_of_leaves hstill (by dsimp only; omega)]
        dsimp only
        rw [hsum]
    · rw [after_of_leaves hleap (by omega), after_of_leaves hleap (by omega)]
      exact parts_after _ _ _ _

/-- A leap second is not entered by time that passes. -/
theorem of_isLeap_after {a : Instant} {n : Nat} (h : (a.after n).isLeap = true) :
    a.isLeap = true ∧ (a.after n).seconds = a.seconds := by
  unfold after at h ⊢
  split
  · next hstays =>
    simp only [Bool.and_eq_true] at hstays
    exact ⟨hstays.1, rfl⟩
  · next hleaves =>
    rw [if_neg hleaves] at h
    have hsmall := Nat.mod_lt ((if a.isLeap then a.nanos - nanosPerSecond else a.nanos) + n)
      (show 0 < nanosPerSecond by decide)
    have hlong : nanosPerSecond ≤ _ := of_decide_eq_true h
    exact absurd hlong (Nat.not_le.mpr hsmall)

end

end Instant
end RecurringJobs
