import Mathlib.Algebra.BigOperators.Group.List.Basic
import Mathlib.Algebra.GroupWithZero.Nat
import RecurringJobs.Calendar

/-!
The calendar: which day a date is, and which date a day is.

Every day has one date and every date of the calendar one day (`ofDayNumber_spec`,
`ofDayNumber_dayNumber`), and days are counted in the order in which dates are written
(`dayNumber_lt`).
-/

namespace RecurringJobs
namespace Date

/-! ## Years -/

def yearLength (year : Int) : Nat := if isLeap year then 366 else 365

theorem isLeap_iff (year : Int) :
    isLeap year = true ↔ year % 4 = 0 ∧ (year % 100 ≠ 0 ∨ year % 400 = 0) := by
  simp [isLeap]

theorem daysBeforeYear_succ (year : Int) :
    daysBeforeYear (year + 1) = daysBeforeYear year + yearLength year := by
  have hleap := isLeap_iff year
  unfold daysBeforeYear yearLength
  by_cases h : isLeap year = true
  · rw [if_pos h]
    have hrule := hleap.mp h
    omega
  · rw [if_neg h]
    have hrule : ¬(year % 4 = 0 ∧ (year % 100 ≠ 0 ∨ year % 400 = 0)) := fun hr => h (hleap.mpr hr)
    omega

theorem daysBeforeYear_mono {a b : Int} (h : a ≤ b) : daysBeforeYear a ≤ daysBeforeYear b := by
  unfold daysBeforeYear
  omega

/-- The day lies in the year that is found for it. -/
theorem yearOfDay_spec (n : Int) :
    daysBeforeYear (yearOfDay n) ≤ n + epochDay ∧
      n + epochDay < daysBeforeYear (yearOfDay n + 1) := by
  unfold yearOfDay
  dsimp only
  split
  · next hlow =>
    rw [Int.sub_add_cancel]
    refine ⟨?_, hlow⟩
    unfold daysBeforeYear epochDay
    omega
  · next hlow =>
    split
    · next hhigh =>
      refine ⟨hhigh, ?_⟩
      unfold daysBeforeYear epochDay
      omega
    · next hhigh => exact ⟨by omega, by omega⟩

theorem le_yearOfDay_iff {year n : Int} :
    year ≤ yearOfDay n ↔ daysBeforeYear year ≤ n + epochDay := by
  obtain ⟨hlow, hhigh⟩ := yearOfDay_spec n
  constructor
  · intro h
    have hmono := daysBeforeYear_mono h
    omega
  · intro h
    by_contra hlt
    have hmono := daysBeforeYear_mono (a := yearOfDay n + 1) (b := year) (by omega)
    omega

theorem yearOfDay_mono {m n : Int} (h : m ≤ n) : yearOfDay m ≤ yearOfDay n := by
  have hm := (yearOfDay_spec m).1
  exact le_yearOfDay_iff.mpr (by omega)

/-! ## Months and days -/

@[simp] theorem length_monthLengths (year : Int) : (monthLengths year).length = 12 := rfl

theorem sum_monthLengths (year : Int) : (monthLengths year).sum = yearLength year := by
  unfold monthLengths yearLength
  cases isLeap year <;> rfl

theorem daysBeforeMonth_eq_sum (year : Int) (month : Nat) :
    daysBeforeMonth year month = ((monthLengths year).take (month - 1)).sum := rfl

/-- The day lies in the month that is found for it, where `lens` are the lengths of the months from
`month` on. -/
theorem monthAndDay_spec (lens : List Nat) (month : Nat) {rest : Nat} (h : rest < lens.sum) :
    ∃ i, ∃ hi : i < lens.length, ∃ day, monthAndDay month lens rest = (month + i, day + 1) ∧
      day < lens[i] ∧ rest = (lens.take i).sum + day := by
  induction lens generalizing month rest with
  | nil => simp at h
  | cons len lens ih =>
    unfold monthAndDay
    by_cases hlt : rest < len
    · exact ⟨0, by simp, rest, by simp [hlt], hlt, by simp⟩
    · rw [if_neg hlt]
      rw [List.sum_cons] at h
      have hlater : rest - len < lens.sum := by omega
      obtain ⟨i, hi, day, hfound, hday, hrest⟩ := ih (month + 1) hlater
      refine ⟨i + 1, by simpa using hi, day, ?_, by simpa using hday, ?_⟩
      · rw [hfound, Nat.add_assoc, Nat.add_comm 1 i]
      · rw [List.take_succ_cons, List.sum_cons]
        omega

theorem daysBeforeMonth_succ (year : Int) {month : Nat} (h1 : 1 ≤ month) (h12 : month ≤ 12) :
    daysBeforeMonth year (month + 1) = daysBeforeMonth year month + daysInMonth year month := by
  obtain ⟨i, rfl⟩ := Nat.exists_eq_add_of_le' h1
  have hi : i < (monthLengths year).length := by simp; omega
  rw [daysBeforeMonth_eq_sum, daysBeforeMonth_eq_sum, Nat.add_sub_cancel, Nat.add_sub_cancel,
    List.take_succ_eq_append_getElem hi, List.sum_append]
  simp [daysInMonth, List.getElem?_eq_getElem hi]

theorem daysBeforeMonth_mono (year : Int) {a b : Nat} (h : a ≤ b) :
    daysBeforeMonth year a ≤ daysBeforeMonth year b := by
  rw [daysBeforeMonth_eq_sum, daysBeforeMonth_eq_sum]
  have hsplit := List.sum_take_add_sum_drop ((monthLengths year).take (b - 1)) (a - 1)
  rw [List.take_take, Nat.min_eq_left (by omega)] at hsplit
  omega

theorem daysBeforeMonth_thirteen (year : Int) : daysBeforeMonth year 13 = yearLength year := by
  rw [daysBeforeMonth_eq_sum, ← sum_monthLengths]
  rfl

/-- How many days of its year are over when a date begins. -/
def dayOfYear (d : Date) : Nat := daysBeforeMonth d.year d.month + (d.day - 1)

theorem dayNumber_eq {d : Date} (h : 1 ≤ d.day) :
    d.dayNumber + epochDay = daysBeforeYear d.year + d.dayOfYear := by
  unfold dayNumber dayOfYear
  omega

theorem dayOfYear_lt {d : Date} (h : d.IsValid) : d.dayOfYear < yearLength d.year := by
  obtain ⟨h1, h12, hday, hlast⟩ := h
  have hmonth := daysBeforeMonth_succ d.year h1 h12
  have hend := daysBeforeMonth_mono d.year (a := d.month + 1) (b := 13) (by omega)
  rw [daysBeforeMonth_thirteen] at hend
  unfold dayOfYear
  omega

/-! ## There and back -/

/-- One date is before another in the order in which calendars are written. -/
def Before (d e : Date) : Prop :=
  d.year < e.year ∨ d.year = e.year ∧ (d.month < e.month ∨ d.month = e.month ∧ d.day < e.day)

theorem before_or_eq_or_before (d e : Date) : d.Before e ∨ d = e ∨ e.Before d := by
  obtain ⟨year, month, day⟩ := d
  obtain ⟨year', month', day'⟩ := e
  unfold Before
  simp only [Date.mk.injEq]
  omega

/-- Days are counted in the order of the calendar. -/
theorem dayNumber_lt {d e : Date} (hd : d.IsValid) (he : e.IsValid) (h : d.Before e) :
    d.dayNumber < e.dayNumber := by
  have hdnumber := dayNumber_eq hd.2.2.1
  have henumber := dayNumber_eq he.2.2.1
  have hdlt := dayOfYear_lt hd
  obtain ⟨h1, h12, hday, hlast⟩ := hd
  rcases h with hyear | ⟨hyear, hmonth | ⟨hmonth, hdays⟩⟩
  · have hmono := daysBeforeYear_mono (a := d.year + 1) (b := e.year) (by omega)
    rw [daysBeforeYear_succ] at hmono
    omega
  · have hnext := daysBeforeMonth_succ d.year h1 h12
    have hmono := daysBeforeMonth_mono d.year (a := d.month + 1) (b := e.month) (by omega)
    unfold dayOfYear at hdnumber henumber
    rw [← hyear] at henumber
    omega
  · unfold dayOfYear at hdnumber henumber
    rw [← hyear, ← hmonth] at henumber
    omega

theorem eq_of_dayNumber_eq {d e : Date} (hd : d.IsValid) (he : e.IsValid)
    (h : d.dayNumber = e.dayNumber) : d = e := by
  rcases before_or_eq_or_before d e with hlt | heq | hgt
  · have := dayNumber_lt hd he hlt
    omega
  · exact heq
  · have := dayNumber_lt he hd hgt
    omega

theorem ofDayNumber_spec (n : Int) : (ofDayNumber n).IsValid ∧ (ofDayNumber n).dayNumber = n := by
  obtain ⟨hlow, hhigh⟩ := yearOfDay_spec n
  rw [daysBeforeYear_succ] at hhigh
  have hyear : (n + epochDay - daysBeforeYear (yearOfDay n)).toNat <
      (monthLengths (yearOfDay n)).sum := by
    rw [sum_monthLengths]
    omega
  obtain ⟨i, hi, day, hfound, hday, hrest⟩ := monthAndDay_spec _ 1 hyear
  have hdate : ofDayNumber n = { year := yearOfDay n, month := 1 + i, day := day + 1 } := by
    unfold ofDayNumber
    simp only [hfound]
  have hlength : daysInMonth (yearOfDay n) (1 + i) = (monthLengths (yearOfDay n))[i] := by
    simp [daysInMonth, Nat.add_comm 1 i, List.getElem?_eq_getElem hi]
  rw [length_monthLengths] at hi
  rw [hdate]
  refine ⟨⟨by simp, by simp; omega, by simp, ?_⟩, ?_⟩
  · show day + 1 ≤ daysInMonth (yearOfDay n) (1 + i)
    omega
  · unfold dayNumber
    dsimp only
    rw [daysBeforeMonth_eq_sum, Nat.add_sub_cancel_left]
    omega

/-- A date of the calendar is that of its day. -/
theorem ofDayNumber_dayNumber {d : Date} (h : d.IsValid) : ofDayNumber d.dayNumber = d := by
  obtain ⟨hvalid, hnumber⟩ := ofDayNumber_spec d.dayNumber
  exact eq_of_dayNumber_eq hvalid h hnumber

end Date
end RecurringJobs
