import RecurringJobs.Proofs.Cron.Search
import RecurringJobs.Proofs.Plan.Triggers

/-!
The triggers of a cron plan, as a list.

`Sets.secondsAfter` goes through all seconds of the years that a schedule can hold and keeps those
that it does hold.  The triggers are taken from its beginning: what the search finds is the head of
the list, and the rest is the list that begins there.
-/

namespace RecurringJobs

namespace Cron

/-- The beginning of the year 2101. -/
def calendarEnd : Nat := 4133980800

/-- The seconds of the years 1970 to 2100, ascending. -/
def calendarSeconds : List Int := (List.range calendarEnd).map fun n : Nat => (n : Int)

theorem calendarSeconds_ascending : calendarSeconds.Pairwise (· < ·) := by
  unfold calendarSeconds
  rw [List.pairwise_map]
  exact (List.pairwise_lt_range (n := calendarEnd)).imp fun h => Int.ofNat_lt.mpr h

theorem mem_calendarSeconds {u : Int} : u ∈ calendarSeconds ↔
    1970 ≤ (Date.ofDayNumber (Instant.day u)).year ∧
      (Date.ofDayNumber (Instant.day u)).year ≤ 2100 := by
  show u ∈ calendarSeconds ↔
    1970 ≤ Date.yearOfDay (Instant.day u) ∧ Date.yearOfDay (Instant.day u) ≤ 2100
  have hfirst : 1970 ≤ Date.yearOfDay (Instant.day u) ↔ _ := Date.le_yearOfDay_iff
  have hlast : 2101 ≤ Date.yearOfDay (Instant.day u) ↔ _ := Date.le_yearOfDay_iff
  have hmem : u ∈ calendarSeconds ↔ 0 ≤ u ∧ u < 4133980800 := by
    unfold calendarSeconds
    rw [List.mem_map]
    constructor
    · rintro ⟨n, hn, rfl⟩
      have hlt := List.mem_range.mp hn
      unfold calendarEnd at hlt
      omega
    · rintro ⟨hlow, hhigh⟩
      refine ⟨u.toNat, ?_, Int.toNat_of_nonneg hlow⟩
      refine List.mem_range.mpr ?_
      unfold calendarEnd
      omega
  rw [hmem]
  unfold Date.daysBeforeYear Date.epochDay Instant.day TimeUnit.secondsPerDay at hfirst hlast
  unfold Instant.day TimeUnit.secondsPerDay
  omega

theorem filter_eq_cons {xs : List Int} (hasc : xs.Pairwise (· < ·)) {P : Int → Prop}
    [DecidablePred P] {u : Int} (hu : IsLeast { v | v ∈ xs ∧ P v } u) :
    xs.filter P = u :: xs.filter fun v => u < v ∧ P v := by
  induction xs with
  | nil => exact absurd hu.1.1 List.not_mem_nil
  | cons x xs ih =>
    obtain ⟨⟨hmem, hPu⟩, hmin⟩ := hu
    obtain ⟨hleast, hasc⟩ := List.pairwise_cons.mp hasc
    by_cases hux : u = x
    · subst hux
      have hrest : (xs.filter fun v => u < v ∧ P v) = xs.filter P :=
        List.filter_congr fun v hv => by simp [hleast v hv]
      rw [List.filter_cons_of_pos (by simpa using hPu), List.filter_cons_of_neg (by simp), hrest]
    · have hlater : u ∈ xs := (List.mem_cons.mp hmem).resolve_left hux
      have hlt : x < u := hleast u hlater
      have hnot : ¬P x := by
        intro hPx
        have hle : u ≤ x := hmin ⟨List.mem_cons_self, hPx⟩
        omega
      rw [List.filter_cons_of_neg (by simpa using hnot),
        List.filter_cons_of_neg (by simp [hnot])]
      refine ih hasc ⟨⟨hlater, hPu⟩, ?_⟩
      rintro v ⟨hv, hPv⟩
      exact hmin ⟨List.mem_cons_of_mem x hv, hPv⟩

namespace Sets

instance (s : Sets) (time : Nat) : Decidable (s.HoldsTime time) :=
  decidable_of_iff
    (time % 60 ∈ s.seconds ∧ time / 60 % 60 ∈ s.minutes ∧ time / 3600 ∈ s.hours)
    ⟨fun ⟨hsecond, hminute, hhour⟩ => ⟨hsecond, hminute, hhour⟩,
      fun ⟨hsecond, hminute, hhour⟩ => ⟨hsecond, hminute, hhour⟩⟩

instance (s : Sets) (u : Int) : Decidable (s.Holds u) :=
  decidable_of_iff
    (s.HoldsTime (Instant.secondOfDay u) ∧
      (Date.ofDayNumber (Instant.day u)).day ∈ s.daysOfMonth ∧
      (Date.ofDayNumber (Instant.day u)).month ∈ s.months ∧
      Date.weekday (Instant.day u) ∈ s.daysOfWeek ∧
      ∃ year ∈ s.years, (year : Int) = (Date.ofDayNumber (Instant.day u)).year)
    ⟨fun ⟨htime, hday, hmonth, hweekday, hyear⟩ => ⟨htime, hday, hmonth, hweekday, hyear⟩,
      fun ⟨htime, hday, hmonth, hweekday, hyear⟩ => ⟨htime, hday, hmonth, hweekday, hyear⟩⟩

/-- The seconds that are held after an instant, ascending. -/
def secondsAfter (s : Sets) (start : Instant) : List Int :=
  calendarSeconds.filter fun u => Instant.le { seconds := u } start = false ∧ s.Holds u

theorem mem_calendarSeconds_of_holds {s : Sets} (hs : s.IsWithin) {u : Int} (h : s.Holds u) :
    u ∈ calendarSeconds := by
  obtain ⟨year, hmem, hyear⟩ := h.year
  have hbounds := hs.bounds .years hmem
  simp only [Field.least, Field.greatest] at hbounds
  rw [mem_calendarSeconds, ← hyear]
  omega

theorem mem_secondsAfter {s : Sets} (hs : s.IsWithin) {start : Instant} {u : Int} :
    u ∈ s.secondsAfter start ↔ Instant.le { seconds := u } start = false ∧ s.Holds u := by
  unfold secondsAfter
  rw [List.mem_filter, decide_eq_true_iff]
  exact ⟨And.right, fun h => ⟨mem_calendarSeconds_of_holds hs h.2, h⟩⟩

theorem secondsAfter_of_first?_none {s : Sets} (hs : s.IsWithin) {start : Instant}
    (h : s.first? (start.seconds + 1) = none) : s.secondsAfter start = [] := by
  have hnone := first?_isFirst hs (start.seconds + 1)
  rw [h] at hnone
  refine List.eq_nil_iff_forall_not_mem.mpr fun u hu => ?_
  rw [mem_secondsAfter hs, Instant.not_le_iff] at hu
  exact hnone u hu

theorem secondsAfter_of_first?_some {s : Sets} (hs : s.IsWithin) {start : Instant} {u : Int}
    (h : s.first? (start.seconds + 1) = some u) :
    s.secondsAfter start = u :: s.secondsAfter { seconds := u } := by
  have hfirst := first?_isFirst hs (start.seconds + 1)
  rw [h] at hfirst
  obtain ⟨⟨hu, hholds⟩, hmin⟩ := hfirst
  have hleast : IsLeast { v | v ∈ calendarSeconds ∧
      Instant.le { seconds := v } start = false ∧ s.Holds v } u := by
    refine ⟨⟨mem_calendarSeconds_of_holds hs hholds, Instant.not_le_iff.mpr hu, hholds⟩, ?_⟩
    rintro v ⟨-, hlater, hv⟩
    exact hmin ⟨Instant.not_le_iff.mp hlater, hv⟩
  unfold secondsAfter
  rw [filter_eq_cons calendarSeconds_ascending hleast]
  refine congrArg (u :: ·) (List.filter_congr fun v _ => decide_eq_decide.mpr ?_)
  rw [Instant.not_le_iff, Instant.not_le_iff]
  constructor
  · rintro ⟨hlt, -, hv⟩
    exact ⟨hlt, hv⟩
  · rintro ⟨hlt, hv⟩
    dsimp only at hlt
    exact ⟨by omega, by omega, hv⟩

end Sets
end Cron

namespace Plan

/-- The triggers of a cron plan are the seconds that it holds, in their order. -/
theorem gather_cron {schedule : Cron.Schedule} (hs : schedule.sets.IsWithin) {start : Instant}
    (hrange : start.seconds + 1 ≤ Instant.latest)
    (hyear : 0 ≤ Date.yearOfDay (Instant.day (start.seconds + 1))) (count : Nat) :
    (Plan.cron schedule).gather start count =
      .ok (((schedule.sets.secondsAfter start).take count).map fun u => { seconds := u }) := by
  induction count generalizing start with
  | zero => rfl
  | succ count ih =>
    have hnext : (Plan.cron schedule).next? start =
        .ok ((schedule.sets.first? (start.seconds + 1)).map fun seconds => { seconds }) := by
      show schedule.next? start = _
      unfold Cron.Schedule.next?
      dsimp only
      rw [if_neg (by omega), if_neg (by omega)]
    cases hfirst : schedule.sets.first? (start.seconds + 1) with
    | none =>
      rw [hfirst] at hnext
      rw [gather_of_none hnext, Cron.Sets.secondsAfter_of_first?_none hs hfirst]
      rfl
    | some u =>
      rw [hfirst] at hnext
      rw [gather_of_some hnext, Cron.Sets.secondsAfter_of_first?_some hs hfirst, ih ?_ ?_]
      · rfl
      · have hlt := Cron.Sets.first?_lt hs hfirst
        unfold Cron.Sets.horizon at hlt
        unfold Instant.latest
        dsimp only
        omega
      · have hfirst' := Cron.Sets.first?_isFirst hs (start.seconds + 1)
        rw [hfirst] at hfirst'
        have hmono := Date.yearOfDay_mono (Instant.day_mono
          (s := start.seconds + 1) (t := u + 1) (by have := hfirst'.1.1; omega))
        exact Int.le_trans hyear hmono

/-- The triggers of a cron plan after an instant are the first of the seconds that come after it and
have their second, minute, hour, day of month, month, day of the week and year in the sets of the
plan: none of them is left out, and nothing else is among them. -/
theorem upcoming_eq_take_secondsAfter {text : String} {schedule : Cron.Schedule}
    (hparse : Plan.parse text = .ok (.cron schedule)) {start : Instant}
    (hrange : start.seconds + 1 ≤ Instant.latest)
    (hyear : 0 ≤ Date.yearOfDay (Instant.day (start.seconds + 1))) :
    let due := schedule.sets.secondsAfter start
    due.Pairwise (· < ·) ∧
      (∀ u, u ∈ due ↔ Instant.le { seconds := u } start = false ∧ schedule.sets.Holds u) ∧
      ∀ count ≤ longestList, (Plan.cron schedule).upcoming start count =
        .ok ((due.take count).map fun u => { seconds := u }) := by
  have hs : schedule.sets.IsWithin := parse_isWithin hparse
  refine ⟨?_, fun u => Cron.Sets.mem_secondsAfter hs, fun count hcount => ?_⟩
  · exact Cron.calendarSeconds_ascending.filter _
  · exact upcoming_eq_ok_iff.mpr ⟨hcount, gather_cron hs hrange hyear count⟩

/-- Noon of the leap days that are Sundays. -/
def leapSunday : Cron.Schedule where
  source := "0 0 12 29 Feb Sun"
  sets := {
    seconds := [0], minutes := [0], hours := [12], daysOfMonth := [29], months := [2]
    daysOfWeek := [1], years := Cron.Field.years.values }

/-- From the leap day of 2032 at noon on, which is over by then, there are two more. -/
theorem secondsAfter_leapSunday :
    Plan.parse leapSunday.source = .ok (.cron leapSunday) ∧
      leapSunday.sets.secondsAfter { seconds := 1961668800 } = [2845281600, 3728894400] := by
  have hparse : Plan.parse leapSunday.source = .ok (.cron leapSunday) := by decide +kernel
  refine ⟨hparse, ?_⟩
  obtain ⟨-, -, hupcoming⟩ := @upcoming_eq_take_secondsAfter _ _ hparse
    { seconds := 1961668800 } (by decide) (by decide)
  have hthree := hupcoming 3 (by decide)
  have hfound : (Plan.cron leapSunday).upcoming { seconds := 1961668800 } 3 =
      .ok [{ seconds := 2845281600 }, { seconds := 3728894400 }] := by decide +kernel
  rw [hfound] at hthree
  match hdue : leapSunday.sets.secondsAfter { seconds := 1961668800 } with
  | [] => simp [hdue] at hthree
  | [_] => simp [hdue] at hthree
  | [_, _] => simpa [hdue, eq_comm] using hthree
  | _ :: _ :: _ :: _ => simp [hdue] at hthree

/-- Two triggers are left, but no list has them whose room cannot be had. -/
theorem longCronList_refused :
    let start : Instant := { seconds := 1961668800 }
    Plan.parse leapSunday.source = .ok (.cron leapSunday) ∧
      start.seconds + 1 ≤ Instant.latest ∧
      0 ≤ Date.yearOfDay (Instant.day (start.seconds + 1)) ∧
      (Plan.cron leapSunday).upcoming start 3 =
        .ok [{ seconds := 2845281600 }, { seconds := 3728894400 }] ∧
      ¬∃ times, (Plan.cron leapSunday).upcoming start (longestList + 1) = .ok times := by
  intro start
  refine ⟨by decide +kernel, by decide, by decide, by decide +kernel, ?_⟩
  rintro ⟨times, htimes⟩
  have hrefused := upcoming_of_lt (Plan.cron leapSunday) start (Nat.lt_succ_self longestList)
  cases hrefused.symm.trans htimes

end Plan
end RecurringJobs
