import RecurringJobs.Plan.Preset
import RecurringJobs.Proofs.Plan.CronText
import RecurringJobs.Proofs.Plan.Listing

/-!
The plan that triggers once a day.

Its text is a written expression of which only hour and minute are open (`dailyText`).  It can be
read just when these are an hour and a minute, and then holds the seconds of the calendar at that
time of the day (`holds_dailyText_iff`), which lie a day apart from the first one on
(`daysFrom`), over the ends of months and years and over leap days.
-/

namespace RecurringJobs

open TimeUnit

/-! ## The calendar -/

theorem Date.daysInMonth_le (year : Int) (month : Nat) : Date.daysInMonth year month ≤ 31 := by
  unfold Date.daysInMonth
  split
  · exact Nat.zero_le 31
  · cases hlength : (Date.monthLengths year)[month - 1]? with
    | none => exact Nat.zero_le 31
    | some length =>
      have hmem := List.mem_of_getElem? hlength
      unfold Date.monthLengths at hmem
      simp only [List.mem_cons, List.not_mem_nil, or_false] at hmem
      show length ≤ 31
      split at hmem <;> omega

theorem Date.weekday_mem (n : Int) : Date.weekday n ∈ Cron.Field.daysOfWeek.values := by
  rw [Cron.Field.mem_values]
  show 1 ≤ Date.weekday n ∧ Date.weekday n ≤ 7
  unfold Date.weekday
  omega

namespace Cron

theorem year_ge_iff {u : Int} : 1970 ≤ Date.yearOfDay (Instant.day u) ↔ 0 ≤ u := by
  rw [Date.le_yearOfDay_iff]
  unfold Date.daysBeforeYear Date.epochDay Instant.day secondsPerDay
  omega

theorem year_le_iff {u : Int} : Date.yearOfDay (Instant.day u) ≤ 2100 ↔ u < calendarEnd := by
  have hnext : 2101 ≤ Date.yearOfDay (Instant.day u) ↔ _ := Date.le_yearOfDay_iff
  unfold Date.daysBeforeYear Date.epochDay Instant.day secondsPerDay at hnext
  unfold Instant.day secondsPerDay calendarEnd
  omega

theorem exists_year_iff {u : Int} :
    (∃ year ∈ Field.years.values, (year : Int) = (Date.ofDayNumber (Instant.day u)).year) ↔
      0 ≤ u ∧ u < calendarEnd := by
  have hthis : (Date.ofDayNumber (Instant.day u)).year = Date.yearOfDay (Instant.day u) := rfl
  rw [hthis, ← year_ge_iff, ← year_le_iff]
  constructor
  · rintro ⟨year, hyear, heq⟩
    have hbounds := Field.mem_values.mp hyear
    simp only [Field.least, Field.greatest] at hbounds
    omega
  · rintro ⟨hfrom, hto⟩
    refine ⟨(Date.yearOfDay (Instant.day u)).toNat, Field.mem_values.mpr ?_, by omega⟩
    simp only [Field.least, Field.greatest]
    omega

/-! ## Fields of one item -/

namespace FieldText

def all : FieldText := ⟨⟨.all, none⟩, []⟩

def number (n : Nat) : FieldText := ⟨⟨.point (.ofNat n), none⟩, []⟩

theorem text_number (n : Nat) : (number n).text = (Numeral.ofNat n).digits := by
  show ((Numeral.ofNat n).digits ++ []) ++ [] = _
  rw [List.append_nil, List.append_nil]

end FieldText

theorem mem_values_of_field_number {f : Field} {n : Nat} {ws : List FieldText}
    {p : List Nat × List Char}
    (h : field f ((FieldText.number n).text ++ ExpressionText.spaced ws) = .ok p) :
    n ∈ f.values := by
  rw [FieldText.text_number] at h
  have hvalue := mem_values_of_field (closes_spaced ws) h
  rwa [Numeral.value_ofNat] at hvalue

namespace ExpressionText

variable {e : ExpressionText}

theorem mem_setOf_number (he : e.IsWithin) {f : Field} {n v : Nat}
    (h : e.items f = (FieldText.number n).items) : v ∈ e.setOf f ↔ v = n := by
  rw [mem_setOf he]
  unfold Denotes
  rw [h]
  simp only [FieldText.items, FieldText.number, ItemText.Denotes, ItemText.first, ItemText.last,
    ItemText.stride, Numeral.value_ofNat, List.mem_singleton, exists_eq_left, Option.map_none,
    Option.getD_none, Nat.one_dvd, and_true, List.cons_ne_nil, false_and, false_or]
  omega

theorem mem_setOf_all (he : e.IsWithin) {f : Field} {v : Nat}
    (h : e.items f = FieldText.all.items) : v ∈ e.setOf f ↔ v ∈ f.values := by
  rw [mem_setOf he, Field.mem_values]
  unfold Denotes
  rw [h]
  simp only [FieldText.items, FieldText.all, ItemText.Denotes, ItemText.first, ItemText.last,
    ItemText.stride, List.mem_singleton, exists_eq_left, Option.map_none, Option.getD_none,
    Nat.one_dvd, and_true, List.cons_ne_nil, false_and, false_or]

end ExpressionText
end Cron

namespace Plan

open Cron

/-! ## The text -/

/-- A daily plan, field by field. -/
def dailyText (hour minute : Nat) : ExpressionText where
  seconds := .number 0
  minutes := .number minute
  hours := .number hour
  daysOfMonth := .all
  months := .all
  daysOfWeek := .all
  years := none

theorem dailyAt_eq (hour minute : Nat) :
    Preset.dailyAt hour minute = String.ofList (dailyText hour minute).text := by
  have hdigits : ∀ n : Nat, (toString n).toList = Nat.toDigits 10 n := fun n => Nat.toList_repr
  apply String.toList_inj.mp
  rw [String.toList_ofList]
  show (toString "0 " ++ toString minute ++ toString " " ++ toString hour ++
    toString " * * *").toList = _
  simp only [String.toList_append, hdigits]
  show '0' :: ' ' :: Nat.toDigits 10 minute ++ [' '] ++ Nat.toDigits 10 hour ++
    [' ', '*', ' ', '*', ' ', '*'] = _
  simp [ExpressionText.text, ExpressionText.others, ExpressionText.spaced, dailyText,
    FieldText.text, FieldText.number, FieldText.all, FieldText.commas, ItemText.text,
    ItemText.stepText, RangeText.text, Numeral.ofNat]

theorem isWithin_dailyText {hour minute : Nat} (hhour : hour ≤ 23) (hminute : minute ≤ 59) :
    (dailyText hour minute).IsWithin := by
  intro f i hi
  have hnumber : ∀ n, n ∈ f.values → i ∈ (FieldText.number n).items → i.IsWithin f := by
    intro n hn hi
    cases List.mem_singleton.mp hi
    refine ⟨?_, nofun⟩
    show (Numeral.ofNat n).value ∈ f.values
    rwa [Numeral.value_ofNat]
  have hall : i ∈ FieldText.all.items → i.IsWithin f := by
    intro hi
    cases List.mem_singleton.mp hi
    exact ⟨trivial, nofun⟩
  cases f with
  | seconds => exact hnumber 0 (by decide) hi
  | minutes => exact hnumber minute (Field.mem_values.mpr ⟨Nat.zero_le _, hminute⟩) hi
  | hours => exact hnumber hour (Field.mem_values.mpr ⟨Nat.zero_le _, hhour⟩) hi
  | daysOfMonth => exact hall hi
  | months => exact hall hi
  | daysOfWeek => exact hall hi
  | years => cases hi

/-- The minute is read before the hour. -/
theorem bounds_of_readSets {hour minute : Nat} {sets : Sets}
    (h : readSets (dailyText hour minute).text = .ok sets) : hour ≤ 23 ∧ minute ≤ 59 := by
  have hrest : ∀ {f : Field} {m : Nat}, m ≤ 59 →
      (dailyText 0 m).items f = (FieldText.number m).items → ∀ next ws,
      field f ((FieldText.number m).text ++ ExpressionText.spaced (next :: ws)) =
        .ok ((dailyText 0 m).setOf f, next.text ++ ExpressionText.spaced ws) :=
    fun hm hitems => field_text_spaced (isWithin_dailyText (Nat.zero_le 23) hm) hitems
  unfold readSets at h
  obtain ⟨p, hseconds, h⟩ := Except.bind_eq_ok.mp h
  cases (hrest (f := .seconds) (Nat.zero_le 59) rfl _ _).symm.trans hseconds
  obtain ⟨q, hminutes, h⟩ := Except.bind_eq_ok.mp h
  have hminute : minute ≤ 59 := (Field.mem_values.mp (mem_values_of_field_number hminutes)).2
  cases (hrest (f := .minutes) hminute rfl _ _).symm.trans hminutes
  obtain ⟨r, hhours, -⟩ := Except.bind_eq_ok.mp h
  exact ⟨(Field.mem_values.mp (mem_values_of_field_number hhours)).2, hminute⟩

theorem parse_dailyAt {hour minute : Nat} (hhour : hour ≤ 23) (hminute : minute ≤ 59) :
    parse (Preset.dailyAt hour minute) = .ok (.cron
      { source := Preset.dailyAt hour minute, sets := (dailyText hour minute).sets }) := by
  rw [dailyAt_eq]
  exact parse_text (isWithin_dailyText hhour hminute)

theorem bounds_of_parse_dailyAt {hour minute : Nat} {plan : Plan}
    (h : parse (Preset.dailyAt hour minute) = .ok plan) : hour ≤ 23 ∧ minute ≤ 59 := by
  rw [dailyAt_eq] at h
  obtain ⟨sets, hsets⟩ := exists_readSets_of_parse h
  exact bounds_of_readSets hsets

/-! ## The seconds that it holds -/

/-- The second of the day at which it triggers. -/
def dailyTime (hour minute : Nat) : Nat := hour * 3600 + minute * 60

theorem holdsTime_dailyText_iff {hour minute : Nat} (hhour : hour ≤ 23) (hminute : minute ≤ 59)
    (time : Nat) :
    (dailyText hour minute).sets.HoldsTime time ↔ time = dailyTime hour minute := by
  have he := isWithin_dailyText hhour hminute
  have hseconds : time % 60 ∈ (dailyText hour minute).setOf .seconds ↔ _ :=
    ExpressionText.mem_setOf_number he rfl
  have hminutes : time / 60 % 60 ∈ (dailyText hour minute).setOf .minutes ↔ _ :=
    ExpressionText.mem_setOf_number he rfl
  have hhours : time / 3600 ∈ (dailyText hour minute).setOf .hours ↔ _ :=
    ExpressionText.mem_setOf_number he rfl
  unfold dailyTime
  constructor
  · rintro ⟨hsecond, hmin, hhr⟩
    have h0 := hseconds.mp hsecond
    have h1 := hminutes.mp hmin
    have h2 := hhours.mp hhr
    omega
  · intro h
    exact ⟨hseconds.mpr (by omega), hminutes.mpr (by omega), hhours.mpr (by omega)⟩

theorem holds_dailyText_iff {hour minute : Nat} (hhour : hour ≤ 23) (hminute : minute ≤ 59)
    (u : Int) :
    (dailyText hour minute).sets.Holds u ↔
      Instant.secondOfDay u = dailyTime hour minute ∧ 0 ≤ u ∧ u < calendarEnd := by
  have he := isWithin_dailyText hhour hminute
  have htime := holdsTime_dailyText_iff hhour hminute (Instant.secondOfDay u)
  have hyears : (dailyText hour minute).sets.years = Field.years.values :=
    ExpressionText.setOf_of_unwritten rfl
  have hyear := exists_year_iff (u := u)
  rw [← hyears] at hyear
  constructor
  · intro h
    exact ⟨htime.mp h.time, hyear.mp h.year⟩
  · rintro ⟨h, hwithin⟩
    -- every date and every day of the week will do
    obtain ⟨⟨hlow, hhigh, hday, hlast⟩, -⟩ := Date.ofDayNumber_spec (Instant.day u)
    have hle := Nat.le_trans hlast (Date.daysInMonth_le _ _)
    refine ⟨htime.mpr h, ?_, ?_, ?_, hyear.mpr hwithin⟩
    · exact (ExpressionText.mem_setOf_all he rfl).mpr (Field.mem_values.mpr ⟨hday, hle⟩)
    · exact (ExpressionText.mem_setOf_all he rfl).mpr (Field.mem_values.mpr ⟨hlow, hhigh⟩)
    · exact (ExpressionText.mem_setOf_all he rfl).mpr (Date.weekday_mem _)

/-! ## One day after the other -/

/-- The same second of every day from the first on, until there are so many or the year 2100 is
over. -/
def daysFrom (first : Int) : Nat → List Int
  | 0 => []
  | count + 1 => if first < calendarEnd then first :: daysFrom (first + secondsPerDay) count else []

theorem getElem?_daysFrom (first : Int) (count k : Nat) :
    (daysFrom first count)[k]? =
      if k < count ∧ first + k * secondsPerDay < calendarEnd then some (first + k * secondsPerDay)
      else none := by
  induction count generalizing first k with
  | zero => simp [daysFrom]
  | succ count ih =>
    unfold daysFrom
    by_cases hfirst : first < calendarEnd
    · rw [if_pos hfirst]
      cases k with
      | zero => simp [hfirst]
      | succ k =>
        rw [List.getElem?_cons_succ, ih (first + secondsPerDay) k]
        have hstep : first + secondsPerDay + k * secondsPerDay =
            first + (k + 1 : Nat) * secondsPerDay := by
          unfold secondsPerDay
          omega
        rw [hstep]
        simp only [Nat.add_lt_add_iff_right]
    · rw [if_neg hfirst, if_neg]
      · rfl
      · unfold secondsPerDay
        omega

/-- The first second at a time of the day after an instant: there is one within a day. -/
structure IsNextDaily (time : Nat) (start : Instant) (first : Int) : Prop where
  time : Instant.secondOfDay first = time
  later : start.seconds + 1 ≤ first
  soon : first ≤ start.seconds + secondsPerDay

theorem exists_isNextDaily {time : Nat} (htime : time < 86400) (start : Instant) :
    ∃ first, IsNextDaily time start first := by
  have hlast := Instant.day_add_secondOfDay start.seconds
  have hbound := Instant.secondOfDay_lt start.seconds
  by_cases hover : Instant.secondOfDay start.seconds < time
  · have hfirst := (Instant.day_and_secondOfDay_eq htime).mp
      (rfl : Instant.day start.seconds * secondsPerDay + time = _)
    refine ⟨_, hfirst.2, ?_, ?_⟩ <;>
    · unfold secondsPerDay at *
      omega
  · have hfirst := (Instant.day_and_secondOfDay_eq htime).mp
      (rfl : (Instant.day start.seconds + 1) * secondsPerDay + time = _)
    refine ⟨_, hfirst.2, ?_, ?_⟩ <;>
    · unfold secondsPerDay at *
      omega

theorem IsNextDaily.isLeast {time : Nat} {start : Instant} {first : Int}
    (h : IsNextDaily time start first) :
    IsLeast { u | start.Before { seconds := u } ∧ Instant.secondOfDay u = time } first := by
  refine ⟨⟨Instant.not_le_iff.mpr h.later, h.time⟩, ?_⟩
  rintro u ⟨hlater, hu⟩
  have hlater' := Instant.not_le_iff.mp hlater
  have hsoon := h.soon
  have hfirst := h.time
  unfold Instant.secondOfDay secondsPerDay at *
  omega

theorem IsNextDaily.next {time : Nat} {start : Instant} {first : Int}
    (h : IsNextDaily time start first) :
    IsNextDaily time { seconds := first } (first + secondsPerDay) := by
  refine ⟨?_, ?_, Int.le_refl _⟩
  · rw [← h.time]
    unfold Instant.secondOfDay secondsPerDay
    omega
  · unfold secondsPerDay
    dsimp only
    omega

/-! ## The triggers -/

theorem next?_daily {hour minute : Nat} (hhour : hour ≤ 23) (hminute : minute ≤ 59)
    {schedule : Schedule} (hsets : schedule.sets = (dailyText hour minute).sets) {start : Instant}
    (hlow : 0 ≤ start.seconds) (hhigh : start.seconds < calendarEnd) {first : Int}
    (hfirst : IsNextDaily (dailyTime hour minute) start first) :
    (cron schedule).next? start =
      .ok (if first < calendarEnd then some { seconds := first } else none) := by
  have hs : (dailyText hour minute).sets.IsWithin := by
    intro f
    rw [ExpressionText.get_sets]
    exact List.filter_sublist
  have hholds := holds_dailyText_iff hhour hminute
  have hfound := Sets.first?_isFirst hs (start.seconds + 1)
  have hlater := hfirst.later
  have hsearch : (cron schedule).next? start =
      .ok (((dailyText hour minute).sets.first? (start.seconds + 1)).map
        fun u => { seconds := u }) := by
    have hyear : 1970 ≤ Date.yearOfDay (Instant.day (start.seconds + 1)) :=
      year_ge_iff.mpr (by omega)
    show schedule.next? start = _
    unfold Schedule.next?
    dsimp only
    rw [hsets, if_neg, if_neg (by omega)]
    unfold calendarEnd at hhigh
    unfold Instant.latest
    omega
  rw [hsearch]
  cases hcase : (dailyText hour minute).sets.first? (start.seconds + 1) with
  | none =>
    rw [hcase] at hfound
    have hover : ¬first < calendarEnd := by
      intro hwithin
      exact hfound first ⟨hlater, (hholds first).mpr ⟨hfirst.time, by omega, hwithin⟩⟩
    rw [if_neg hover]
    rfl
  | some u =>
    rw [hcase] at hfound
    obtain ⟨⟨hu, huholds⟩, hmin⟩ := hfound
    obtain ⟨htime, -, hend⟩ := (hholds u).mp huholds
    have hle : first ≤ u := hfirst.isLeast.2 ⟨Instant.not_le_iff.mpr hu, htime⟩
    have hwithin : first < calendarEnd := Int.lt_of_le_of_lt hle hend
    have hge : u ≤ first := hmin ⟨hlater, (hholds first).mpr ⟨hfirst.time, by omega, hwithin⟩⟩
    rw [if_pos hwithin, Int.le_antisymm hge hle]
    rfl

theorem gather_daily {hour minute : Nat} (hhour : hour ≤ 23) (hminute : minute ≤ 59)
    {schedule : Schedule} (hsets : schedule.sets = (dailyText hour minute).sets) {start : Instant}
    (hlow : 0 ≤ start.seconds) (hhigh : start.seconds < calendarEnd) {first : Int}
    (hfirst : IsNextDaily (dailyTime hour minute) start first) (count : Nat) :
    (cron schedule).gather start count =
      .ok ((daysFrom first count).map fun u => { seconds := u }) := by
  induction count generalizing start first with
  | zero => rfl
  | succ count ih =>
    have hnext := next?_daily hhour hminute hsets hlow hhigh hfirst
    by_cases hwithin : first < calendarEnd
    · rw [if_pos hwithin] at hnext
      have hlater := hfirst.later
      rw [gather_of_some hnext, ih (by dsimp only; omega) hwithin hfirst.next, daysFrom,
        if_pos hwithin]
      rfl
    · rw [if_neg hwithin] at hnext
      rw [gather_of_none hnext, daysFrom, if_neg hwithin]
      rfl

/-- A daily plan can be read just when its hour and its minute are those of a day.  Then its
triggers after an instant of the years 1970 to 2100 are the first second after it at this time of
the day and the same second of the days that follow, one for each day until there are as many as
were asked for or the year 2100 is over.  As many can be asked for as a list can hold. -/
theorem dailyAt_triggers (hour minute : Nat) :
    ((∃ plan, parse (Preset.dailyAt hour minute) = .ok plan) ↔ hour ≤ 23 ∧ minute ≤ 59) ∧
    ∀ plan, parse (Preset.dailyAt hour minute) = .ok plan →
      ∀ start : Instant, 1970 ≤ Date.yearOfDay (Instant.day start.seconds) →
        Date.yearOfDay (Instant.day start.seconds) ≤ 2100 →
        ∃ first : Int,
          IsLeast { u | start.Before { seconds := u } ∧
            Instant.secondOfDay u = hour * 3600 + minute * 60 } first ∧
          ∀ count ≤ longestList, ∃ times, plan.upcoming start count = .ok times ∧
            parseNext (Preset.dailyAt hour minute) start count = .ok times ∧
            ∀ k : Nat, times[k]? =
              if k < count ∧ Date.yearOfDay (Instant.day (first + k * 86400)) ≤ 2100 then
                some { seconds := first + k * 86400 }
              else none := by
  refine ⟨⟨?_, ?_⟩, ?_⟩
  · rintro ⟨plan, hparse⟩
    exact bounds_of_parse_dailyAt hparse
  · rintro ⟨hhour, hminute⟩
    exact ⟨_, parse_dailyAt hhour hminute⟩
  · intro plan hparse start hfrom hto
    obtain ⟨hhour, hminute⟩ := bounds_of_parse_dailyAt hparse
    cases (parse_dailyAt hhour hminute).symm.trans hparse
    have htime : dailyTime hour minute < 86400 := by
      unfold dailyTime
      omega
    obtain ⟨first, hfirst⟩ := exists_isNextDaily htime start
    refine ⟨first, hfirst.isLeast, fun count hcount => ?_⟩
    have hfound : (cron ⟨Preset.dailyAt hour minute, (dailyText hour minute).sets⟩).upcoming
        start count = .ok ((daysFrom first count).map fun u => { seconds := u }) :=
      upcoming_eq_ok_iff.mpr ⟨hcount, gather_daily hhour hminute rfl (year_ge_iff.mp hfrom)
        (year_le_iff.mp hto) hfirst count⟩
    refine ⟨_, hfound, ?_, fun k => ?_⟩
    · exact (parseNext_eq_ok_iff hparse).mpr hfound
    · rw [List.getElem?_map, getElem?_daysFrom]
      have hday : secondsPerDay = 86400 := rfl
      rw [hday]
      simp only [year_le_iff]
      split <;> rfl

/-- The leap day of 2096, and the end of the calendar. -/
theorem dailyAt_triggers_leapDay :
    ∃ plan, parse (Preset.dailyAt 23 59) = .ok plan ∧
      (∃ times, plan.upcoming { seconds := 3981311940, nanos := 1 } 2 = .ok times ∧
        times[0]? = some { seconds := 3981398340 } ∧ times[1]? = some { seconds := 3981484740 }) ∧
      ∃ times, parseNext (Preset.dailyAt 23 59) { seconds := 4133894340 } 2 = .ok times ∧
        times[0]? = some { seconds := 4133980740 } ∧ times[1]? = none := by
  obtain ⟨hread, htriggers⟩ := dailyAt_triggers 23 59
  obtain ⟨plan, hplan⟩ := hread.mpr ⟨Nat.le_refl 23, Nat.le_refl 59⟩
  refine ⟨plan, hplan, ?_, ?_⟩
  · obtain ⟨first, hfirst, hlists⟩ := htriggers plan hplan { seconds := 3981311940, nanos := 1 }
      (by decide) (by decide)
    have hnext : IsNextDaily (dailyTime 23 59) { seconds := 3981311940, nanos := 1 } 3981398340 :=
      ⟨by decide, by decide, by decide⟩
    cases hfirst.unique hnext.isLeast
    obtain ⟨times, htimes, -, hall⟩ := hlists 2 (by decide)
    exact ⟨times, htimes, (hall 0).trans (by decide), (hall 1).trans (by decide)⟩
  · obtain ⟨first, hfirst, hlists⟩ := htriggers plan hplan { seconds := 4133894340 }
      (by decide) (by decide)
    have hnext : IsNextDaily (dailyTime 23 59) { seconds := 4133894340 } 4133980740 :=
      ⟨by decide, by decide, by decide⟩
    cases hfirst.unique hnext.isLeast
    obtain ⟨times, -, htimes, hall⟩ := hlists 2 (by decide)
    exact ⟨times, htimes, (hall 0).trans (by decide), (hall 1).trans (by decide)⟩

/-- One trigger is left before the year 2100 is over, but a list that could not be held is refused
before it is looked for. -/
theorem longDailyList_refused :
    let start : Instant := { seconds := 4133894399 }
    ∃ plan, parse (Preset.dailyAt 0 0) = .ok plan ∧
      Date.yearOfDay (Instant.day start.seconds) = 2100 ∧
      plan.next? start = .ok (some { seconds := 4133894400 }) ∧
      plan.next? { seconds := 4133894400 } = .ok none ∧
      ¬∃ times, parseNext (Preset.dailyAt 0 0) start (longestList + 1) = .ok times := by
  intro start
  have hhour : 0 ≤ 23 := by decide
  have hminute : 0 ≤ 59 := by decide
  have hparse := parse_dailyAt hhour hminute
  have hlast : IsNextDaily (dailyTime 0 0) start 4133894400 := ⟨by decide, by decide, by decide⟩
  have hover : IsNextDaily (dailyTime 0 0) { seconds := 4133894400 } 4133980800 :=
    ⟨by decide, by decide, by decide⟩
  refine ⟨_, hparse, by decide, ?_, ?_, ?_⟩
  · exact next?_daily hhour hminute rfl (by decide) (by decide) hlast
  · exact next?_daily hhour hminute rfl (by decide) (by decide) hover
  · rintro ⟨times, htimes⟩
    rw [parseNext_eq_ok_iff hparse, upcoming_of_lt _ start (Nat.lt_succ_self longestList)] at htimes
    cases htimes

end Plan
end RecurringJobs
