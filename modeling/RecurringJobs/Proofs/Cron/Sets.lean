import Mathlib.Algebra.BigOperators.Group.List.Basic
import RecurringJobs.Cron.Schedule

/-!
The sets of a schedule that was read from a text.

Each is a part of what its field can hold, in ascending order (`readSets_isWithin`), so that all
that such a schedule holds lies before the year 2101 (`Sets.first?_lt`).
-/

namespace RecurringJobs

theorem Except.bind_eq_ok {ε α β : Type} {x : Except ε α} {f : α → Except ε β} {b : β} :
    (x >>= f) = .ok b ↔ ∃ a, x = .ok a ∧ f a = .ok b := by
  cases x with
  | error e => simp [bind, Except.bind]
  | ok a => simp [bind, Except.bind]

namespace Cron

theorem Field.mem_values {f : Field} {n : Nat} : n ∈ f.values ↔ f.least ≤ n ∧ n ≤ f.greatest := by
  unfold Field.values Field.span
  rw [List.mem_range'_1]
  omega

theorem Field.evaluate_sublist {f : Field} {items : List Item} {values : List Nat}
    (h : f.evaluate items = .ok values) : values.Sublist f.values := by
  unfold Field.evaluate at h
  obtain ⟨sets, -, hsets⟩ := Except.bind_eq_ok.mp h
  cases hsets
  exact List.filter_sublist

theorem field_sublist {f : Field} {cs rest : List Char} {values : List Nat}
    (h : field f cs = .ok (values, rest)) : values.Sublist f.values := by
  unfold field at h
  cases hi : items? f cs with
  | none => rw [hi] at h; cases h
  | some p =>
    rw [hi] at h
    cases he : f.evaluate p.1 with
    | error fault => simp [he] at h
    | ok vs =>
      simp only [he] at h
      cases h
      exact Field.evaluate_sublist he

theorem yearsAndEnd_sublist {cs : List Char} {values : List Nat}
    (h : yearsAndEnd cs = .ok values) : values.Sublist Field.years.values := by
  unfold yearsAndEnd at h
  cases hf : field .years cs with
  | error m =>
    rw [hf] at h
    dsimp only at h
    split at h
    · cases h
      exact List.Sublist.refl _
    · cases h
  | ok p =>
    rw [hf] at h
    dsimp only at h
    split at h
    · cases h
      exact field_sublist hf
    · cases h

namespace Sets

def get (s : Sets) : Field → List Nat
  | .seconds => s.seconds
  | .minutes => s.minutes
  | .hours => s.hours
  | .daysOfMonth => s.daysOfMonth
  | .months => s.months
  | .daysOfWeek => s.daysOfWeek
  | .years => s.years

def IsWithin (s : Sets) : Prop := ∀ f, (s.get f).Sublist f.values

theorem IsWithin.bounds {s : Sets} (h : s.IsWithin) (f : Field) {n : Nat} (hn : n ∈ s.get f) :
    f.least ≤ n ∧ n ≤ f.greatest :=
  Field.mem_values.mp ((h f).subset hn)

end Sets

theorem readSets_isWithin {cs : List Char} {s : Sets} (h : readSets cs = .ok s) : s.IsWithin := by
  unfold readSets at h
  obtain ⟨⟨seconds, cs1⟩, h1, h⟩ := Except.bind_eq_ok.mp h
  obtain ⟨⟨minutes, cs2⟩, h2, h⟩ := Except.bind_eq_ok.mp h
  obtain ⟨⟨hours, cs3⟩, h3, h⟩ := Except.bind_eq_ok.mp h
  obtain ⟨⟨daysOfMonth, cs4⟩, h4, h⟩ := Except.bind_eq_ok.mp h
  obtain ⟨⟨months, cs5⟩, h5, h⟩ := Except.bind_eq_ok.mp h
  obtain ⟨⟨daysOfWeek, cs6⟩, h6, h⟩ := Except.bind_eq_ok.mp h
  obtain ⟨years, h7, h⟩ := Except.bind_eq_ok.mp h
  cases h
  intro f
  cases f with
  | seconds => exact field_sublist h1
  | minutes => exact field_sublist h2
  | hours => exact field_sublist h3
  | daysOfMonth => exact field_sublist h4
  | months => exact field_sublist h5
  | daysOfWeek => exact field_sublist h6
  | years => exact yearsAndEnd_sublist h7

/-! ## Where the search ends -/

namespace Sets

theorem firstTime?_mem {s : Sets} {low t : Nat} (h : s.firstTime? low = some t) :
    ∃ hour ∈ s.hours, ∃ minute ∈ s.minutes, ∃ second ∈ s.seconds,
      t = hour * 3600 + minute * 60 + second ∧ low ≤ t := by
  unfold firstTime? at h
  obtain ⟨hour, hhour, h⟩ := List.exists_of_findSome?_eq_some h
  split at h
  · cases h
  · obtain ⟨minute, hminute, h⟩ := List.exists_of_findSome?_eq_some h
    obtain ⟨second, hsecond, h⟩ := List.exists_of_findSome?_eq_some h
    dsimp only at h
    split at h
    · next hlow =>
      cases h
      exact ⟨hour, hhour, minute, hminute, second, hsecond, rfl, hlow⟩
    · cases h

theorem firstOnDate?_mem {s : Sets} {t u : Int} {d : Date} (h : s.firstOnDate? t d = some u) :
    s.holdsDate d = true ∧ Instant.day t ≤ d.dayNumber ∧
      ∃ time : Nat, s.firstTime? (if d.dayNumber = Instant.day t then Instant.secondOfDay t else 0) =
          some time ∧ u = d.dayNumber * TimeUnit.secondsPerDay + time := by
  unfold firstOnDate? at h
  split at h
  · next hholds =>
    dsimp only at h
    split at h
    · cases h
    · next hday =>
      obtain ⟨_, hcast, rfl⟩ := Option.map_eq_some_iff.mp h
      obtain ⟨time, htime, hpure⟩ := Option.bind_eq_some_iff.mp hcast
      cases hpure
      exact ⟨hholds, by omega, time, htime, rfl⟩
  · cases h

theorem first?_mem {s : Sets} {t u : Int} (h : s.first? t = some u) :
    ∃ year ∈ s.years, ∃ month ∈ s.months, ∃ day ∈ s.daysOfMonth,
      s.firstOnDate? t { year := (year : Nat), month, day } = some u := by
  unfold first? at h
  obtain ⟨year, hyear, h⟩ := List.exists_of_findSome?_eq_some h
  split at h
  · cases h
  · obtain ⟨month, hmonth, h⟩ := List.exists_of_findSome?_eq_some h
    obtain ⟨day, hday, h⟩ := List.exists_of_findSome?_eq_some h
    exact ⟨year, hyear, month, hmonth, day, hday, h⟩

theorem daysBeforeMonth_le (year : Int) (month : Nat) : Date.daysBeforeMonth year month ≤ 366 := by
  show ((Date.monthLengths year).take (month - 1)).sum ≤ 366
  have hsum : (Date.monthLengths year).sum ≤ 366 := by
    unfold Date.monthLengths
    cases Date.isLeap year <;> decide
  have hsplit := List.sum_take_add_sum_drop (Date.monthLengths year) (month - 1)
  omega

/-- The end of the year 2100, with some room. -/
def horizon : Int := 4150000000

theorem first?_lt {s : Sets} (hs : s.IsWithin) {t u : Int} (h : s.first? t = some u) :
    u < horizon := by
  obtain ⟨year, hyear, month, -, day, hday, h⟩ := first?_mem h
  obtain ⟨-, -, time, htime, rfl⟩ := firstOnDate?_mem h
  obtain ⟨hour, hhour, minute, hminute, second, hsecond, rfl, -⟩ := firstTime?_mem htime
  have hyear' := (hs.bounds .years hyear).2
  have hday' := (hs.bounds .daysOfMonth hday).2
  have hhour' := (hs.bounds .hours hhour).2
  have hminute' := (hs.bounds .minutes hminute).2
  have hsecond' := (hs.bounds .seconds hsecond).2
  have hmonths := daysBeforeMonth_le year month
  simp only [Field.greatest] at hyear' hday' hhour' hminute' hsecond'
  simp only [Date.dayNumber, Date.daysBeforeYear, Date.epochDay, TimeUnit.secondsPerDay, horizon]
  omega

end Sets
end Cron
end RecurringJobs
