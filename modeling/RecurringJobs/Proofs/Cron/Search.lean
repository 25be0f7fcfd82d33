import Mathlib.Order.Bounds.Basic
import RecurringJobs.Proofs.Calendar
import RecurringJobs.Proofs.Cron.Sets
import RecurringJobs.Proofs.Instant

/-!
The search for the first second that a schedule holds.

A schedule holds a second when its second, minute, hour, day of month, month, day of the week and
year are in the sets (`Sets.Holds`).  Each loop of the search goes through the values of one field
upwards, and what has a greater value there comes later, given the fields around it; so the first
value that leads to anything leads to the first second of all (`IsFirst.findSome?`).
-/

namespace RecurringJobs

/-! ## Searching for the first -/

/-- What a search gives: the first of those that it looks for, or nothing when there are none. -/
def IsFirst {α : Type} [LE α] (P : α → Prop) : Option α → Prop
  | some u => IsLeast { v | P v } u
  | none => ∀ v, ¬P v

namespace IsFirst

variable {α : Type} [LinearOrder α] {P Q : α → Prop}

theorem congr {o : Option α} (h : IsFirst P o) (hiff : ∀ v, P v ↔ Q v) : IsFirst Q o := by
  have hPQ : P = Q := funext fun v => propext (hiff v)
  exact hPQ ▸ h

/-- A search through a field: what is looked for has its value of the field among `xs`, and comes
the later the greater the value is.  The first value that has any gives the first of all. -/
theorem findSome? {xs : List Nat} (hasc : xs.Pairwise (· < ·)) (key : α → Nat)
    (hmono : ∀ u v, P u → P v → key u < key v → u < v) {f : Nat → Option α}
    (hf : ∀ x ∈ xs, IsFirst (fun v => P v ∧ key v = x) (f x)) :
    IsFirst (fun v => P v ∧ key v ∈ xs) (xs.findSome? f) := by
  induction xs with
  | nil =>
    intro v hv
    exact absurd hv.2 List.not_mem_nil
  | cons x xs ih =>
    obtain ⟨hleast, hasc⟩ := List.pairwise_cons.mp hasc
    have hx := hf x List.mem_cons_self
    have hrest := ih hasc fun y hy => hf y (List.mem_cons_of_mem x hy)
    rw [List.findSome?_cons]
    cases hfound : f x with
    | some u =>
      rw [hfound] at hx
      obtain ⟨⟨hu, hkey⟩, hmin⟩ := hx
      refine ⟨⟨hu, hkey ▸ List.mem_cons_self⟩, ?_⟩
      rintro v ⟨hv, hmem⟩
      rcases List.mem_cons.mp hmem with hsame | hlater
      · exact hmin ⟨hv, hsame⟩
      · have hlt : key u < key v := by
          rw [hkey]
          exact hleast _ hlater
        exact (hmono u v hu hv hlt).le
    | none =>
      rw [hfound] at hx
      refine hrest.congr fun v => ?_
      constructor
      · rintro ⟨hv, hmem⟩
        exact ⟨hv, List.mem_cons_of_mem x hmem⟩
      · rintro ⟨hv, hmem⟩
        rcases List.mem_cons.mp hmem with hsame | hlater
        · exact absurd ⟨hv, hsame⟩ (hx v)
        · exact ⟨hv, hlater⟩

/-- What is found in one measure is found in another one that goes in the same direction. -/
theorem map {β : Type} [LinearOrder β] {R : β → Prop} {f : α → β} (hf : Monotone f)
    {o : Option α} (h : IsFirst P o) (hiff : ∀ w, R w ↔ ∃ v, P v ∧ f v = w) :
    IsFirst R (o.map f) := by
  cases o with
  | none =>
    intro w hw
    obtain ⟨v, hv, -⟩ := (hiff w).mp hw
    exact h v hv
  | some u =>
    refine ⟨(hiff (f u)).mpr ⟨u, h.1, rfl⟩, ?_⟩
    intro w hw
    obtain ⟨v, hv, rfl⟩ := (hiff w).mp hw
    exact hf (h.2 hv)

end IsFirst

theorem Date.eq_mk_iff {d : Date} {year : Int} {month day : Nat} :
    d = { year, month, day } ↔ d.year = year ∧ d.month = month ∧ d.day = day := by
  cases d
  simp

namespace Cron
namespace Sets

theorem IsWithin.ascending {s : Sets} (h : s.IsWithin) (f : Field) :
    (s.get f).Pairwise (· < ·) := by
  refine List.Pairwise.sublist (h f) ?_
  exact List.pairwise_lt_range' _

/-! ## The time of the day -/

/-- A second of the day is held when its second, minute and hour are. -/
structure HoldsTime (s : Sets) (time : Nat) : Prop where
  second : time % 60 ∈ s.seconds
  minute : time / 60 % 60 ∈ s.minutes
  hour : time / 3600 ∈ s.hours

theorem HoldsTime.lt {s : Sets} {time : Nat} (h : s.HoldsTime time) (hs : s.IsWithin) :
    time < 86400 := by
  have hhour := (hs.bounds .hours h.hour).2
  simp only [Field.greatest] at hhour
  omega

theorem firstSecond?_isFirst {s : Sets} (hs : s.IsWithin) (low hour minute : Nat)
    (hminute : minute ≤ 59) :
    IsFirst (fun time => low ≤ time ∧ time / 3600 = hour ∧ time / 60 % 60 = minute ∧
        time % 60 ∈ s.seconds)
      (s.seconds.findSome? fun second =>
        if low ≤ hour * 3600 + minute * 60 + second then some (hour * 3600 + minute * 60 + second)
        else none) := by
  refine (IsFirst.findSome? (hs.ascending .seconds) (fun time => time % 60)
    (P := fun time => low ≤ time ∧ time / 3600 = hour ∧ time / 60 % 60 = minute) ?_ ?_).congr ?_
  · intro u v hu hv hlt
    omega
  · intro second hsecond
    have hbound := (hs.bounds .seconds hsecond).2
    simp only [Field.greatest] at hbound
    split
    · next hlow =>
      refine ⟨⟨⟨hlow, by omega, by omega⟩, by omega⟩, ?_⟩
      rintro v ⟨hv, hkey⟩
      omega
    · intro v hv
      omega
  · intro v
    tauto

theorem firstTime?_isFirst {s : Sets} (hs : s.IsWithin) (low : Nat) :
    IsFirst (fun time => low ≤ time ∧ s.HoldsTime time) (s.firstTime? low) := by
  refine (IsFirst.findSome? (hs.ascending .hours) (fun time => time / 3600)
    (P := fun time => low ≤ time ∧ time / 60 % 60 ∈ s.minutes ∧ time % 60 ∈ s.seconds)
    ?_ ?_).congr ?_
  · intro u v _ _ hlt
    omega
  · intro hour hhour
    split
    · next hover =>
      intro v hv
      omega
    · refine (IsFirst.findSome? (hs.ascending .minutes) (fun time => time / 60 % 60)
        (P := fun time => low ≤ time ∧ time / 3600 = hour ∧ time % 60 ∈ s.seconds)
        ?_ ?_).congr ?_
      · intro u v hu hv hlt
        omega
      · intro minute hminute
        have hbound := (hs.bounds .minutes hminute).2
        simp only [Field.greatest] at hbound
        exact (firstSecond?_isFirst hs low hour minute hbound).congr fun v => by tauto
      · intro v
        tauto
  · intro v
    constructor
    · rintro ⟨⟨hlow, hminute, hsecond⟩, hhour⟩
      exact ⟨hlow, hsecond, hminute, hhour⟩
    · rintro ⟨hlow, hsecond, hminute, hhour⟩
      exact ⟨⟨hlow, hminute, hsecond⟩, hhour⟩

/-! ## The date -/

/-- A second is held when its time of the day, its date and its day of the week are. -/
structure Holds (s : Sets) (u : Int) : Prop where
  time : s.HoldsTime (Instant.secondOfDay u)
  day : (Date.ofDayNumber (Instant.day u)).day ∈ s.daysOfMonth
  month : (Date.ofDayNumber (Instant.day u)).month ∈ s.months
  weekday : Date.weekday (Instant.day u) ∈ s.daysOfWeek
  year : ∃ year ∈ s.years, (year : Int) = (Date.ofDayNumber (Instant.day u)).year

theorem holdsDate_iff {s : Sets} {d : Date} (hmonth : 1 ≤ d.month ∧ d.month ≤ 12)
    (hday : 1 ≤ d.day) :
    s.holdsDate d = true ↔ d.IsValid ∧ Date.weekday d.dayNumber ∈ s.daysOfWeek := by
  unfold holdsDate Date.IsValid
  simp [hmonth, hday]

theorem map_cast (o : Option Nat) (f : Int → Int) :
    Option.map f (do let n ← o; pure (n : Int)) = o.map fun n : Nat => f n := by
  cases o <;> rfl

/-- The first second that is held on a day. -/
theorem firstOnDate?_isFirst {s : Sets} (hs : s.IsWithin) (t : Int) {d : Date}
    (hmonth : 1 ≤ d.month ∧ d.month ≤ 12) (hday : 1 ≤ d.day) :
    IsFirst (fun u => t ≤ u ∧ s.HoldsTime (Instant.secondOfDay u) ∧
        Date.weekday (Instant.day u) ∈ s.daysOfWeek ∧ Date.ofDayNumber (Instant.day u) = d)
      (s.firstOnDate? t d) := by
  have hholds := holdsDate_iff (s := s) hmonth hday
  unfold firstOnDate?
  split
  · next hyes =>
    obtain ⟨hvalid, hweekday⟩ := hholds.mp hyes
    have hdate : ∀ n, Date.ofDayNumber n = d ↔ n = d.dayNumber := by
      intro n
      constructor
      · rintro rfl
        exact (Date.ofDayNumber_spec n).2.symm
      · rintro rfl
        exact Date.ofDayNumber_dayNumber hvalid
    dsimp only
    split
    · next hearlier =>
      rintro u ⟨hu, -, -, hd⟩
      rw [hdate] at hd
      have hmono := Instant.day_mono hu
      omega
    · next hlater =>
      have hfirst := firstTime?_isFirst hs
        (if d.dayNumber = Instant.day t then Instant.secondOfDay t else 0)
      rw [map_cast]
      refine hfirst.map ?_ fun u => ?_
      · intro a b hab
        dsimp only
        omega
      · constructor
        · rintro ⟨hu, htime, -, hd⟩
          rw [hdate] at hd
          refine ⟨Instant.secondOfDay u, ⟨?_, htime⟩, ?_⟩
          · have ht := Instant.day_add_secondOfDay t
            have hu' := Instant.day_add_secondOfDay u
            split
            · next htoday =>
              rw [hd, htoday] at hu'
              omega
            · exact Nat.zero_le _
          · rw [← hd]
            exact Instant.day_add_secondOfDay u
        · rintro ⟨time, ⟨hlow, htime⟩, hu⟩
          have hlt : time < 86400 := htime.lt hs
          obtain ⟨hday, hsecond⟩ := (Instant.day_and_secondOfDay_eq hlt).mp hu
          rw [hday, hsecond, hdate]
          refine ⟨?_, htime, hweekday, rfl⟩
          have ht := Instant.day_add_secondOfDay t
          have hbound := Instant.secondOfDay_lt t
          simp only [TimeUnit.secondsPerDay] at ht hu
          split at hlow <;> omega
  · next hno =>
    rintro u ⟨-, -, hweekday, rfl⟩
    obtain ⟨hvalid, hnumber⟩ := Date.ofDayNumber_spec (Instant.day u)
    refine hno (hholds.mpr ⟨hvalid, ?_⟩)
    rw [hnumber]
    exact hweekday

/-! ## The first second -/

/-- Later in the calendar, later in time. -/
theorem lt_of_before {u v : Int}
    (h : (Date.ofDayNumber (Instant.day u)).Before (Date.ofDayNumber (Instant.day v))) : u < v := by
  obtain ⟨hu, hunumber⟩ := Date.ofDayNumber_spec (Instant.day u)
  obtain ⟨hv, hvnumber⟩ := Date.ofDayNumber_spec (Instant.day v)
  have hlt := Date.dayNumber_lt hu hv h
  rw [hunumber, hvnumber] at hlt
  by_contra hle
  have := Instant.day_mono (Int.not_lt.mp hle)
  omega

theorem firstInMonth_isFirst {s : Sets} (hs : s.IsWithin) (t year : Int) {month : Nat}
    (hmonth : 1 ≤ month ∧ month ≤ 12) :
    IsFirst (fun u => t ≤ u ∧ s.HoldsTime (Instant.secondOfDay u) ∧
        Date.weekday (Instant.day u) ∈ s.daysOfWeek ∧
        (Date.ofDayNumber (Instant.day u)).year = year ∧
        (Date.ofDayNumber (Instant.day u)).month = month ∧
        (Date.ofDayNumber (Instant.day u)).day ∈ s.daysOfMonth)
      (s.daysOfMonth.findSome? fun day => s.firstOnDate? t { year, month, day }) := by
  refine (IsFirst.findSome? (hs.ascending .daysOfMonth)
    (fun u => (Date.ofDayNumber (Instant.day u)).day)
    (P := fun u => t ≤ u ∧ s.HoldsTime (Instant.secondOfDay u) ∧
      Date.weekday (Instant.day u) ∈ s.daysOfWeek ∧
      (Date.ofDayNumber (Instant.day u)).year = year ∧
      (Date.ofDayNumber (Instant.day u)).month = month) ?_ ?_).congr fun v => by tauto
  · rintro u v ⟨-, -, -, huyear, humonth⟩ ⟨-, -, -, hvyear, hvmonth⟩ hlt
    refine lt_of_before (Or.inr ⟨?_, Or.inr ⟨?_, hlt⟩⟩)
    · rw [huyear, hvyear]
    · rw [humonth, hvmonth]
  · intro day hday
    have hbound := (hs.bounds .daysOfMonth hday).1
    refine (firstOnDate?_isFirst (d := { year, month, day }) hs t hmonth hbound).congr fun v => ?_
    rw [Date.eq_mk_iff]
    tauto

theorem firstInYear_isFirst {s : Sets} (hs : s.IsWithin) (t year : Int) :
    IsFirst (fun u => t ≤ u ∧ s.HoldsTime (Instant.secondOfDay u) ∧
        Date.weekday (Instant.day u) ∈ s.daysOfWeek ∧
        (Date.ofDayNumber (Instant.day u)).year = year ∧
        (Date.ofDayNumber (Instant.day u)).month ∈ s.months ∧
        (Date.ofDayNumber (Instant.day u)).day ∈ s.daysOfMonth)
      (s.months.findSome? fun month =>
        s.daysOfMonth.findSome? fun day => s.firstOnDate? t { year, month, day }) := by
  refine (IsFirst.findSome? (hs.ascending .months)
    (fun u => (Date.ofDayNumber (Instant.day u)).month)
    (P := fun u => t ≤ u ∧ s.HoldsTime (Instant.secondOfDay u) ∧
      Date.weekday (Instant.day u) ∈ s.daysOfWeek ∧
      (Date.ofDayNumber (Instant.day u)).year = year ∧
      (Date.ofDayNumber (Instant.day u)).day ∈ s.daysOfMonth) ?_ ?_).congr fun v => by tauto
  · rintro u v ⟨-, -, -, huyear, -⟩ ⟨-, -, -, hvyear, -⟩ hlt
    refine lt_of_before (Or.inr ⟨?_, Or.inl hlt⟩)
    rw [huyear, hvyear]
  · intro month hmonth
    have hbound := hs.bounds .months hmonth
    exact (firstInMonth_isFirst hs t year hbound).congr fun v => by tauto

/-- The search finds the first second that is held from `t` on. -/
theorem first?_isFirst {s : Sets} (hs : s.IsWithin) (t : Int) :
    IsFirst (fun u => t ≤ u ∧ s.Holds u) (s.first? t) := by
  refine (IsFirst.findSome? (hs.ascending .years)
    (fun u => (Date.ofDayNumber (Instant.day u)).year.toNat)
    (P := fun u => t ≤ u ∧ s.HoldsTime (Instant.secondOfDay u) ∧
      Date.weekday (Instant.day u) ∈ s.daysOfWeek ∧
      0 ≤ (Date.ofDayNumber (Instant.day u)).year ∧
      (Date.ofDayNumber (Instant.day u)).month ∈ s.months ∧
      (Date.ofDayNumber (Instant.day u)).day ∈ s.daysOfMonth) ?_ ?_).congr ?_
  · intro u v _ _ hlt
    exact lt_of_before (Or.inl (by omega))
  · intro year hyear
    split
    · next hover =>
      -- a second from `t` on lies in no year before that of `t`
      rintro u ⟨⟨hu, -, -, hyear', -⟩, hkey⟩
      have hmono : Date.yearOfDay (Instant.day t) ≤ (Date.ofDayNumber (Instant.day u)).year :=
        Date.yearOfDay_mono (Instant.day_mono hu)
      omega
    · refine (firstInYear_isFirst hs t year).congr fun v => ?_
      have hcast : (Date.ofDayNumber (Instant.day v)).year = (year : Int) ↔
          0 ≤ (Date.ofDayNumber (Instant.day v)).year ∧
            (Date.ofDayNumber (Instant.day v)).year.toNat = year := by omega
      rw [hcast]
      tauto
  · intro v
    constructor
    · rintro ⟨⟨hv, htime, hweekday, hyear, hmonth, hday⟩, hmem⟩
      exact ⟨hv, htime, hday, hmonth, hweekday, _, hmem, Int.toNat_of_nonneg hyear⟩
    · rintro ⟨hv, htime, hday, hmonth, hweekday, year, hmem, hyear⟩
      rw [← hyear]
      exact ⟨⟨hv, htime, hweekday, Int.natCast_nonneg year, hmonth, hday⟩, hmem⟩

end Sets
end Cron
end RecurringJobs
