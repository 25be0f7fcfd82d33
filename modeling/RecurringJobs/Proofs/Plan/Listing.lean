import RecurringJobs.Proofs.Plan.Enumeration
import RecurringJobs.Proofs.Plan.Sequence

/-!
When a list of triggers is as long as it was asked for.

A cron plan that has nothing more to hold makes a list shorter (`IsFull`).  But so does a fixed delay
that leaves the range of instants, a cron plan finds nothing before year 0, and after the last
second that can be held it cannot be asked.  `Reaches` says where none of these happens.
-/

namespace RecurringJobs
namespace Plan

/-- A list that is shorter than asked for only when the plan is a cron plan that has no trigger
besides those in the list. -/
def IsFull (plan : Plan) (start : Instant) (count : Nat) (times : List Instant) : Prop :=
  times.length < count → ∃ schedule, plan = .cron schedule ∧
    ∀ u, schedule.sets.Holds u → start.Before { seconds := u } → { seconds := u } ∈ times

/-- Whether so many triggers can be looked for within the range of instants. -/
def Reaches (plan : Plan) (start : Instant) (count : Nat) : Prop :=
  count = 0 ∨
    match plan with
    | every delay => start.seconds + count * delay ≤ Instant.latest
    | cron schedule =>
      start.seconds < Instant.latest ∧
        (0 ≤ Date.yearOfDay (Instant.day (start.seconds + 1)) ∨ ∀ u, ¬schedule.sets.Holds u)

/-- Whether triggers of a cron plan are asked for after the last second that can be held. -/
def Overruns (plan : Plan) (start : Instant) (count : Nat) : Prop :=
  0 < count ∧ start.seconds = Instant.latest ∧ ∃ schedule, plan = .cron schedule

theorem isFull_of_gather {plan : Plan} {start : Instant} {count : Nat} {found : List Instant}
    (h : plan.gather start count = .ok found) :
    (∃ times, plan.gather start count = .ok times ∧ plan.IsFull start count times) ↔
      plan.IsFull start count found := by
  constructor
  · rintro ⟨times, htimes, hfull⟩
    cases h.symm.trans htimes
    exact hfull
  · intro hfull
    exact ⟨found, h, hfull⟩

/-! ## Fixed delays -/

theorem isFull_every_iff {delay : Nat} (hpos : 1 ≤ delay) {start : Instant}
    (hstart : Instant.earliest ≤ start.seconds) (count : Nat) :
    (every delay).IsFull start count
        (steps start.seconds delay (min count (reach start.seconds delay))) ↔
      (every delay).Reaches start count := by
  have hfull : (every delay).IsFull start count
      (steps start.seconds delay (min count (reach start.seconds delay))) ↔
        count ≤ reach start.seconds delay := by
    unfold IsFull
    rw [length_steps]
    constructor
    · intro h
      by_cases hshort : min count (reach start.seconds delay) < count
      · obtain ⟨schedule, hcron, -⟩ := h hshort
        cases hcron
      · omega
    · intro hreach hshort
      omega
  have hlong : 0 < count → start.seconds + count * delay ≤ Instant.latest →
      delay ≤ longestDelay := by
    intro hcount hheld
    have hone : delay ≤ count * delay := Nat.le_mul_of_pos_left delay hcount
    have hcast : (delay : Int) ≤ (count : Int) * delay := by exact_mod_cast hone
    unfold Instant.earliest at hstart
    unfold Instant.latest at hheld
    unfold longestDelay
    omega
  rw [hfull, le_reach_iff hpos]
  show _ ↔ count = 0 ∨ start.seconds + count * delay ≤ Instant.latest
  constructor
  · rintro (hnone | ⟨-, hheld⟩)
    · exact Or.inl hnone
    · exact Or.inr hheld
  · rintro (hnone | hheld)
    · exact Or.inl hnone
    · by_cases hnone : count = 0
      · exact Or.inl hnone
      · exact Or.inr ⟨hlong (Nat.pos_of_ne_zero hnone) hheld, hheld⟩

/-! ## Cron plans -/

theorem gather_of_error {plan : Plan} {start : Instant} {beyond : Cron.BeyondRange}
    (h : plan.next? start = .error beyond) (count : Nat) :
    plan.gather start (count + 1) = .error beyond := by
  simp only [gather, h, bind, Except.bind]

theorem gather_lastSecond (schedule : Cron.Schedule) {start : Instant}
    (h : start.seconds = Instant.latest) {count : Nat} (hcount : 0 < count) :
    (cron schedule).gather start count = .error {} := by
  obtain ⟨count, rfl⟩ := Nat.exists_eq_add_of_lt hcount
  apply gather_of_error
  show schedule.next? start = .error {}
  unfold Cron.Schedule.next?
  dsimp only
  rw [if_pos (by omega)]

theorem gather_beforeYearZero (schedule : Cron.Schedule) {start : Instant}
    (hrange : start.seconds < Instant.latest)
    (hyear : Date.yearOfDay (Instant.day (start.seconds + 1)) < 0) (count : Nat) :
    (cron schedule).gather start count = .ok [] := by
  apply gather_of_none
  show schedule.next? start = .ok none
  unfold Cron.Schedule.next?
  dsimp only
  rw [if_neg (by omega), if_pos hyear]

/-- What a cron plan holds comes long after the years before year 0. -/
theorem before_of_holds {sets : Cron.Sets} (hs : sets.IsWithin) {start : Instant}
    (hyear : Date.yearOfDay (Instant.day (start.seconds + 1)) < 0) {u : Int}
    (hu : sets.Holds u) : start.Before { seconds := u } := by
  have hfirst := (Cron.mem_calendarSeconds.mp (Cron.Sets.mem_calendarSeconds_of_holds hs hu)).1
  have hlate : 1970 ≤ Date.yearOfDay (Instant.day u) := hfirst
  apply Instant.before_of_seconds_lt
  show start.seconds < u
  by_cases hlt : start.seconds < u
  · exact hlt
  · have hle : u ≤ start.seconds + 1 := by omega
    have hmono := Date.yearOfDay_mono (Instant.day_mono hle)
    omega

theorem isFull_nil_iff {schedule : Cron.Schedule} (hs : schedule.sets.IsWithin) {start : Instant}
    (hyear : Date.yearOfDay (Instant.day (start.seconds + 1)) < 0) {count : Nat}
    (hcount : 0 < count) :
    (cron schedule).IsFull start count [] ↔ ∀ u, ¬schedule.sets.Holds u := by
  unfold IsFull
  constructor
  · intro h u hu
    obtain ⟨schedule', hcron, hall⟩ := h hcount
    cases hcron
    exact absurd (hall u hu (before_of_holds hs hyear hu)) List.not_mem_nil
  · intro h _
    exact ⟨schedule, rfl, fun u hu => absurd hu (h u)⟩

theorem isFull_take {schedule : Cron.Schedule} (hs : schedule.sets.IsWithin) (start : Instant)
    (count : Nat) :
    (cron schedule).IsFull start count
      (((schedule.sets.secondsAfter start).take count).map fun u => { seconds := u }) := by
  intro hshort
  rw [List.length_map, List.length_take] at hshort
  refine ⟨schedule, rfl, fun u hu hlater => ?_⟩
  rw [List.take_of_length_le (by omega)]
  exact List.mem_map_of_mem ((Cron.Sets.mem_secondsAfter hs).mpr ⟨hlater, hu⟩)

/-! ## Both -/

theorem gather_eq_error_iff {plan : Plan} (hplan : plan.Advances) {start : Instant}
    (hstart : start.seconds ≤ Instant.latest) (count : Nat) :
    plan.gather start count = .error {} ↔ plan.Overruns start count := by
  constructor
  · intro herror
    have hstays : ¬plan.StaysInRange start := by
      intro hstays
      obtain ⟨times, htimes⟩ := hstays.exists_gather hplan count
      cases htimes.symm.trans herror
    have hsome : 0 < count := by
      apply Nat.pos_of_ne_zero
      rintro rfl
      cases herror
    cases plan with
    | every delay => exact absurd trivial hstays
    | cron schedule =>
      have hlast : ¬start.seconds < Instant.latest := hstays
      exact ⟨hsome, by omega, schedule, rfl⟩
  · rintro ⟨hsome, hlast, schedule, rfl⟩
    exact gather_lastSecond schedule hlast hsome

theorem exists_isFull_iff {plan : Plan} (hplan : plan.Advances) {start : Instant}
    (hlow : Instant.earliest ≤ start.seconds) (hhigh : start.seconds ≤ Instant.latest)
    (count : Nat) :
    (∃ times, plan.gather start count = .ok times ∧ plan.IsFull start count times) ↔
      plan.Reaches start count := by
  cases plan with
  | every delay =>
    have hpos : 1 ≤ delay := hplan
    rw [isFull_of_gather (gather_every hpos start count)]
    exact isFull_every_iff hpos hlow count
  | cron schedule =>
    have hs : schedule.sets.IsWithin := hplan
    by_cases hnone : count = 0
    · subst hnone
      refine ⟨fun _ => Or.inl rfl, fun _ => ⟨[], rfl, ?_⟩⟩
      exact fun hshort => absurd hshort (Nat.not_lt_zero 0)
    have hsome : 0 < count := Nat.pos_of_ne_zero hnone
    have hreaches : (cron schedule).Reaches start count ↔ start.seconds < Instant.latest ∧
        (0 ≤ Date.yearOfDay (Instant.day (start.seconds + 1)) ∨ ∀ u, ¬schedule.sets.Holds u) :=
      or_iff_right hnone
    rw [hreaches]
    by_cases hlast : start.seconds = Instant.latest
    · have herror := gather_lastSecond schedule hlast hsome
      constructor
      · rintro ⟨times, htimes, -⟩
        cases herror.symm.trans htimes
      · rintro ⟨hbefore, -⟩
        omega
    have hrange : start.seconds < Instant.latest := by omega
    by_cases hyear : 0 ≤ Date.yearOfDay (Instant.day (start.seconds + 1))
    · rw [isFull_of_gather (gather_cron hs (by omega) hyear count)]
      exact ⟨fun _ => ⟨hrange, Or.inl hyear⟩, fun _ => isFull_take hs start count⟩
    · have hbefore := Int.not_le.mp hyear
      rw [isFull_of_gather (gather_beforeYearZero schedule hrange hbefore count),
        isFull_nil_iff hs hbefore hsome]
      exact ⟨fun hempty => ⟨hrange, Or.inr hempty⟩, fun h => h.2.resolve_left hyear⟩

/-- Triggers can be listed, except those of a cron plan after the last second that can be held.  And
the list is full just as far as the plan reaches: a fixed delay while its triggers can be held, and
a cron plan from year 0 on, unless it holds nothing at all. -/
theorem parseNext_isFull_iff {text : String} {plan : Plan} (hparse : parse text = .ok plan)
    {start : Instant} (hstart : Instant.inRange start.seconds = true) {count : Nat}
    (hcount : count ≤ longestList) :
    (plan.Overruns start count →
      parseNext text start count = .error (.unlisted .beyondRange)) ∧
    (¬plan.Overruns start count →
      ∃ times, parseNext text start count = .ok times ∧ times.length ≤ count) ∧
    ((∃ times, parseNext text start count = .ok times ∧ plan.IsFull start count times) ↔
      plan.Reaches start count) := by
  obtain ⟨hlow, hhigh⟩ : Instant.earliest ≤ start.seconds ∧ start.seconds ≤ Instant.latest := by
    simpa [Instant.inRange] using hstart
  have hplan : plan.Advances := parse_advances hparse
  have herror := gather_eq_error_iff hplan hhigh count
  have hfull := exists_isFull_iff hplan hlow hhigh count
  rw [parseNext_of_parse hparse, upcoming_of_le plan start hcount]
  cases hfound : plan.gather start count with
  | error beyond =>
    rw [hfound] at herror hfull
    refine ⟨fun _ => rfl, fun hnot => absurd (herror.mp rfl) hnot, ?_⟩
    rw [← hfull]
    simp only [Except.mapError, reduceCtorEq, false_and]
  | ok found =>
    rw [hfound] at herror hfull
    refine ⟨fun hover => ?_, fun _ => ⟨found, rfl, length_gather_le hfound⟩, ?_⟩
    · cases herror.mpr hover
    · rw [← hfull]
      simp only [Except.mapError, Except.ok.injEq]

/-- Five of the leap days that are Sundays: there are two, and none that is left out. -/
theorem leapSunday_isFull :
    ∃ times, parseNext leapSunday.source { seconds := 1961668800 } 5 = .ok times ∧
      times.length < 5 ∧ (cron leapSunday).IsFull { seconds := 1961668800 } 5 times := by
  have hreaches : (cron leapSunday).Reaches { seconds := 1961668800 } 5 := by
    refine Or.inr ⟨?_, Or.inl ?_⟩
    · show (1961668800 : Int) < Instant.latest
      decide
    · decide
  obtain ⟨-, -, hfull⟩ :=
    @parseNext_isFull_iff leapSunday.source (.cron leapSunday) (by decide +kernel)
      { seconds := 1961668800 } (by decide) 5 (by decide)
  obtain ⟨times, htimes, hall⟩ := hfull.mpr hreaches
  have htwo : parseNext leapSunday.source { seconds := 1961668800 } 5 =
      .ok [{ seconds := 2845281600 }, { seconds := 3728894400 }] := by decide +kernel
  cases htimes.symm.trans htwo
  exact ⟨_, htwo, by decide, hall⟩

/-- Every second. -/
def eachSecond : Cron.Schedule where
  source := "* * * * * *"
  sets := {
    seconds := Cron.Field.seconds.values, minutes := Cron.Field.minutes.values
    hours := Cron.Field.hours.values, daysOfMonth := Cron.Field.daysOfMonth.values
    months := Cron.Field.months.values, daysOfWeek := Cron.Field.daysOfWeek.values
    years := Cron.Field.years.values }

/-- Not every list is full: after the last second that can be held a cron plan cannot be listed and
a fixed delay has no trigger, and in the years before year 0 a cron plan gives none of those to
come. -/
theorem lists_fall_short :
    (parse "* * * * * *" = .ok (.cron eachSecond) ∧
      ¬∃ times, parseNext "* * * * * *" { seconds := Instant.latest } 1 = .ok times) ∧
    (parse "@every 1s" = .ok (.every 1) ∧
      ¬∃ times, parseNext "@every 1s" { seconds := Instant.latest } 1 = .ok times ∧
        (every 1).IsFull { seconds := Instant.latest } 1 times) ∧
    ¬∃ times, parseNext "* * * * * *" { seconds := -62167219202 } 1 = .ok times ∧
      (cron eachSecond).IsFull { seconds := -62167219202 } 1 times := by
  have hlast : parseNext "* * * * * *" { seconds := Instant.latest } 1 =
      .error (.unlisted .beyondRange) := by decide +kernel
  have hdelay : parseNext "@every 1s" { seconds := Instant.latest } 1 = .ok [] := by decide +kernel
  have hearly : parseNext "* * * * * *" { seconds := -62167219202 } 1 = .ok [] := by decide +kernel
  refine ⟨⟨by decide +kernel, ?_⟩, ⟨by decide +kernel, ?_⟩, ?_⟩
  · rintro ⟨times, htimes⟩
    cases hlast.symm.trans htimes
  · rintro ⟨times, htimes, hfull⟩
    cases hdelay.symm.trans htimes
    obtain ⟨schedule, hcron, -⟩ := hfull Nat.one_pos
    cases hcron
  · rintro ⟨times, htimes, hfull⟩
    cases hearly.symm.trans htimes
    obtain ⟨schedule, hcron, hall⟩ := hfull Nat.one_pos
    cases hcron
    have hnew := hall 0 (by decide +kernel) (by decide)
    cases hnew

end Plan
end RecurringJobs
