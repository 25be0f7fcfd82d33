import RecurringJobs.Proofs.Cron.Search
import RecurringJobs.Proofs.Plan.Triggers

/-!
The list of a plan's triggers, as a sequence of instants.

Each trigger is the next one after the one before it, and later than it.  So a list of triggers
ascends, it can be asked for in two parts, and that of a fixed delay goes in equal steps from the
whole second in which it begins.
-/

namespace RecurringJobs
namespace Plan

/-! ## What is read -/

theorem readCron_ne_every {text : List Char} {seconds : Nat} :
    readCron text ≠ .ok (.every seconds) := by
  intro h
  obtain ⟨schedule, hcron, -⟩ := readCron_isWithin h
  cases hcron

theorem read_every {text : List Char} {seconds : Nat} (h : read text = .ok (.every seconds)) :
    ∃ nanos, Interval.requested? text = some (.ok nanos) ∧ seconds = normalizedSeconds nanos := by
  unfold read at h
  split at h
  · cases h
  · split at h
    · next nanos hrequested =>
      cases h
      exact ⟨nanos, hrequested, rfl⟩
    · cases h
    · split at h
      · split at h
        · exact absurd h readCron_ne_every
        · cases h
      · exact absurd h readCron_ne_every

/-- A fixed delay is the interval that was asked for, in whole seconds, and at least one. -/
theorem parse_every_eq {text : String} {seconds : Nat} (h : parse text = .ok (.every seconds)) :
    ∃ nanos, requestedInterval text = some nanos ∧ seconds = normalizedSeconds nanos := by
  unfold parse at h
  cases hread : read (Text.trim text.toList) with
  | error fault =>
    rw [hread] at h
    cases h
  | ok plan =>
    rw [hread] at h
    cases h
    obtain ⟨nanos, hrequested, hseconds⟩ := read_every hread
    refine ⟨nanos, ?_, hseconds⟩
    unfold requestedInterval
    rw [hrequested]

theorem one_le_normalizedSeconds (nanos : Nat) : 1 ≤ normalizedSeconds nanos :=
  Nat.le_max_left 1 _

/-- What makes the triggers of a plan go forward. -/
def Advances : Plan → Prop
  | every seconds => 1 ≤ seconds
  | cron schedule => schedule.sets.IsWithin

theorem parse_advances {text : String} {plan : Plan} (h : parse text = .ok plan) :
    plan.Advances := by
  cases plan with
  | every seconds =>
    obtain ⟨nanos, -, hseconds⟩ := parse_every_eq h
    show 1 ≤ seconds
    rw [hseconds]
    exact one_le_normalizedSeconds nanos
  | cron schedule => exact parse_isWithin h

theorem Advances.isWithin {plan : Plan} (h : plan.Advances) : plan.IsWithin := by
  cases plan with
  | every seconds => exact trivial
  | cron schedule => exact h

/-! ## One trigger after another -/

/-- The first trigger after `a` is at `b`. -/
def Leads (plan : Plan) (a b : Instant) : Prop := plan.next? a = .ok (some b)

theorem Leads.seconds_lt {plan : Plan} (hplan : plan.Advances) {a b : Instant}
    (h : plan.Leads a b) : a.seconds < b.seconds := by
  unfold Leads next? at h
  cases plan with
  | every seconds =>
    have hpos : 1 ≤ seconds := hplan
    dsimp only at h
    split at h
    · cases h
      dsimp only
      omega
    · cases h
  | cron schedule =>
    dsimp only at h
    unfold Cron.Schedule.next? at h
    dsimp only at h
    split at h
    · cases h
    · split at h
      · cases h
      · obtain ⟨second, hfirst, rfl⟩ := Option.map_eq_some_iff.mp (Except.ok.inj h)
        have hleast := Cron.Sets.first?_isFirst hplan (a.seconds + 1)
        rw [hfirst] at hleast
        have hlow : a.seconds + 1 ≤ second := hleast.1.1
        dsimp only
        omega

theorem Leads.before {plan : Plan} (hplan : plan.Advances) {a b : Instant}
    (h : plan.Leads a b) : a.Before b :=
  Instant.before_of_seconds_lt (h.seconds_lt hplan)

theorem Leads.le_latest {plan : Plan} (hplan : plan.Advances) {a b : Instant}
    (h : plan.Leads a b) : b.seconds ≤ Instant.latest := by
  cases plan with
  | every seconds =>
    unfold Leads next? at h
    dsimp only at h
    split at h
    · next hheld =>
      cases h
      exact hheld.2
    · cases h
  | cron schedule =>
    have hstays : b.seconds < Instant.latest := StaysInRange.next hplan.isWithin h
    omega

theorem gather_succ_cases {plan : Plan} {start : Instant} {count : Nat} {times : List Instant}
    (h : plan.gather start (count + 1) = .ok times) :
    plan.next? start = .ok none ∧ times = [] ∨
      ∃ due rest, plan.Leads start due ∧ plan.gather due count = .ok rest ∧
        times = due :: rest := by
  cases hnext : plan.next? start with
  | error beyond => simp [gather, hnext, bind, Except.bind] at h
  | ok next =>
    cases next with
    | none =>
      rw [gather_of_none hnext] at h
      cases h
      exact Or.inl ⟨rfl, rfl⟩
    | some due =>
      rw [gather_of_some hnext] at h
      cases hrest : plan.gather due count with
      | error beyond =>
        rw [hrest] at h
        cases h
      | ok rest =>
        rw [hrest] at h
        cases h
        exact Or.inr ⟨due, rest, hnext, hrest, rfl⟩

theorem gather_isChain {plan : Plan} {start : Instant} {count : Nat} {times : List Instant}
    (h : plan.gather start count = .ok times) : (start :: times).IsChain plan.Leads := by
  induction count generalizing start times with
  | zero =>
    cases h
    exact List.IsChain.singleton start
  | succ count ih =>
    rcases gather_succ_cases h with ⟨-, rfl⟩ | ⟨due, rest, hleads, hrest, rfl⟩
    · exact List.IsChain.singleton start
    · exact List.isChain_cons_cons.mpr ⟨hleads, ih hrest⟩

theorem gather_ascending {plan : Plan} (hplan : plan.Advances) {start : Instant} {count : Nat}
    {times : List Instant} (h : plan.gather start count = .ok times) :
    (start :: times).Pairwise Instant.Before :=
  ((gather_isChain h).imp fun _ _ hleads => hleads.before hplan).pairwise

/-- What is gathered goes on from its last. -/
theorem gather_add {plan : Plan} {start : Instant} {m : Nat} {times : List Instant}
    (h : plan.gather start m = .ok times) (n : Nat) :
    plan.gather start (m + n) = (plan.gather (times.getLastD start) n).map (times ++ ·) := by
  induction m generalizing start times with
  | zero =>
    cases h
    rw [Nat.zero_add]
    show plan.gather start n = (plan.gather start n).map fun rest => rest
    cases plan.gather start n <;> rfl
  | succ m ih =>
    rcases gather_succ_cases h with ⟨hnone, rfl⟩ | ⟨due, rest, hleads, hrest, rfl⟩
    · show _ = (plan.gather start n).map _
      rw [gather_of_none hnone, gather_of_none hnone]
      rfl
    · rw [Nat.succ_add_eq_add_succ, Nat.add_succ, gather_of_some hleads, ih hrest,
        List.getLastD_cons]
      cases plan.gather (rest.getLastD due) n <;> rfl

/-- As long as the search stays in the range of instants, any number of triggers can be looked
for. -/
theorem StaysInRange.exists_gather {plan : Plan} (hplan : plan.Advances) {start : Instant}
    (h : plan.StaysInRange start) (count : Nat) : ∃ times, plan.gather start count = .ok times := by
  induction count generalizing start with
  | zero => exact ⟨[], rfl⟩
  | succ count ih =>
    have hnext := h.next?_ok
    cases hdue : plan.due? start with
    | none =>
      rw [hdue] at hnext
      exact ⟨[], gather_of_none hnext (count + 1)⟩
    | some due =>
      rw [hdue] at hnext
      obtain ⟨rest, hrest⟩ := ih (StaysInRange.next hplan.isWithin hnext)
      refine ⟨due :: rest, ?_⟩
      rw [gather_of_some hnext, hrest]
      rfl

theorem length_gather_le {plan : Plan} {start : Instant} {count : Nat} {times : List Instant}
    (h : plan.gather start count = .ok times) : times.length ≤ count := by
  induction count generalizing start times with
  | zero =>
    cases h
    exact Nat.le_refl 0
  | succ count ih =>
    rcases gather_succ_cases h with ⟨-, rfl⟩ | ⟨due, rest, -, hrest, rfl⟩
    · exact Nat.zero_le _
    · exact Nat.succ_le_succ (ih hrest)

/-- Whoever asks for less gets the beginning. -/
theorem gather_take {plan : Plan} {start : Instant} {count : Nat} {times : List Instant}
    (h : plan.gather start count = .ok times) {n : Nat} (hn : n ≤ count) :
    plan.gather start n = .ok (times.take n) := by
  induction count generalizing start times n with
  | zero =>
    cases h
    rw [Nat.le_zero.mp hn]
    rfl
  | succ count ih =>
    cases n with
    | zero => rfl
    | succ n =>
      rcases gather_succ_cases h with ⟨hnone, rfl⟩ | ⟨due, rest, hleads, hrest, rfl⟩
      · rw [gather_of_none hnone]
        rfl
      · rw [gather_of_some hleads, ih hrest (Nat.le_of_succ_le_succ hn)]
        rfl

/-- There are no more triggers than seconds up to the last one that can be held. -/
theorem seconds_add_length_le {plan : Plan} (hplan : plan.Advances) {start : Instant}
    (hstart : start.seconds ≤ Instant.latest) {count : Nat} {times : List Instant}
    (h : plan.gather start count = .ok times) :
    start.seconds + times.length ≤ Instant.latest := by
  induction count generalizing start times with
  | zero =>
    cases h
    simpa using hstart
  | succ count ih =>
    rcases gather_succ_cases h with ⟨-, rfl⟩ | ⟨due, rest, hleads, hrest, rfl⟩
    · simpa using hstart
    · have hlt := hleads.seconds_lt hplan
      have hfits := ih (hleads.le_latest hplan) hrest
      rw [List.length_cons]
      omega

/-- There is always room for all triggers that there are. -/
theorem length_lt_longestList {plan : Plan} (hplan : plan.Advances) {start : Instant}
    (hstart : Instant.inRange start.seconds = true) {count : Nat} {times : List Instant}
    (h : plan.gather start count = .ok times) : times.length < longestList := by
  obtain ⟨hlow, hhigh⟩ : Instant.earliest ≤ start.seconds ∧ start.seconds ≤ Instant.latest := by
    simpa [Instant.inRange] using hstart
  have hfits := seconds_add_length_le hplan hhigh h
  unfold Instant.earliest at hlow
  unfold Instant.latest at hfits
  unfold longestList
  omega

/-! ## Fixed delays -/

/-- The first `count` steps of a fixed delay, from a whole second. -/
def steps (second : Int) (delay : Nat) : Nat → List Instant
  | 0 => []
  | count + 1 => { seconds := second + delay } :: steps (second + delay) delay count

theorem length_steps (second : Int) (delay count : Nat) :
    (steps second delay count).length = count := by
  induction count generalizing second with
  | zero => rfl
  | succ count ih => rw [steps, List.length_cons, ih]

theorem getElem_steps {second : Int} {delay count k : Nat}
    (h : k < (steps second delay count).length) :
    (steps second delay count)[k] = { seconds := second + (k + 1) * delay } := by
  induction count generalizing second k with
  | zero => exact absurd h (Nat.not_lt_zero k)
  | succ count ih =>
    cases k with
    | zero =>
      show ({ seconds := second + delay } : Instant) = _
      simp
    | succ k =>
      have hk : k < (steps (second + delay) delay count).length := Nat.lt_of_succ_lt_succ h
      show (steps (second + delay) delay count)[k] = _
      rw [ih hk, Int.natCast_succ, Int.add_mul (k + 1 : Int), Int.one_mul]
      congr 1
      omega

/-- How many steps of a delay there are up to the last second that can be held. -/
def reach (second : Int) (delay : Nat) : Nat :=
  if delay ≤ longestDelay then ((Instant.latest - second) / delay).toNat else 0

theorem le_reach_iff {second : Int} {delay count : Nat} (hpos : 1 ≤ delay) :
    count ≤ reach second delay ↔
      count = 0 ∨ delay ≤ longestDelay ∧ second + count * delay ≤ Instant.latest := by
  have hdelay : (0 : Int) < delay := by omega
  have hdiv : (count : Int) ≤ (Instant.latest - second) / delay ↔
      (count : Int) * delay ≤ Instant.latest - second := Int.le_ediv_iff_mul_le hdelay
  unfold reach
  by_cases hlong : delay ≤ longestDelay
  · rw [if_pos hlong]
    omega
  · rw [if_neg hlong]
    omega

theorem reach_eq_zero {second : Int} {delay : Nat} (hpos : 1 ≤ delay)
    (h : ¬(delay ≤ longestDelay ∧ second + delay ≤ Instant.latest)) : reach second delay = 0 := by
  have hone : ¬1 ≤ reach second delay := by
    rw [le_reach_iff hpos]
    simpa using h
  omega

theorem reach_succ {second : Int} {delay : Nat} (hpos : 1 ≤ delay)
    (h : delay ≤ longestDelay ∧ second + delay ≤ Instant.latest) :
    reach second delay = reach (second + delay) delay + 1 := by
  have hdelay : (delay : Int) ≠ 0 := by omega
  have hrest : 0 ≤ (Instant.latest - (second + delay)) / delay :=
    Int.ediv_nonneg (by omega) (Int.natCast_nonneg delay)
  have hsplit : Instant.latest - second = Instant.latest - (second + delay) + 1 * delay := by omega
  unfold reach
  rw [if_pos h.1, if_pos h.1, hsplit, Int.add_mul_ediv_right _ _ hdelay,
    Int.toNat_add hrest Int.one_nonneg]
  rfl

theorem next?_every (delay : Nat) (start : Instant) :
    (every delay).next? start =
      .ok (if delay ≤ longestDelay ∧ start.seconds + delay ≤ Instant.latest
        then some { seconds := start.seconds + delay } else none) := rfl

/-- The triggers of a fixed delay are its steps, as far as they can be held. -/
theorem gather_every {delay : Nat} (hpos : 1 ≤ delay) (start : Instant) (count : Nat) :
    (every delay).gather start count =
      .ok (steps start.seconds delay (min count (reach start.seconds delay))) := by
  induction count generalizing start with
  | zero => rw [Nat.zero_min]; rfl
  | succ count ih =>
    have hnext := next?_every delay start
    by_cases hheld : delay ≤ longestDelay ∧ start.seconds + delay ≤ Instant.latest
    · rw [if_pos hheld] at hnext
      rw [gather_of_some hnext, ih, reach_succ hpos hheld, Nat.succ_min_succ]
      rfl
    · rw [if_neg hheld] at hnext
      rw [gather_of_none hnext, reach_eq_zero hpos hheld, Nat.min_zero]
      rfl

/-! ## The laws -/

/-- The triggers of a plan ascend from the instant at which it begins, each being the next one after
the one before it, and a list of them goes on where a shorter one ends.  A fixed delay is at least
one second, and its triggers follow in such steps from the whole second of the beginning. -/
theorem upcoming_laws {text : String} {plan : Plan} (hparse : parse text = .ok plan)
    {start : Instant} {m n : Nat} (hroom : m + n ≤ longestList)
    (hrange : 0 < m + n → plan.StaysInRange start) :
    ∃ firsts rest,
      plan.upcoming start m = .ok firsts ∧
      plan.upcoming (firsts.getLastD start) n = .ok rest ∧
      plan.upcoming start (m + n) = .ok (firsts ++ rest) ∧
      (start :: firsts).Pairwise Instant.Before ∧
      (start :: firsts).IsChain plan.Leads ∧
      ∀ delay, plan = .every delay →
        1 ≤ delay ∧
        (∀ k (h : k < firsts.length),
          firsts[k] = { seconds := start.seconds + (k + 1) * delay }) ∧
        (delay ≤ longestDelay → start.seconds + m * delay ≤ Instant.latest →
          firsts.length = m) := by
  have hplan : plan.Advances := parse_advances hparse
  have hlists : ∃ firsts all, plan.gather start m = .ok firsts ∧
      plan.gather start (m + n) = .ok all := by
    by_cases hnone : m + n = 0
    · obtain ⟨rfl, rfl⟩ : m = 0 ∧ n = 0 := by omega
      exact ⟨[], [], rfl, rfl⟩
    · have hstays := hrange (Nat.pos_of_ne_zero hnone)
      obtain ⟨firsts, hfirsts⟩ := hstays.exists_gather hplan m
      obtain ⟨all, hall⟩ := hstays.exists_gather hplan (m + n)
      exact ⟨firsts, all, hfirsts, hall⟩
  obtain ⟨firsts, all, hfirsts, hall⟩ := hlists
  have hadd := gather_add hfirsts n
  rw [hall] at hadd
  cases hrest : plan.gather (firsts.getLastD start) n with
  | error beyond =>
    rw [hrest] at hadd
    cases hadd
  | ok rest =>
    rw [hrest] at hadd
    refine ⟨firsts, rest, upcoming_eq_ok_iff.mpr ⟨by omega, hfirsts⟩,
      upcoming_eq_ok_iff.mpr ⟨by omega, hrest⟩,
      upcoming_eq_ok_iff.mpr ⟨hroom, hall.trans hadd⟩, gather_ascending hplan hfirsts,
      gather_isChain hfirsts, ?_⟩
    rintro delay rfl
    have hpos : 1 ≤ delay := hplan
    rw [gather_every hpos] at hfirsts
    cases hfirsts
    refine ⟨hpos, fun k hk => getElem_steps hk, ?_⟩
    intro hlong hheld
    have hreach : m ≤ reach start.seconds delay := (le_reach_iff hpos).mpr (Or.inr ⟨hlong, hheld⟩)
    rw [length_steps, Nat.min_eq_left hreach]

/-- Steps of ninety seconds over the beginning of 1970, from within a second. -/
theorem upcoming_laws_ninetySeconds :
    ∃ rest, (every 90).upcoming { seconds := -100, nanos := 250000000 } 3 =
        .ok ([{ seconds := -10 }, { seconds := 80 }] ++ rest) ∧
      (every 90).upcoming { seconds := 80 } 1 = .ok rest := by
  obtain ⟨firsts, rest, hfirsts, hrest, hall, -, -, -⟩ :=
    @upcoming_laws "@every 1m30s" (.every 90) (by decide +kernel)
      { seconds := -100, nanos := 250000000 } 2 1 (by decide) fun _ => trivial
  have htwo : (every 90).upcoming { seconds := -100, nanos := 250000000 } 2 =
      .ok [{ seconds := -10 }, { seconds := 80 }] := by decide
  cases hfirsts.symm.trans htwo
  exact ⟨rest, hall, hrest⟩

/-- Half past six on the first of May 2026, and never again. -/
def oneMorning : Cron.Schedule where
  source := "0 30 6 1 5 * 2026"
  sets := {
    seconds := [0], minutes := [30], hours := [6], daysOfMonth := [1], months := [5]
    daysOfWeek := Cron.Field.daysOfWeek.values, years := [2026] }

/-- One trigger is left.  It makes a list, and so does what follows it, which is nothing; but there
is no list as long as the two are together. -/
theorem longParts_refused :
    let start : Instant := { seconds := 1777593600 }
    parse oneMorning.source = .ok (.cron oneMorning) ∧ (cron oneMorning).StaysInRange start ∧
      (cron oneMorning).next? start = .ok (some { seconds := 1777617000 }) ∧
      (cron oneMorning).next? { seconds := 1777617000 } = .ok none ∧
      (cron oneMorning).upcoming start 1 = .ok [{ seconds := 1777617000 }] ∧
      (cron oneMorning).upcoming { seconds := 1777617000 } longestList = .ok [] ∧
      ¬∃ times, (cron oneMorning).upcoming start (1 + longestList) = .ok times := by
  intro start
  have hnext : (cron oneMorning).next? { seconds := 1777617000 } = .ok none := by decide +kernel
  refine ⟨by decide +kernel, ?_, by decide +kernel, hnext, by decide +kernel, ?_, ?_⟩
  · show (1777593600 : Int) < Instant.latest
    decide
  · exact upcoming_eq_ok_iff.mpr ⟨Nat.le_refl longestList, gather_of_none hnext longestList⟩
  · rintro ⟨times, htimes⟩
    have hrefused := upcoming_of_lt (cron oneMorning) start
      (show longestList < 1 + longestList by omega)
    cases hrefused.symm.trans htimes

end Plan
end RecurringJobs
