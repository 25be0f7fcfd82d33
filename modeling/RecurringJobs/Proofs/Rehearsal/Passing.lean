import RecurringJobs.Proofs.Rehearsal.Settling

/-!
What happens while time passes.

`World.pass` goes from one moment when something wakes up to the next, and which moments these are
depends on how long the handlers sleep.  `World.crawl` goes from each millisecond to the next one.
Both come to the same (`World.IsSteady.pass`), for a stop where nothing wakes up changes nothing,
so that two worlds can be compared that stop at different moments.  Only the first stop may be at
the reading where time begins to pass, by timers that were armed at the end of a leap second.
-/

namespace RecurringJobs

open TimeUnit

/-! ## The clocks -/

namespace Clock

theorem advance_zero {c : Clock} (h : c.wall.nanos < 2 * nanosPerSecond) : c.advance 0 = c := by
  unfold advance
  rw [Instant.after_zero h]
  rfl

theorem advance_advance (c : Clock) (m n : Nat) : (c.advance m).advance n = c.advance (m + n) := by
  unfold advance
  simp [Instant.after_after, Nat.add_assoc]

end Clock

namespace Rehearsal
namespace World

variable {w w' : World}

/-! ## Moving the clock -/

theorem reach_elapsed {elapsed : Nat} (h : w.clock.elapsed ≤ elapsed) :
    (w.reach elapsed).clock.elapsed = elapsed := by
  show w.clock.elapsed + (elapsed - w.clock.elapsed) = elapsed
  omega

/-- What wakes up is run, and what still sleeps wakes up later. -/
theorem IsSteady.reach (hw : w.IsSteady) (hq : w.queue = []) {elapsed : Nat}
    (hle : w.clock.elapsed ≤ elapsed) (hwhole : nanosPerMilli ∣ elapsed) :
    (w.reach elapsed).IsSteady ∧ (w.reach elapsed).IsPrompt := by
  have helapsed := reach_elapsed hle
  have hwoken : ∀ t ∈ (w.reach elapsed).queue, ∀ now, t.IsFit now := by
    intro t ht
    have hslept : t ∈ (w.sleepers.filter fun s => s.wake ≤ elapsed).map Sleeper.task := by
      simpa [World.reach, hq] using ht
    obtain ⟨s, hs, rfl⟩ := List.mem_map.mp hslept
    exact (hw.asleep s (List.mem_of_mem_filter hs)).2
  have hlater : ∀ s ∈ (w.reach elapsed).sleepers,
      s ∈ w.sleepers ∧ (w.reach elapsed).clock.elapsed < s.wake := by
    intro s hs
    obtain ⟨hs, hlater⟩ := List.mem_filter.mp hs
    rw [helapsed]
    exact ⟨hs, by simpa using hlater⟩
  refine ⟨⟨Instant.nanos_after_lt _ _, ?_, ?_, hw.quiet, fun t ht => hwoken t ht _, ?_⟩, ?_, ?_⟩
  · rw [helapsed]
    exact hwhole
  · exact fun s hs => (hw.ticking s hs).later Instant.of_isLeap_after
  · intro s hs
    obtain ⟨hs, hlater⟩ := hlater s hs
    obtain ⟨⟨-, hdvd⟩, hfit⟩ := hw.asleep s hs
    exact ⟨⟨Nat.le_of_lt hlater, hdvd⟩, hfit⟩
  · exact fun s hs => (hlater s hs).2
  · exact fun i serial due ht => absurd (hwoken _ ht due) (Instant.not_isAhead_self due)

theorem Alike.reach (h : w.Alike w') (elapsed : Nat) :
    (w.reach elapsed).Alike (w'.reach elapsed) := by
  have hwoken : ∀ ss : List Sleeper,
      ((ss.filter fun s => s.wake ≤ elapsed).map Sleeper.task).filter (fun t => !t.isRun) =
        ((ss.filter fun s => !s.task.isRun).filter fun s => s.wake ≤ elapsed).map Sleeper.task := by
    intro ss
    rw [List.filter_map, List.filter_filter, List.filter_filter]
    simp [Bool.and_comm]
  have hlater : ∀ ss : List Sleeper,
      (ss.filter fun s => elapsed < s.wake).filter (fun s => !s.task.isRun) =
        (ss.filter fun s => !s.task.isRun).filter fun s => elapsed < s.wake := by
    intro ss
    rw [List.filter_filter, List.filter_filter]
    simp [Bool.and_comm]
  refine ⟨?_, h.store, h.stations, h.calls, ?_, ?_⟩
  · simp [World.reach, h.clock]
  · simp only [World.reach, List.filter_append, h.queue, hwoken, h.sleepers]
  · simp only [World.reach, hlater, h.sleepers]

/-- Nothing wakes up until this reading. -/
def SleepsThrough (w : World) (elapsed : Nat) : Prop := ∀ s ∈ w.sleepers, elapsed < s.wake

theorem SleepsThrough.reach {elapsed : Nat} (h : w.SleepsThrough elapsed) :
    w.reach elapsed = { w with clock := w.clock.advance (elapsed - w.clock.elapsed) } := by
  have hnone : (w.sleepers.filter fun s => s.wake ≤ elapsed) = [] :=
    List.filter_eq_nil_iff.mpr fun s hs => by simpa using h s hs
  have hall : (w.sleepers.filter fun s => elapsed < s.wake) = w.sleepers :=
    List.filter_eq_self.mpr fun s hs => by simpa using h s hs
  unfold World.reach
  rw [hnone, hall]
  simp

theorem IsSteady.reach_self (hw : w.IsSteady) (hprompt : w.IsPrompt) :
    w.reach w.clock.elapsed = w := by
  have hthrough : w.SleepsThrough w.clock.elapsed := hprompt.asleep
  rw [hthrough.reach, Nat.sub_self, Clock.advance_zero hw.nanos]

/-- A stop on the way where nothing wakes up changes nothing. -/
theorem SleepsThrough.reach_reach {stop elapsed : Nat} (hstop : w.SleepsThrough stop)
    (hle : w.clock.elapsed ≤ stop) (hlater : stop ≤ elapsed) :
    (w.reach stop).reach elapsed = w.reach elapsed := by
  have hclock : (w.clock.advance (stop - w.clock.elapsed)).advance
      (elapsed - (w.clock.elapsed + (stop - w.clock.elapsed))) =
        w.clock.advance (elapsed - w.clock.elapsed) := by
    rw [Clock.advance_advance]
    congr 1
    omega
  rw [hstop.reach]
  unfold World.reach
  show World.mk ((w.clock.advance _).advance (elapsed - (w.clock.elapsed + _))) _ _ _ _ _ _ _ _ = _
  rw [hclock]

/-! ## From one millisecond to the next -/

/-- Lets so many milliseconds pass, and everything happen in each. -/
def crawl : Nat → World → World
  | 0, w => w.settle
  | millis + 1, w => crawl millis (w.settle.reach (w.clock.elapsed + nanosPerMilli))

/-- What is triggered meanwhile. -/
def crawlTriggers : Nat → World → List Triggered
  | 0, w => w.settleTriggers
  | millis + 1, w =>
    w.settleTriggers ++ crawlTriggers millis (w.settle.reach (w.clock.elapsed + nanosPerMilli))

/-- The world in a later millisecond, or in the same one once more. -/
structure Reached (w : World) (elapsed : Nat) : Prop where
  steady : (w.settle.reach elapsed).IsSteady
  prompt : (w.settle.reach elapsed).IsPrompt
  elapsed : (w.settle.reach elapsed).clock.elapsed = elapsed

theorem IsSteady.reached (hw : w.IsSteady) {elapsed : Nat} (hle : w.clock.elapsed ≤ elapsed)
    (hwhole : nanosPerMilli ∣ elapsed) : w.Reached elapsed := by
  obtain ⟨hsettled, hempty, hclock, -⟩ := hw.settle
  rw [← hclock] at hle
  obtain ⟨hsteady, hprompt⟩ := hsettled.reach hempty hle hwhole
  exact ⟨hsteady, hprompt, reach_elapsed hle⟩

theorem IsSteady.nextMilli (hw : w.IsSteady) : w.Reached (w.clock.elapsed + nanosPerMilli) :=
  hw.reached (Nat.le_add_right _ _) (Nat.dvd_add hw.whole (Nat.dvd_refl _))

theorem IsSteady.crawl (hw : w.IsSteady) (millis : Nat) :
    (w.crawl millis).IsSteady ∧ (w.crawl millis).queue = [] := by
  induction millis generalizing w with
  | zero => exact ⟨hw.settle.steady, hw.settle.queue⟩
  | succ millis ih => exact ih hw.nextMilli.steady

/-- Worlds that are alike stay so, and the same is triggered, however long that takes. -/
theorem Alike.crawl (h : w.Alike w') (hw : w.IsSteady) (hw' : w'.IsSteady) (millis : Nat) :
    (w.crawl millis).Alike (w'.crawl millis) ∧
      crawlTriggers millis w = crawlTriggers millis w' := by
  induction millis generalizing w w' with
  | zero => exact h.settle hw hw'
  | succ millis ih =>
    obtain ⟨hsettled, hnow⟩ := h.settle hw hw'
    have hreached := hsettled.reach (w.clock.elapsed + nanosPerMilli)
    have hnext' := hw'.nextMilli.steady
    rw [h.clock] at hnext'
    obtain ⟨hleft, hlater⟩ := ih hreached hw.nextMilli.steady hnext'
    unfold World.crawl crawlTriggers
    rw [h.clock, hnow, hlater]
    exact ⟨hleft, rfl⟩

/-! ## From one moment when something wakes up to the next -/

/-- What is triggered before the given reading. -/
def passUntilTriggers (target : Nat) : Nat → World → List Triggered
  | 0, _ => []
  | fuel + 1, w =>
    w.settleTriggers ++
      match w.settle.nextWake? with
      | some wake =>
        if wake < target then passUntilTriggers target fuel (w.settle.reach wake) else []
      | none => []

/-- What is triggered while time passes.  At its end there are tasks still to run. -/
def passTriggers (nanos : Nat) (w : World) : List Triggered :=
  passUntilTriggers (w.clock.elapsed + nanos) (nanos / nanosPerMilli + 1) w

theorem le_nextWake? {bound : Nat} (h : ∀ s ∈ w.sleepers, bound ≤ s.wake) {wake : Nat}
    (hwake : w.nextWake? = some wake) : bound ≤ wake := by
  obtain ⟨s, hs, rfl⟩ := List.mem_map.mp (List.min?_mem hwake)
  exact h s hs

/-- Nothing wakes up before the target. -/
theorem passUntil_of_late {target : Nat} (h : ∀ s ∈ w.settle.sleepers, target ≤ s.wake)
    (fuel : Nat) :
    passUntil target (fuel + 1) w = w.settle ∧
      passUntilTriggers target (fuel + 1) w = w.settleTriggers := by
  unfold passUntil passUntilTriggers
  dsimp only
  cases hwake : w.settle.nextWake? with
  | none => simp
  | some wake =>
    have hlate : ¬wake < target := Nat.not_lt.mpr (le_nextWake? h hwake)
    simp [hlate]

theorem passUntil_of_wake {target wake : Nat} (hwake : w.settle.nextWake? = some wake)
    (hlt : wake < target) (fuel : Nat) :
    passUntil target (fuel + 1) w = passUntil target fuel (w.settle.reach wake) ∧
      passUntilTriggers target (fuel + 1) w =
        w.settleTriggers ++ passUntilTriggers target fuel (w.settle.reach wake) := by
  simp [passUntil, passUntilTriggers, hwake, hlt]

/-- The sleepers of a prompt world that has settled wake up a millisecond later at the earliest. -/
theorem IsSteady.le_wake (hw : w.IsSteady) (hprompt : w.IsPrompt) {s : Sleeper}
    (hs : s ∈ w.settle.sleepers) : w.clock.elapsed + nanosPerMilli ≤ s.wake := by
  obtain ⟨hsettled, -, hclock, hleft⟩ := hw.settle
  have hlater := (hleft hprompt).asleep s hs
  have hdvd := (hsettled.asleep s hs).1.2
  rw [hclock] at hlater
  have hstep := Nat.le_of_dvd (by omega) (Nat.dvd_sub hdvd hw.whole)
  omega

theorem nextWake?_eq {bound : Nat} (h : ∀ s ∈ w.sleepers, bound ≤ s.wake) {s : Sleeper}
    (hs : s ∈ w.sleepers) (hwake : s.wake = bound) : w.nextWake? = some bound := by
  refine List.min?_eq_some_iff.mpr ⟨List.mem_map.mpr ⟨s, hs, hwake⟩, ?_⟩
  intro wake hmem
  obtain ⟨s, hs, rfl⟩ := List.mem_map.mp hmem
  exact h s hs

/-- A stop at a millisecond in which nothing wakes up can be left out. -/
theorem IsSteady.passUntil_stop (hw : w.IsSteady) {stop target : Nat}
    (hthrough : w.settle.SleepsThrough stop) (hle : w.clock.elapsed ≤ stop)
    (htarget : stop ≤ target) (fuel : Nat) :
    let next := w.settle.reach stop
    (passUntil target (fuel + 1) w).reach target =
        (passUntil target (fuel + 1) next).reach target ∧
      passUntilTriggers target (fuel + 1) w =
        w.settleTriggers ++ passUntilTriggers target (fuel + 1) next := by
  obtain ⟨hsettled, hempty, hclock, -⟩ := hw.settle
  have hskip : ∀ {later : Nat}, stop ≤ later →
      (w.settle.reach stop).reach later = w.settle.reach later :=
    fun hlater => hthrough.reach_reach (by rw [hclock]; exact hle) hlater
  intro next
  have hnext : next =
      { w.settle with
        clock := w.settle.clock.advance (stop - w.settle.clock.elapsed) } := hthrough.reach
  have hqueue : next.queue = [] := by
    rw [hnext]
    exact hempty
  have hwakes : next.nextWake? = w.settle.nextWake? := by
    rw [hnext]
    rfl
  obtain ⟨hstays, hnone⟩ := settle_of_nil hqueue
  cases hwake : w.settle.nextWake? with
  | none =>
    simp only [passUntil, passUntilTriggers, hstays, hnone, hwakes, hwake]
    exact ⟨(hskip htarget).symm, by simp⟩
  | some wake =>
    have hlater : stop ≤ wake :=
      le_nextWake? (fun s hs => Nat.le_of_lt (hthrough s hs)) hwake
    simp only [passUntil, passUntilTriggers, hstays, hnone, hwakes, hwake]
    by_cases hlt : wake < target
    · simp [hlt, next, hskip hlater]
    · simp only [hlt, if_false]
      exact ⟨(hskip htarget).symm, by simp⟩

/-- What wakes up at the very end is left for the step after. -/
theorem passUntil_end {target : Nat} (h : ∀ s ∈ w.settle.sleepers, target ≤ s.wake) {fuel : Nat}
    (hfuel : 0 < fuel) :
    ((World.passUntil target fuel w).reach target).settle = (w.settle.reach target).settle ∧
      passUntilTriggers target fuel w ++
          ((World.passUntil target fuel w).reach target).settleTriggers =
        w.settleTriggers ++ (w.settle.reach target).settleTriggers := by
  obtain ⟨less, rfl⟩ : ∃ less, fuel = less + 1 := ⟨fuel - 1, by omega⟩
  obtain ⟨hpassed, htriggers⟩ := passUntil_of_late h less
  rw [hpassed, htriggers]
  exact ⟨rfl, rfl⟩

/-- Time passes in the same way whichever moments are stopped at.  The induction is on the
milliseconds, so that a moment when something wakes up is reached by stops that change nothing. -/
theorem IsSteady.passUntil (hw : w.IsSteady) (hprompt : w.IsPrompt) (millis fuel : Nat)
    (hsome : 0 < fuel) (hfuel : millis ≤ fuel) :
    let target := w.clock.elapsed + millis * nanosPerMilli
    ((World.passUntil target fuel w).reach target).settle = w.crawl millis ∧
      passUntilTriggers target fuel w ++
          ((World.passUntil target fuel w).reach target).settleTriggers =
        crawlTriggers millis w := by
  induction millis generalizing w fuel with
  | zero =>
    obtain ⟨hsettled, hempty, hclock, hleft⟩ := hw.settle
    intro target
    have htarget : target = w.settle.clock.elapsed := by simp [target, hclock]
    have hlate : ∀ s ∈ w.settle.sleepers, target ≤ s.wake := by
      intro s hs
      have hwake := hw.le_wake hprompt hs
      simp only [target, Nat.zero_mul]
      omega
    obtain ⟨hpassed, htriggers⟩ := passUntil_end hlate hsome
    have hstays := settle_of_nil hempty
    rw [hpassed, htriggers, htarget, hsettled.reach_self (hleft hprompt), hstays.1, hstays.2]
    exact ⟨rfl, List.append_nil _⟩
  | succ millis ih =>
    obtain ⟨less, rfl⟩ : ∃ less, fuel = less + 1 := ⟨fuel - 1, by omega⟩
    obtain ⟨hnext, hlater, helapsed⟩ := hw.nextMilli
    intro target
    have hsum : target = w.clock.elapsed + nanosPerMilli + millis * nanosPerMilli := by
      simp only [target]
      unfold nanosPerMilli
      omega
    have htarget : target = (w.settle.reach (w.clock.elapsed + nanosPerMilli)).clock.elapsed +
        millis * nanosPerMilli := by rw [helapsed, hsum]
    by_cases hthrough : w.settle.SleepsThrough (w.clock.elapsed + nanosPerMilli)
    · obtain ⟨hsame, htriggers⟩ := hw.passUntil_stop hthrough (Nat.le_add_right _ _)
        (show w.clock.elapsed + nanosPerMilli ≤ target by omega) less
      obtain ⟨hworld, hrest⟩ := ih hnext hlater (less + 1) hsome (by omega)
      rw [← htarget] at hworld hrest
      rw [hsame, htriggers, hworld, List.append_assoc, hrest]
      exact ⟨rfl, rfl⟩
    · obtain ⟨s, hs, hnot⟩ : ∃ s ∈ w.settle.sleepers,
          ¬w.clock.elapsed + nanosPerMilli < s.wake := by
        simpa [SleepsThrough] using hthrough
      have hwake := nextWake?_eq (fun s hs => hw.le_wake hprompt hs) hs
        (Nat.le_antisymm (Nat.le_of_not_lt hnot) (hw.le_wake hprompt hs))
      by_cases hlast : millis = 0
      · subst hlast
        have hend : target = w.clock.elapsed + nanosPerMilli := by omega
        rw [hend]
        exact passUntil_end (fun s hs => hw.le_wake hprompt hs) hsome
      · have hlt : w.clock.elapsed + nanosPerMilli < target := by
          unfold nanosPerMilli at hsum ⊢
          omega
        obtain ⟨hpassed, htriggers⟩ := passUntil_of_wake hwake hlt less
        obtain ⟨hworld, hrest⟩ := ih hnext hlater less (by omega) (by omega)
        rw [← htarget] at hworld hrest
        rw [hpassed, htriggers, hworld, List.append_assoc, hrest]
        exact ⟨rfl, rfl⟩

/-- To let time pass and then everything happen is to go from each millisecond to the next, when
everything has happened and what waits for no time has been woken up. -/
theorem IsSteady.pass (hw : w.IsSteady) (millis : Nat) :
    let next := w.settle.reach w.clock.elapsed
    (w.pass (millis * nanosPerMilli)).settle = next.crawl millis ∧
      w.passTriggers (millis * nanosPerMilli) ++ (w.pass (millis * nanosPerMilli)).settleTriggers =
        w.settleTriggers ++ crawlTriggers millis next := by
  intro next
  obtain ⟨hnext, hprompt, helapsed⟩ := hw.reached (Nat.le_refl _) hw.whole
  have hfuel : millis * nanosPerMilli / nanosPerMilli = millis := Nat.mul_div_cancel _ (by decide)
  have hwakes : ∀ s ∈ w.settle.sleepers, w.clock.elapsed ≤ s.wake := by
    intro s hs
    have hwake := (hw.settle.steady.asleep s hs).1.1
    rw [hw.settle.clock] at hwake
    exact hwake
  unfold World.pass passTriggers
  dsimp only
  rw [hfuel]
  by_cases hthrough : w.settle.SleepsThrough w.clock.elapsed
  · obtain ⟨hsame, htriggers⟩ := hw.passUntil_stop hthrough (Nat.le_refl _)
      (show w.clock.elapsed ≤ w.clock.elapsed + millis * nanosPerMilli by omega) millis
    have hrest := hnext.passUntil hprompt millis (millis + 1) (by omega) (by omega)
    rw [helapsed] at hrest
    rw [hsame, htriggers, List.append_assoc, hrest.1, hrest.2]
    exact ⟨rfl, rfl⟩
  · obtain ⟨s, hs, hnot⟩ : ∃ s ∈ w.settle.sleepers, ¬w.clock.elapsed < s.wake := by
      simpa [SleepsThrough] using hthrough
    have hwake := nextWake?_eq hwakes hs (Nat.le_antisymm (Nat.le_of_not_lt hnot) (hwakes s hs))
    by_cases hnone : millis = 0
    · subst hnone
      rw [Nat.zero_mul, Nat.add_zero]
      exact passUntil_end hwakes (by omega)
    · have hlt : w.clock.elapsed < w.clock.elapsed + millis * nanosPerMilli := by
        unfold nanosPerMilli
        omega
      obtain ⟨hpassed, htriggers⟩ := passUntil_of_wake hwake hlt millis
      have hrest := hnext.passUntil hprompt millis millis (by omega) (Nat.le_refl _)
      rw [helapsed] at hrest
      rw [hpassed, htriggers, List.append_assoc, hrest.1, hrest.2]
      exact ⟨rfl, rfl⟩

end World
end Rehearsal
end RecurringJobs
