import RecurringJobs.Engine.Basic
import RecurringJobs.Proofs.Cron.Sets

/-!
The triggers of a plan, one after the other.

The next trigger depends on the second in which it is looked for and not on the part of it, and
every trigger is a whole second.  A search that begins within the range of instants stays there.
-/

namespace RecurringJobs
namespace Plan

/-! ## What is read -/

theorem readCron_isWithin {text : List Char} {plan : Plan} (h : readCron text = .ok plan) :
    ∃ schedule, plan = .cron schedule ∧ schedule.sets.IsWithin := by
  unfold readCron at h
  dsimp only at h
  split at h
  · unfold Cron.Schedule.parse at h
    cases hsets : Cron.readSets text with
    | error misreading => simp [hsets] at h
    | ok sets =>
      rw [hsets] at h
      cases h
      exact ⟨_, rfl, Cron.readSets_isWithin hsets⟩
  · cases h

/-- The sets of a plan, if it has any, are parts of what their fields can hold. -/
def IsWithin : Plan → Prop
  | every _ => True
  | cron schedule => schedule.sets.IsWithin

theorem read_isWithin {text : List Char} {plan : Plan} (h : read text = .ok plan) :
    plan.IsWithin := by
  have hcron : ∀ {cs : List Char}, readCron cs = .ok plan → plan.IsWithin := by
    intro cs hread
    obtain ⟨schedule, rfl, hwithin⟩ := readCron_isWithin hread
    exact hwithin
  unfold read at h
  split at h
  · cases h
  · split at h
    · cases h
      exact trivial
    · cases h
    · split at h
      · split at h
        · exact hcron h
        · cases h
      · exact hcron h

theorem parse_isWithin {text : String} {plan : Plan} (h : parse text = .ok plan) :
    plan.IsWithin := by
  unfold parse at h
  cases hread : read (Text.trim text.toList) with
  | error fault =>
    rw [hread] at h
    cases h
  | ok p =>
    rw [hread] at h
    cases h
    exact read_isWithin hread

/-! ## The next trigger -/

/-- The search for a trigger after `start` stays in the range of instants: that of a cron plan
begins with the second that follows. -/
def StaysInRange (plan : Plan) (start : Instant) : Prop :=
  match plan with
  | every _ => True
  | cron _ => start.seconds < Instant.latest

theorem next?_congr (plan : Plan) {a b : Instant} (h : a.seconds = b.seconds) :
    plan.next? a = plan.next? b := by
  cases plan with
  | every seconds => simp only [next?, h]
  | cron schedule => simp only [next?, Cron.Schedule.next?, h]

theorem StaysInRange.next?_ok {plan : Plan} {start : Instant} (h : plan.StaysInRange start) :
    plan.next? start = .ok (plan.due? start) := by
  cases plan with
  | every seconds => rfl
  | cron schedule =>
    have hrange : ¬Instant.latest < start.seconds + 1 := by
      have : start.seconds < Instant.latest := h
      omega
    unfold due? next? Cron.Schedule.next?
    simp only [hrange, if_false]
    split <;> simp_all

theorem nanos_of_next? {plan : Plan} {start due : Instant}
    (h : plan.next? start = .ok (some due)) : due.nanos = 0 := by
  cases plan with
  | every seconds =>
    unfold next? at h
    dsimp only at h
    split at h
    · cases h
      rfl
    · cases h
  | cron schedule =>
    unfold next? Cron.Schedule.next? at h
    dsimp only at h
    split at h
    · cases h
    · split at h
      · cases h
      · obtain ⟨seconds, -, rfl⟩ := Option.map_eq_some_iff.mp (Except.ok.inj h)
        rfl

/-- After its first trigger a cron plan is far from the end of the range. -/
theorem StaysInRange.next {plan : Plan} (hwithin : plan.IsWithin) {start due : Instant}
    (h : plan.next? start = .ok (some due)) : plan.StaysInRange due := by
  cases plan with
  | every seconds => exact trivial
  | cron schedule =>
    unfold next? Cron.Schedule.next? at h
    dsimp only at h
    split at h
    · cases h
    · split at h
      · cases h
      · obtain ⟨seconds, hseconds, rfl⟩ := Option.map_eq_some_iff.mp (Except.ok.inj h)
        have hlt := Cron.Sets.first?_lt hwithin hseconds
        show seconds < Instant.latest
        unfold Cron.Sets.horizon at hlt
        unfold Instant.latest
        omega

/-! ## What is gathered -/

theorem gather_of_none {plan : Plan} {start : Instant} (h : plan.next? start = .ok none)
    (count : Nat) : plan.gather start count = .ok [] := by
  cases count with
  | zero => rfl
  | succ count => simp [gather, h, bind, Except.bind, pure, Except.pure]

theorem gather_of_some {plan : Plan} {start due : Instant}
    (h : plan.next? start = .ok (some due)) (count : Nat) :
    plan.gather start (count + 1) = (plan.gather due count).map (due :: ·) := by
  simp only [gather, h, bind, Except.bind]
  cases plan.gather due count <;> rfl

/-! ## The list of triggers -/

theorem upcoming_of_le (plan : Plan) (start : Instant) {count : Nat} (h : count ≤ longestList) :
    plan.upcoming start count = (plan.gather start count).mapError fun _ => .beyondRange :=
  if_neg (Nat.not_lt.mpr h)

/-- A list that could not be held is refused, whatever would be in it. -/
theorem upcoming_of_lt (plan : Plan) (start : Instant) {count : Nat} (h : longestList < count) :
    plan.upcoming start count = .error .tooLong :=
  if_pos h

theorem upcoming_eq_ok_iff {plan : Plan} {start : Instant} {count : Nat} {times : List Instant} :
    plan.upcoming start count = .ok times ↔
      count ≤ longestList ∧ plan.gather start count = .ok times := by
  by_cases hcount : count ≤ longestList
  · rw [upcoming_of_le plan start hcount, and_iff_right hcount]
    cases plan.gather start count <;> simp [Except.mapError]
  · rw [upcoming_of_lt plan start (Nat.lt_of_not_le hcount)]
    simp [hcount]

theorem parseNext_of_parse {text : String} {plan : Plan} (h : parse text = .ok plan)
    (start : Instant) (count : Nat) :
    parseNext text start count = (plan.upcoming start count).mapError .unlisted := by
  unfold parseNext
  rw [h]

theorem parseNext_eq_ok_iff {text : String} {plan : Plan} (h : parse text = .ok plan)
    {start : Instant} {count : Nat} {times : List Instant} :
    parseNext text start count = .ok times ↔ plan.upcoming start count = .ok times := by
  rw [parseNext_of_parse h]
  cases plan.upcoming start count <;> simp [Except.mapError]

end Plan
end RecurringJobs
