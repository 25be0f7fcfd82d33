import RecurringJobs.Proofs.Plan.DurationText
import RecurringJobs.Proofs.Plan.Sequence

/-!
The text of a plan and the blanks around it.

A text is read in two ways: `parse` gives its plan, and `requestedInterval` the interval that it asks
for.  Both look at the trimmed text alone.  The text as it was given is only kept for the error, which
therefore gives the same reason whatever surrounds it.  And both take the same texts for fixed delays
(`parse_surrounded`).
-/

namespace RecurringJobs
namespace Plan

/-- Both texts are the same plan, or both are refused for the same reason, each as it was given. -/
def ReadAlike (a b : String) : Prop :=
  (∃ plan, parse a = .ok plan ∧ parse b = .ok plan) ∨
    ∃ fault, parse a = .error { plan := a, fault } ∧ parse b = .error { plan := b, fault }

theorem parse_of_read {text : String} {plan : Plan}
    (h : read (Text.trim text.toList) = .ok plan) : parse text = .ok plan := by
  unfold parse
  rw [h]
  rfl

theorem parse_of_refused {text : String} {fault : PlanFault}
    (h : read (Text.trim text.toList) = .error fault) :
    parse text = .error { plan := text, fault } := by
  unfold parse
  rw [h]
  rfl

theorem readAlike_of_trim {a b : String} (h : Text.trim a.toList = Text.trim b.toList) :
    ReadAlike a b := by
  cases hread : read (Text.trim b.toList) with
  | ok plan => exact Or.inl ⟨plan, parse_of_read (by rw [h, hread]), parse_of_read hread⟩
  | error fault =>
    exact Or.inr ⟨fault, parse_of_refused (by rw [h, hread]), parse_of_refused hread⟩

theorem requestedInterval_of_trim {a b : String} (h : Text.trim a.toList = Text.trim b.toList) :
    requestedInterval a = requestedInterval b := by
  unfold requestedInterval
  rw [h]

theorem trim_surrounded {p q : String} (hp : Text.isBlankText p = true)
    (hq : Text.isBlankText q = true) (e : String) :
    Text.trim (p ++ e ++ q).toList = Text.trim e.toList := by
  rw [String.toList_append, String.toList_append,
    Text.trim_append_blanks (List.all_eq_true.mp hq), Text.trim_blanks_append (List.all_eq_true.mp hp)]

/-! ## Fixed delays -/

/-- A text that asks for an interval is the fixed delay of its whole seconds, and of at least one. -/
theorem parse_of_requestedInterval {text : String} {nanos : Nat}
    (h : requestedInterval text = some nanos) :
    parse text = .ok (.every (normalizedSeconds nanos)) := by
  unfold requestedInterval at h
  split at h
  · next asked hrequested =>
    cases h
    exact parse_of_read (read_of_requested hrequested)
  · cases h

theorem requestedInterval_isSome_iff (text : String) :
    (requestedInterval text).isSome = true ↔ ∃ seconds, parse text = .ok (.every seconds) := by
  constructor
  · intro hsome
    obtain ⟨nanos, hnanos⟩ := Option.isSome_iff_exists.mp hsome
    exact ⟨_, parse_of_requestedInterval hnanos⟩
  · rintro ⟨seconds, hevery⟩
    obtain ⟨nanos, hnanos, -⟩ := parse_every_eq hevery
    rw [hnanos]
    rfl

theorem requestedInterval_eq_none_iff (text : String) :
    requestedInterval text = none ↔
      (∃ schedule, parse text = .ok (.cron schedule)) ∨ ∃ e, parse text = .error e := by
  have hevery := not_congr (requestedInterval_isSome_iff text)
  rw [← Option.not_isSome_iff_eq_none, hevery]
  cases parse text with
  | error e => simp
  | ok plan => cases plan <;> simp

/-- Blanks around a text make no difference to its plan, to the interval that it asks for or to the
reason why it is refused.  It asks for an interval exactly if it is a fixed delay, which is then of
the whole seconds of the interval, and of at least one. -/
theorem parse_surrounded (e : String) :
    (∀ p q, Text.isBlankText p = true → Text.isBlankText q = true →
      ReadAlike (p ++ e ++ q) e ∧ requestedInterval (p ++ e ++ q) = requestedInterval e) ∧
    ((requestedInterval e).isSome = true ↔ ∃ seconds, parse e = .ok (.every seconds)) ∧
    (∀ nanos, requestedInterval e = some nanos →
      parse e = .ok (.every (max 1 (nanos / TimeUnit.nanosPerSecond)))) ∧
    (requestedInterval e = none ↔
      (∃ schedule, parse e = .ok (.cron schedule)) ∨ ∃ error, parse e = .error error) := by
  refine ⟨?_, requestedInterval_isSome_iff e, ?_, requestedInterval_eq_none_iff e⟩
  · intro p q hp hq
    have htrim := trim_surrounded hp hq e
    exact ⟨readAlike_of_trim htrim, requestedInterval_of_trim htrim⟩
  · exact fun nanos => parse_of_requestedInterval

/-- A no-break space and a line break in front, and an ideographic space behind: once around a
descriptor that there is not, and once around a delay that is no whole number of seconds. -/
theorem surrounded_byForeignBlanks :
    (Text.isBlankText "\u00a0\n" = true ∧ Text.isBlankText "\u3000" = true) ∧
      ReadAlike ("\u00a0\n" ++ "@often" ++ "\u3000") "@often" ∧
      requestedInterval ("\u00a0\n" ++ "@every 1500ms" ++ "\u3000") = some 1500000000 ∧
      parse "@every 1500ms" = .ok (.every 1) := by
  have hfront : Text.isBlankText "\u00a0\n" = true := by decide +kernel
  have hbehind : Text.isBlankText "\u3000" = true := by decide +kernel
  have hasked : requestedInterval "@every 1500ms" = some 1500000000 := by decide +kernel
  obtain ⟨hdelay, -, hwhole, -⟩ := parse_surrounded "@every 1500ms"
  refine ⟨⟨hfront, hbehind⟩, ?_, ?_, ?_⟩
  · exact ((parse_surrounded "@often").1 _ _ hfront hbehind).1
  · exact (hdelay _ _ hfront hbehind).2.trans hasked
  · exact hwhole _ hasked

end Plan
end RecurringJobs
