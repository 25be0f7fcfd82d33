import Mathlib.Data.List.Induction
import Mathlib.Tactic.Tauto
import RecurringJobs.Proofs.Engine.Refusals
import RecurringJobs.Proofs.Engine.Registrations

/-!
The numbers that an engine has given, and those under which an entry stands.

The registrations of a run are numbered from one on, without a gap.  A number is live from when it
is given until it is unregistered for the first time, and as no number is given again, it stays dead
after that (`isLive_run_iff`).  So a number that is kept for too long does no harm: to unregister it
changes nothing (`unregister_of_not_isLive`).
-/

namespace RecurringJobs

variable {η : Type}

namespace Engine

theorem run_append (e : Engine η) (ts us : List (Turn η)) : e.run (ts ++ us) = (e.run ts).run us := by
  induction ts generalizing e with
  | nil => rfl
  | cons t ts ih => exact ih (e.take t)

theorem registrations_append (e : Engine η) (ts us : List (Turn η)) :
    e.registrations (ts ++ us) = e.registrations ts ++ (e.run ts).registrations us := by
  induction ts generalizing e with
  | nil => rfl
  | cons t ts ih =>
    rw [List.cons_append, registrations, ih, ← List.append_assoc]
    rfl

theorem refusing_run (e : Engine η) (ts : List (Turn η)) : (e.run ts).refusing = e.refusing := by
  induction ts generalizing e with
  | nil => rfl
  | cons t ts ih => exact (ih (e.take t)).trans (e.refusing_take t)

theorem exists_clockwork {e : Engine η} (h : e.refusing = none) :
    ∃ c, e.drive = .clockwork c := by
  unfold refusing at h
  cases hdrive : e.drive with
  | byHand rejecting =>
    rw [hdrive] at h
    cases h
  | clockwork c => exact ⟨c, rfl⟩

/-! ## Numbers -/

/-- Each registration gets the number after the one before it. -/
theorem registrations_ids (e : Engine η) (ts : List (Turn η)) :
    (e.registrations ts).map Registration.id =
      List.range' (e.lastId + 1) (e.registrations ts).length := by
  induction ts generalizing e with
  | nil => rfl
  | cons t ts ih =>
    have hlater := ih (e.take t)
    rcases e.take_registers t with ⟨x, hnumber, hsome, hlast, -⟩ | ⟨hnone, hlast, -⟩
    · rw [hlast, hnumber] at hlater
      rw [registrations, hsome]
      show x.id :: ((e.take t).registrations ts).map Registration.id = _
      rw [hlater, hnumber]
      rfl
    · rw [hlast] at hlater
      rw [registrations, hnone]
      exact hlater

theorem run_lastId (e : Engine η) (ts : List (Turn η)) :
    (e.run ts).lastId = e.lastId + (e.registrations ts).length := by
  induction ts generalizing e with
  | nil => rfl
  | cons t ts ih =>
    rw [run, ih, registrations, List.length_append]
    rcases e.take_registers t with ⟨x, hnumber, hsome, hlast, -⟩ | ⟨hnone, hlast, -⟩
    · rw [hlast, hsome, hnumber, Option.toList_some, List.length_singleton]
      omega
    · rw [hlast, hnone, Option.toList_none, List.length_nil]
      omega

theorem lastId_le_run (e : Engine η) (ts : List (Turn η)) : e.lastId ≤ (e.run ts).lastId := by
  rw [run_lastId]
  exact Nat.le_add_right _ _

/-! ## Live numbers -/

/-- An entry is registered under the number. -/
def IsLive (e : Engine η) (id : Nat) : Prop := ∃ x ∈ e.entries, x.id = id

/-- The number was given in the run. -/
def Gave (e : Engine η) (ts : List (Turn η)) (id : Nat) : Prop := ∃ r ∈ e.registrations ts, r.id = id

/-- The number was given in the run, and unregistered after that. -/
def TookBack (e : Engine η) (ts : List (Turn η)) (id : Nat) : Prop :=
  ∃ before t after, ts = before ++ t :: after ∧ e.Gave before id ∧ t.move = .unregister id

def givenBy? (e : Engine η) (t : Turn η) : Option Nat := (e.registration? t).map Registration.id

theorem eq_of_givenBy? {e : Engine η} {t : Turn η} {id : Nat} (h : e.givenBy? t = some id) :
    id = e.lastId + 1 := by
  unfold givenBy? at h
  rcases e.take_registers t with ⟨x, hnumber, hsome, -, -⟩ | ⟨hnone, -, -⟩
  · rw [hsome] at h
    exact (Option.some.inj h).symm.trans hnumber
  · rw [hnone] at h
    cases h

theorem gave_concat {e : Engine η} {ts : List (Turn η)} {t : Turn η} {id : Nat} :
    e.Gave (ts ++ [t]) id ↔ e.Gave ts id ∨ (e.run ts).givenBy? t = some id := by
  unfold Gave givenBy?
  rw [registrations_append]
  simp [registrations, or_and_right, exists_or]

theorem tookBack_concat {e : Engine η} {ts : List (Turn η)} {t : Turn η} {id : Nat} :
    e.TookBack (ts ++ [t]) id ↔ e.TookBack ts id ∨ e.Gave ts id ∧ t.move = .unregister id := by
  constructor
  · rintro ⟨before, u, after, hsplit, hgave, hmove⟩
    rcases List.eq_nil_or_concat after with rfl | ⟨after, v, rfl⟩
    · obtain ⟨rfl, hu⟩ := List.append_inj' hsplit rfl
      cases hu
      exact Or.inr ⟨hgave, hmove⟩
    · rw [List.concat_eq_append, ← List.cons_append, ← List.append_assoc] at hsplit
      obtain ⟨rfl, -⟩ := List.append_inj' hsplit rfl
      exact Or.inl ⟨before, u, after, rfl, hgave, hmove⟩
  · rintro (⟨before, u, after, rfl, hgave, hmove⟩ | ⟨hgave, hmove⟩)
    · exact ⟨before, u, after ++ [t], by simp, hgave, hmove⟩
    · exact ⟨ts, t, [], rfl, hgave, hmove⟩

theorem TookBack.gave {e : Engine η} {ts : List (Turn η)} {id : Nat} (h : e.TookBack ts id) :
    e.Gave ts id := by
  obtain ⟨before, t, after, rfl, ⟨r, hr, hid⟩, -⟩ := h
  rw [Gave, registrations_append]
  exact ⟨r, List.mem_append_left _ hr, hid⟩

theorem Gave.le_lastId {e : Engine η} {ts : List (Turn η)} {id : Nat} (h : e.Gave ts id) :
    id ≤ (e.run ts).lastId := by
  obtain ⟨r, hr, rfl⟩ := h
  have hmem : r.id ∈ (e.registrations ts).map Registration.id := List.mem_map_of_mem hr
  rw [registrations_ids, List.mem_range'_1] at hmem
  rw [run_lastId]
  omega

/-- A turn makes a number live by giving it, and only to unregister it ends that. -/
theorem take_isLive_iff {e : Engine η} {t : Turn η} {id : Nat} :
    (e.take t).IsLive id ↔ e.givenBy? t = some id ∨ e.IsLive id ∧ t.move ≠ .unregister id := by
  obtain ⟨now, move⟩ := t
  cases move with
  | register text callback =>
    rcases e.register_cases now text callback with ⟨plan, e', es, hr, hreg⟩ | ⟨error, hr⟩
    · simp only [IsLive, take, givenBy?, registration?, hr, hreg.mem_entries]
      simp [or_and_right, exists_or, or_comm]
    · simp [IsLive, take, givenBy?, registration?, hr]
  | unregister other =>
    constructor
    · rintro ⟨x, hx, rfl⟩
      obtain ⟨hold, hne⟩ := mem_unregister_entries.mp hx
      refine Or.inr ⟨⟨x, hold, rfl⟩, fun hsame => hne ?_⟩
      cases hsame
      rfl
    · rintro (hgiven | ⟨⟨x, hx, rfl⟩, hne⟩)
      · cases hgiven
      · refine ⟨x, mem_unregister_entries.mpr ⟨hx, ?_⟩, rfl⟩
        rintro rfl
        exact hne rfl
  | start => simp [IsLive, take, givenBy?, registration?]
  | stop => simp [IsLive, take, givenBy?, registration?]
  | fire serial => simp [IsLive, take, givenBy?, registration?, fired_entries]

theorem isLive_run_iff {ts : List (Turn η)} {id : Nat} :
    (clockwork.run ts).IsLive id ↔ clockwork.Gave ts id ∧ ¬clockwork.TookBack ts id := by
  induction ts using List.reverseRecOn with
  | nil => simp [IsLive, Gave, registrations, run, clockwork]
  | append_singleton ts t ih =>
    -- a number that the last turn gives was never given before, so it was not taken back either
    have hfresh : (clockwork.run ts).givenBy? t = some id → ¬clockwork.Gave ts id := by
      intro hnew hgave
      have hle := hgave.le_lastId
      have hnext := eq_of_givenBy? hnew
      omega
    have htook : clockwork.TookBack ts id → clockwork.Gave ts id := TookBack.gave
    rw [run_append, gave_concat, tookBack_concat]
    show ((clockwork.run ts).take t).IsLive id ↔ _
    rw [take_isLive_iff, ih]
    tauto

theorem unregister_of_not_isLive {e : Engine η} (hclockwork : e.refusing = none) {id : Nat}
    (h : ¬e.IsLive id) :
    e.unregister id = (e, [.engine (.unregister id), .log (.entryUnknown id)]) := by
  have hnone : e.entry? id = none := entry?_eq_none_iff.mpr fun x hx hid => h ⟨x, hx, hid⟩
  obtain ⟨c, hdrive⟩ := exists_clockwork hclockwork
  unfold unregister
  simp only [hdrive, hnone]

/-- What the numbers of a run are, and what they are good for.  A start that is refused is no turn of
a run, as it leaves the engine as it was. -/
structure Numbering (ts : List (Turn η)) : Prop where
  ids : (clockwork.registrations ts).map Registration.id =
    List.range' 1 (clockwork.registrations ts).length
  ascending : (clockwork.registrations ts).Pairwise fun r s => r.id < s.id
  refused : ∀ now text callback error,
    ((clockwork.run ts).register now text callback).1 = .error error →
      ((clockwork.run ts).register now text callback).2.1 = clockwork.run ts
  withoutRuntime : (clockwork.run ts).startWithoutRuntime.1 = clockwork.run ts
  live_iff : ∀ id,
    (clockwork.run ts).IsLive id ↔ clockwork.Gave ts id ∧ ¬clockwork.TookBack ts id
  stale : ∀ id, ¬clockwork.Gave ts id ∨ clockwork.TookBack ts id →
    (clockwork.run ts).unregister id =
      (clockwork.run ts, [.engine (.unregister id), .log (.entryUnknown id)])

theorem startWithoutRuntime_engine (e : Engine η) : e.startWithoutRuntime.1 = e := by
  unfold startWithoutRuntime
  cases e.drive <;> rfl

theorem numbering (ts : List (Turn η)) : Numbering ts where
  ids := registrations_ids clockwork ts
  ascending := (registrations_ascending clockwork ts).2
  refused := by
    intro now text callback error herror
    rcases (clockwork.run ts).register_cases now text callback with
      ⟨plan, e', es, hr, -⟩ | ⟨error', hr⟩
    · rw [hr] at herror
      cases herror
    · rw [hr]
  withoutRuntime := startWithoutRuntime_engine _
  live_iff _ := isLive_run_iff
  stale := by
    intro id hstale
    have hclockwork : (clockwork.run ts).refusing = none := refusing_run clockwork ts
    refine unregister_of_not_isLive hclockwork fun hlive => ?_
    obtain ⟨hgave, hkept⟩ := isLive_run_iff.mp hlive
    rcases hstale with hnever | htook
    · exact hnever hgave
    · exact hkept htook

end Engine
end RecurringJobs
