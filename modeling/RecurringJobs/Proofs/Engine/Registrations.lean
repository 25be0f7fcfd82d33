import RecurringJobs.Proofs.Engine.Moves

/-!
The registrations of a run, and the numbers that were given for them.

Numbers are given in ascending order, so each is given once, and what is registered under a number
has been so since the number was given.
-/

namespace RecurringJobs

variable {η : Type}

/-- A registration that was taken, and the number that was given for it. -/
structure Registration (η : Type) where
  id : Nat
  text : String
  callback : Callback η
deriving Repr, DecidableEq

def Entry.registration (x : Entry η) : Registration η :=
  { id := x.id, text := x.text, callback := x.callback }

namespace Engine

def registration? (e : Engine η) (t : Turn η) : Option (Registration η) :=
  match t.move with
  | .register text callback =>
    match (e.register t.now text callback).1 with
    | .ok id => some { id, text, callback }
    | .error _ => none
  | _ => none

/-- The registrations in a run, in order. -/
def registrations (e : Engine η) : List (Turn η) → List (Registration η)
  | [] => []
  | t :: ts => (e.registration? t).toList ++ (e.take t).registrations ts

/-- A turn registers one more entry, under the next number, or none at all. -/
theorem take_registers (e : Engine η) (t : Turn η) :
    (∃ x : Entry η, x.id = e.lastId + 1 ∧ e.registration? t = some x.registration ∧
        (e.take t).lastId = x.id ∧ (e.take t).entries = e.entries ++ [x]) ∨
      e.registration? t = none ∧ (e.take t).lastId = e.lastId ∧
        (e.take t).entries ⊆ e.entries := by
  obtain ⟨now, move⟩ := t
  cases move with
  | register text callback =>
    rcases e.register_cases now text callback with ⟨plan, e', es, hr, hreg⟩ | ⟨error, hr⟩
    · refine Or.inl ⟨_, hreg.number, ?_, ?_, ?_⟩
      · simp only [registration?, hr, Entry.registration]
      · simp only [take, hr]
        exact hreg.lastId
      · simp only [take, hr]
        exact hreg.entries
    · refine Or.inr ⟨?_, ?_, ?_⟩
      · simp only [registration?, hr]
      · simp only [take, hr]
      · simp only [take, hr]
        exact List.Subset.refl _
  | unregister id =>
    refine Or.inr ⟨rfl, e.unregister_lastId id, ?_⟩
    intro x hx
    exact (mem_unregister_entries.mp hx).1
  | start =>
    refine Or.inr ⟨rfl, e.start_lastId now, ?_⟩
    show (e.start now).1.entries ⊆ e.entries
    rw [start_entries]
    exact List.Subset.refl _
  | stop =>
    refine Or.inr ⟨rfl, e.stop_lastId, ?_⟩
    show (e.stop).1.entries ⊆ e.entries
    rw [stop_entries]
    exact List.Subset.refl _
  | fire serial =>
    refine Or.inr ⟨rfl, e.fired_lastId serial now, ?_⟩
    show (e.fired serial now).entries ⊆ e.entries
    rw [fired_entries]
    exact List.Subset.refl _

theorem registrations_ascending (e : Engine η) (ts : List (Turn η)) :
    (∀ r ∈ e.registrations ts, e.lastId < r.id) ∧
      (e.registrations ts).Pairwise fun r s => r.id < s.id := by
  induction ts generalizing e with
  | nil => exact ⟨nofun, List.Pairwise.nil⟩
  | cons t ts ih =>
    obtain ⟨hlater, hascending⟩ := ih (e.take t)
    rcases e.take_registers t with ⟨x, hnumber, hsome, hlast, -⟩ | ⟨hnone, hlast, -⟩
    · rw [registrations, hsome]
      rw [hlast] at hlater
      have hnext : e.lastId < x.id := by omega
      constructor
      · intro r hr
        rcases List.mem_cons.mp hr with rfl | hrest
        · exact hnext
        · exact Nat.lt_trans hnext (hlater r hrest)
      · exact List.pairwise_cons.mpr ⟨hlater, hascending⟩
    · rw [registrations, hnone]
      rw [hlast] at hlater
      exact ⟨hlater, hascending⟩

/-- What a run leaves was there before, or was registered in the run. -/
theorem mem_run_entries {e : Engine η} {ts : List (Turn η)} {x : Entry η}
    (hx : x ∈ (e.run ts).entries) : x ∈ e.entries ∨ x.registration ∈ e.registrations ts := by
  induction ts generalizing e with
  | nil => exact Or.inl hx
  | cons t ts ih =>
    rcases ih hx with hbefore | hlater
    · rcases e.take_registers t with ⟨y, -, hsome, -, hentries⟩ | ⟨-, -, hentries⟩
      · rw [hentries, List.mem_append, List.mem_singleton] at hbefore
        rcases hbefore with hold | rfl
        · exact Or.inl hold
        · refine Or.inr ?_
          rw [registrations, hsome]
          exact List.mem_cons_self
      · exact Or.inl (hentries hbefore)
    · exact Or.inr (List.mem_append_right _ hlater)

/-- What is registered under a number is what the number was given for. -/
theorem registered_iff {ts : List (Turn η)} {x : Entry η}
    (hx : x ∈ ((clockwork : Engine η).run ts).entries) {r : Registration η} :
    r ∈ (clockwork : Engine η).registrations ts ∧ r.id = x.id ↔ r = x.registration := by
  have hmem : x.registration ∈ (clockwork : Engine η).registrations ts :=
    (mem_run_entries hx).resolve_left List.not_mem_nil
  constructor
  · rintro ⟨hr, hid⟩
    have hnodup : (((clockwork : Engine η).registrations ts).map Registration.id).Nodup :=
      List.pairwise_map.mpr ((registrations_ascending _ ts).2.imp fun hlt => Nat.ne_of_lt hlt)
    exact List.inj_on_of_nodup_map hnodup hr hmem hid
  · rintro rfl
    exact ⟨hmem, rfl⟩

end Engine
end RecurringJobs
