import Mathlib.Data.List.Nodup
import RecurringJobs.Proofs.Engine.Operations

/-!
Runs of an engine: registrations, removals, starts, stops and timers that go off, in any order and
at any readings of the clock.

`IsSound` holds of a new engine and each move keeps it, so it holds of every engine that a run
reaches.
-/

namespace RecurringJobs

variable {η : Type}

/-- What is told apart from the others by a key is found by it. -/
theorem find?_of_nodup_map {α β : Type} [DecidableEq β] {f : α → β} {xs : List α}
    (hnodup : (xs.map f).Nodup) {x : α} (hx : x ∈ xs) :
    (xs.find? fun y => f y = f x) = some x := by
  cases hy : xs.find? fun y => decide (f y = f x) with
  | none =>
    have hnot := List.find?_eq_none.mp hy x hx
    simp at hnot
  | some y =>
    have hsame : f y = f x := by simpa using List.find?_some hy
    rw [List.inj_on_of_nodup_map hnodup (List.mem_of_find?_eq_some hy) hx hsame]

namespace Engine

inductive Move (η : Type) where
  | register (text : String) (callback : Callback η)
  | unregister (id : Nat)
  | start
  | stop
  /-- A timer goes off. -/
  | fire (serial : Nat)
deriving Repr, DecidableEq

/-- A move and the reading of the clock when it is made. -/
structure Turn (η : Type) where
  now : Instant
  move : Move η
deriving Repr, DecidableEq

def take (e : Engine η) (t : Turn η) : Engine η :=
  match t.move with
  | .register text callback => (e.register t.now text callback).2.1
  | .unregister id => (e.unregister id).1
  | .start => (e.start t.now).1
  | .stop => e.stop.1
  | .fire serial => e.fired serial t.now

def run (e : Engine η) : List (Turn η) → Engine η
  | [] => e
  | t :: ts => (e.take t).run ts

/-- What holds of every engine that a run reaches. -/
structure IsSound (e : Engine η) : Prop where
  ascending : e.entries.Pairwise fun x y => x.id < y.id
  given : ∀ x ∈ e.entries, x.id ≤ e.lastId
  parsed : ∀ x ∈ e.entries, Plan.parse x.text = .ok x.plan
  /-- One timer for each entry while the engine runs, and none otherwise. -/
  timed : e.timers.map Timer.work = if e.isRunning then e.entries.map Entry.work else []
  serials : e.timers.Pairwise fun t u => t.serial < u.serial
  armed : ∀ t ∈ e.timers, t.serial < e.armings

theorem isSound_clockwork : (clockwork : Engine η).IsSound where
  ascending := List.Pairwise.nil
  given := by simp [clockwork]
  parsed := by simp [clockwork]
  timed := rfl
  serials := List.Pairwise.nil
  armed := by simp [clockwork, timers]

theorem isSound_byHand (rejecting : Bool) :
    ((byHand : Engine η).setRejecting rejecting).IsSound where
  ascending := List.Pairwise.nil
  given := by simp [byHand, setRejecting]
  parsed := by simp [byHand, setRejecting]
  timed := rfl
  serials := List.Pairwise.nil
  armed := by simp [byHand, setRejecting, timers]

namespace IsSound

variable {e : Engine η}

theorem ids_nodup (h : e.IsSound) : (e.entries.map Entry.id).Nodup := by
  refine List.pairwise_map.mpr (h.ascending.imp fun hlt => ?_)
  exact Nat.ne_of_lt hlt

theorem serials_nodup (h : e.IsSound) : (e.timers.map Timer.serial).Nodup := by
  refine List.pairwise_map.mpr (h.serials.imp fun hlt => ?_)
  exact Nat.ne_of_lt hlt

/-- Entries are told apart by their numbers. -/
theorem eq_of_id_eq (h : e.IsSound) {x y : Entry η} (hx : x ∈ e.entries) (hy : y ∈ e.entries)
    (hid : x.id = y.id) : x = y :=
  List.inj_on_of_nodup_map h.ids_nodup hx hy hid

theorem timers_eq_nil (h : e.IsSound) (hstands : e.isRunning = false) : e.timers = [] := by
  have htimed := h.timed
  rw [hstands] at htimed
  exact List.map_eq_nil_iff.mp htimed

theorem register (h : e.IsSound) (now : Instant) (text : String) (callback : Callback η) :
    (e.register now text callback).2.1.IsSound := by
  rcases e.register_cases now text callback with ⟨plan, e', es, hr, hreg⟩ | ⟨error, hr⟩
  · rw [hr]
    refine ⟨?_, ?_, ?_, ?_, ?_, ?_⟩
    · rw [hreg.entries]
      refine List.pairwise_append.mpr ⟨h.ascending, List.pairwise_singleton _ _, ?_⟩
      intro x hx y hy
      rw [List.mem_singleton] at hy
      subst hy
      exact Nat.lt_succ_of_le (h.given x hx)
    · intro x hx
      rw [hreg.lastId]
      rcases hreg.mem_entries.mp hx with hx | rfl
      · exact Nat.le_succ_of_le (h.given x hx)
      · exact Nat.le_refl _
    · intro x hx
      rcases hreg.mem_entries.mp hx with hx | rfl
      · exact h.parsed x hx
      · exact hreg.parsed
    · rw [hreg.timers, hreg.isRunning, hreg.entries, List.map_append, h.timed, newTimers]
      split <;> simp [Timer.work, Entry.work]
    · rw [hreg.timers]
      refine List.pairwise_append.mpr ⟨h.serials, ?_, ?_⟩
      · unfold newTimers
        split <;> simp
      · intro t ht u hu
        unfold newTimers at hu
        split at hu
        · rw [List.mem_singleton] at hu
          subst hu
          exact h.armed t ht
        · cases hu
    · intro t ht
      rw [hreg.timers] at ht
      rw [hreg.armings]
      rcases List.mem_append.mp ht with ht | ht
      · exact Nat.lt_add_right _ (h.armed t ht)
      · unfold newTimers at ht ⊢
        split at ht
        · rw [List.mem_singleton] at ht
          subst ht
          simp [*]
        · cases ht
  · rw [hr]
    exact h

theorem filter_work (xs : List (Entry η)) (ts : List (Timer η)) (id : Nat)
    (hwork : ts.map Timer.work = xs.map Entry.work) :
    (ts.filter fun t => t.id ≠ id).map Timer.work =
      (xs.filter fun x => x.id ≠ id).map Entry.work := by
  have ht : (ts.filter fun t => t.id ≠ id).map Timer.work =
      (ts.map Timer.work).filter fun w => w.1 ≠ id := by
    rw [List.filter_map]
    rfl
  have hx : (xs.filter fun x => x.id ≠ id).map Entry.work =
      (xs.map Entry.work).filter fun w => w.1 ≠ id := by
    rw [List.filter_map]
    rfl
  rw [ht, hx, hwork]

theorem unregister (h : e.IsSound) (id : Nat) : (e.unregister id).1.IsSound := by
  have hsub : (e.unregister id).1.timers.Sublist e.timers := by
    rw [unregister_timers]
    split
    · exact List.filter_sublist
    · exact List.Sublist.refl _
  refine ⟨?_, ?_, ?_, ?_, h.serials.sublist hsub, ?_⟩
  · rw [unregister_entries]
    exact h.ascending.filter _
  · intro x hx
    rw [unregister_lastId]
    exact h.given x (mem_unregister_entries.mp hx).1
  · intro x hx
    exact h.parsed x (mem_unregister_entries.mp hx).1
  · rw [unregister_timers, unregister_entries, unregister_isRunning]
    have htimed := h.timed
    cases hrun : e.isRunning with
    | false => simp [h.timers_eq_nil hrun]
    | true =>
      rw [hrun] at htimed
      split
      · exact filter_work e.entries e.timers id htimed
      · next hnone =>
        -- no entry has the number, so the filter takes none away
        rw [Option.not_isSome_iff_eq_none, entry?_eq_none_iff] at hnone
        have hall : (e.entries.filter fun x => x.id ≠ id) = e.entries :=
          List.filter_eq_self.mpr fun x hx => by simpa using hnone x hx
        rw [hall]
        exact htimed
  · intro t ht
    rw [unregister_armings]
    exact h.armed t (hsub.subset ht)

theorem start (h : e.IsSound) (now : Instant) : (e.start now).1.IsSound := by
  have htimers := h.timers_eq_nil
  have hserials := h.serials
  have harmed := h.armed
  obtain ⟨drive, entries, lastId⟩ := e
  unfold Engine.start
  cases drive with
  | byHand rejecting => exact h
  | clockwork c =>
    by_cases hrun : c.running = true
    · simp only [hrun, if_true]
      exact h
    · have hnil : c.timers = [] := htimers (by simpa [isRunning] using hrun)
      simp only [hrun, Bool.false_eq_true, if_false]
      let fresh : Clockwork η := { c with running := true, everStarted := true }
      have hnumbered : (fresh.armAll now entries).1.IsNumbered :=
        Clockwork.IsNumbered.armAll (c := fresh) ⟨hserials, harmed⟩ now entries
      refine ⟨h.ascending, h.given, h.parsed, ?_, hnumbered.1, hnumbered.2⟩
      have hwork := Clockwork.armAll_work fresh now entries
      have hon : (fresh.armAll now entries).1.running = true :=
        Clockwork.armAll_running fresh now entries
      show (fresh.armAll now entries).1.timers.map Timer.work =
        if (fresh.armAll now entries).1.running then _ else []
      rw [hon, hwork, hnil]
      rfl

theorem stop (h : e.IsSound) : (e.stop).1.IsSound := by
  have hgone := h.timers_eq_nil
  obtain ⟨drive, entries, lastId⟩ := e
  unfold Engine.stop
  cases drive with
  | byHand rejecting => exact h
  | clockwork c =>
    by_cases hrun : c.running = true
    · simp only [hrun, if_true]
      exact ⟨h.ascending, h.given, h.parsed, rfl, List.Pairwise.nil, by simp [timers]⟩
    · simp only [hrun, Bool.false_eq_true, if_false]
      exact h

theorem fired (h : e.IsSound) (serial : Nat) (now : Instant) : (e.fired serial now).IsSound := by
  cases hdue : e.due? serial with
  | none =>
    rw [fired_of_not_due hdue]
    exact h
  | some due =>
    obtain ⟨hentries, hlast, hrun, harmings, htimers⟩ := fired_of_due hdue now
    refine ⟨?_, ?_, ?_, ?_, ?_, ?_⟩
    · rw [hentries]
      exact h.ascending
    · rw [hentries, hlast]
      exact h.given
    · rw [hentries]
      exact h.parsed
    · have hsame : (Timer.work ∘ fun t : Timer η => t.next serial (due.later now)) =
          Timer.work := funext fun t => t.next_work serial _
      rw [htimers, hentries, hrun, List.map_map, hsame]
      exact h.timed
    · rw [htimers]
      refine List.pairwise_map.mpr (h.serials.imp fun hlt => ?_)
      simpa using hlt
    · intro t ht
      rw [htimers] at ht
      obtain ⟨u, hu, rfl⟩ := List.mem_map.mp ht
      rw [harmings, Timer.next_serial]
      exact h.armed u hu

theorem setRejecting (h : e.IsSound) (rejecting : Bool) : (e.setRejecting rejecting).IsSound := by
  obtain ⟨drive, entries, lastId⟩ := e
  cases drive with
  | clockwork c => exact h
  | byHand was => exact ⟨h.ascending, h.given, h.parsed, h.timed, h.serials, h.armed⟩

theorem take (h : e.IsSound) (t : Turn η) : (e.take t).IsSound := by
  unfold Engine.take
  cases t.move with
  | register text callback => exact h.register t.now text callback
  | unregister id => exact h.unregister id
  | start => exact h.start t.now
  | stop => exact h.stop
  | fire serial => exact h.fired serial t.now

theorem run (h : e.IsSound) (ts : List (Turn η)) : (e.run ts).IsSound := by
  induction ts generalizing e with
  | nil => exact h
  | cons t ts ih => exact ih (h.take t)

end IsSound
end Engine
end RecurringJobs
