import RecurringJobs.Engine.Basic

/-!
What each operation of an engine leaves: its entries, its timers, and the numbers it has given.

`Engine.IsSound` is what all of them keep.  Numbers are given in ascending order, every entry has
the plan that its text is read as, and a running engine has one timer for each entry, in the same
order and with the same work to do.
-/

namespace RecurringJobs

variable {η : Type}

def Timer.work (t : Timer η) : Nat × Plan × Callback η := (t.id, t.plan, t.callback)

def Entry.work (x : Entry η) : Nat × Plan × Callback η := (x.id, x.plan, x.callback)

/-- A timer that goes off looks for its next trigger; the others go on waiting. -/
def Timer.next (t : Timer η) (serial : Nat) (base : Instant) : Timer η :=
  if t.serial = serial then { t with due := t.plan.due? base } else t

@[simp] theorem Timer.next_serial (t : Timer η) (serial : Nat) (base : Instant) :
    (t.next serial base).serial = t.serial := by
  unfold Timer.next
  split <;> rfl

@[simp] theorem Timer.next_work (t : Timer η) (serial : Nat) (base : Instant) :
    (t.next serial base).work = t.work := by
  unfold Timer.next
  split <;> rfl

/-! ## Arming -/

namespace Clockwork

theorem armAll_running (c : Clockwork η) (now : Instant) (xs : List (Entry η)) :
    (c.armAll now xs).1.running = c.running := by
  induction xs generalizing c with
  | nil => rfl
  | cons x xs ih => exact ih (c.arm x now)

theorem armAll_work (c : Clockwork η) (now : Instant) (xs : List (Entry η)) :
    (c.armAll now xs).1.timers.map Timer.work = c.timers.map Timer.work ++ xs.map Entry.work := by
  induction xs generalizing c with
  | nil => simp [armAll]
  | cons x xs ih =>
    show ((c.arm x now).armAll now xs).1.timers.map Timer.work = _
    rw [ih]
    simp [arm, Timer.work, Entry.work]

/-- The serial numbers of timers ascend, and all of them have been given. -/
def IsNumbered (c : Clockwork η) : Prop :=
  c.timers.Pairwise (fun t u => t.serial < u.serial) ∧ ∀ t ∈ c.timers, t.serial < c.armings

theorem IsNumbered.arm {c : Clockwork η} (h : c.IsNumbered) (x : Entry η) (now : Instant) :
    (c.arm x now).IsNumbered := by
  obtain ⟨hasc, hgiven⟩ := h
  constructor
  · refine List.pairwise_append.mpr ⟨hasc, List.pairwise_singleton _ _, ?_⟩
    intro t ht u hu
    rw [List.mem_singleton] at hu
    subst hu
    exact hgiven t ht
  · intro t ht
    show t.serial < c.armings + 1
    rcases List.mem_append.mp ht with ht | ht
    · exact Nat.lt_succ_of_lt (hgiven t ht)
    · rw [List.mem_singleton] at ht
      subst ht
      exact Nat.lt_succ_self c.armings

theorem IsNumbered.armAll {c : Clockwork η} (h : c.IsNumbered) (now : Instant)
    (xs : List (Entry η)) : (c.armAll now xs).1.IsNumbered := by
  induction xs generalizing c with
  | nil => exact h
  | cons x xs ih => exact ih (h.arm x now)

end Clockwork

namespace Engine

def armings (e : Engine η) : Nat :=
  match e.drive with
  | .clockwork c => c.armings
  | .byHand _ => 0

/-! ## Registering -/

def newTimers (e : Engine η) (now : Instant) (x : Entry η) : List (Timer η) :=
  if e.isRunning then
    [{ serial := e.armings, id := x.id, plan := x.plan, callback := x.callback,
       due := x.plan.due? now }]
  else []

/-- What a registration that succeeds leaves. -/
structure Registers (e : Engine η) (now : Instant) (x : Entry η) (e' : Engine η) : Prop where
  number : x.id = e.lastId + 1
  parsed : Plan.parse x.text = .ok x.plan
  entries : e'.entries = e.entries ++ [x]
  lastId : e'.lastId = x.id
  isRunning : e'.isRunning = e.isRunning
  timers : e'.timers = e.timers ++ e.newTimers now x
  armings : e'.armings = e.armings + (e.newTimers now x).length

theorem Registers.mem_entries {e e' : Engine η} {now : Instant} {x : Entry η}
    (h : e.Registers now x e') {y : Entry η} : y ∈ e'.entries ↔ y ∈ e.entries ∨ y = x := by
  rw [h.entries, List.mem_append, List.mem_singleton]

/-- A registration gives the next number, or is refused and leaves the engine as it was. -/
theorem register_cases (e : Engine η) (now : Instant) (text : String) (callback : Callback η) :
    (∃ plan e' es, e.register now text callback = (.ok (e.lastId + 1), e', es) ∧
        e.Registers now { id := e.lastId + 1, text, plan, callback } e') ∨
      ∃ error, e.register now text callback = (.error error, e, [.engine (.register text none)]) := by
  obtain ⟨drive, entries, lastId⟩ := e
  unfold register
  cases hp : Plan.parse text with
  | error error =>
    cases drive with
    | clockwork c => exact Or.inr ⟨.invalid error, rfl⟩
    | byHand rejecting =>
      cases rejecting with
      | true => exact Or.inr ⟨.rejected, rfl⟩
      | false => exact Or.inr ⟨.invalid error, rfl⟩
  | ok plan =>
    cases drive with
    | clockwork c =>
      refine Or.inl ⟨plan, ?_⟩
      by_cases hrun : c.running = true
      · simp only [hrun, if_true]
        refine ⟨_, _, rfl, rfl, hp, rfl, rfl, rfl, ?_, ?_⟩ <;>
          simp [newTimers, Engine.timers, Engine.armings, Clockwork.arm, isRunning, hrun]
      · simp only [hrun, Bool.false_eq_true, if_false]
        refine ⟨_, _, rfl, rfl, hp, rfl, rfl, rfl, ?_, ?_⟩ <;>
          simp [newTimers, Engine.timers, Engine.armings, isRunning, hrun]
    | byHand rejecting =>
      cases rejecting with
      | true => exact Or.inr ⟨.rejected, rfl⟩
      | false => exact Or.inl ⟨plan, _, _, rfl, rfl, hp, rfl, rfl, rfl, rfl, rfl⟩

/-! ## The other operations -/

theorem entry?_eq_none_iff {e : Engine η} {id : Nat} :
    e.entry? id = none ↔ ∀ x ∈ e.entries, x.id ≠ id := by
  unfold entry?
  simp

/-- What the removal of an entry leaves, whether or not the entry was there. -/
theorem unregister_entries (e : Engine η) (id : Nat) :
    (e.unregister id).1.entries = e.entries.filter fun x => x.id ≠ id := by
  unfold unregister
  cases e.drive with
  | byHand rejecting => rfl
  | clockwork c =>
    cases hx : e.entry? id with
    | some x => rfl
    | none =>
      refine (List.filter_eq_self.mpr fun x hmem => ?_).symm
      simpa using entry?_eq_none_iff.mp hx x hmem

theorem mem_unregister_entries {e : Engine η} {id : Nat} {x : Entry η} :
    x ∈ (e.unregister id).1.entries ↔ x ∈ e.entries ∧ x.id ≠ id := by
  rw [unregister_entries, List.mem_filter]
  simp

theorem unregister_timers (e : Engine η) (id : Nat) :
    (e.unregister id).1.timers =
      if (e.entry? id).isSome then e.timers.filter fun t => t.id ≠ id else e.timers := by
  unfold unregister
  cases hd : e.drive with
  | byHand rejecting => simp [timers, hd]
  | clockwork c =>
    cases hx : e.entry? id with
    | some x => simp [timers, hd]
    | none => simp

@[simp] theorem unregister_lastId (e : Engine η) (id : Nat) :
    (e.unregister id).1.lastId = e.lastId := by
  unfold unregister
  cases e.drive with
  | byHand rejecting => rfl
  | clockwork c => cases e.entry? id <;> rfl

@[simp] theorem unregister_isRunning (e : Engine η) (id : Nat) :
    (e.unregister id).1.isRunning = e.isRunning := by
  unfold unregister
  cases hd : e.drive with
  | byHand rejecting => simp [isRunning, hd]
  | clockwork c => cases e.entry? id <;> simp [isRunning, hd]

@[simp] theorem unregister_armings (e : Engine η) (id : Nat) :
    (e.unregister id).1.armings = e.armings := by
  unfold unregister
  cases hd : e.drive with
  | byHand rejecting => simp [armings, hd]
  | clockwork c => cases e.entry? id <;> simp [armings, hd]

@[simp] theorem start_entries (e : Engine η) (now : Instant) :
    (e.start now).1.entries = e.entries := by
  unfold start
  cases e.drive with
  | byHand rejecting => rfl
  | clockwork c => dsimp only; split <;> rfl

@[simp] theorem stop_entries (e : Engine η) : (e.stop).1.entries = e.entries := by
  unfold stop
  cases e.drive with
  | byHand rejecting => rfl
  | clockwork c => dsimp only; split <;> rfl

theorem start_lastId (e : Engine η) (now : Instant) : (e.start now).1.lastId = e.lastId := by
  unfold start
  cases e.drive with
  | byHand rejecting => rfl
  | clockwork c =>
    dsimp only
    split <;> rfl

theorem stop_lastId (e : Engine η) : (e.stop).1.lastId = e.lastId := by
  unfold stop
  cases e.drive with
  | byHand rejecting => rfl
  | clockwork c =>
    dsimp only
    split <;> rfl

theorem stop_isRunning (e : Engine η) : e.stop.1.isRunning = false := by
  unfold stop
  cases hdrive : e.drive with
  | byHand rejecting => simp [isRunning, hdrive]
  | clockwork c =>
    dsimp only
    split
    · rfl
    · next hstands => simpa [isRunning, hdrive] using hstands

theorem start_of_isRunning {e : Engine η} (h : e.isRunning = true) (now : Instant) :
    (e.start now).1 = e := by
  unfold start
  unfold isRunning at h
  cases hd : e.drive with
  | byHand rejecting => rfl
  | clockwork c =>
    rw [hd] at h
    have hrun : c.running = true := h
    simp [hrun]

theorem stop_of_not_isRunning {e : Engine η} (h : e.isRunning = false) : e.stop.1 = e := by
  unfold stop
  unfold isRunning at h
  cases hd : e.drive with
  | byHand rejecting => rfl
  | clockwork c =>
    rw [hd] at h
    have hstands : c.running = false := h
    simp only [hstands, Bool.false_eq_true, if_false]

/-- The engine after a timer went off, or as it was when there is none to go off. -/
def fired (e : Engine η) (serial : Nat) (now : Instant) : Engine η :=
  match e.fire serial now with
  | some (_, e, _) => e
  | none => e

def due? (e : Engine η) (serial : Nat) : Option Instant :=
  (e.timers.find? fun t => t.serial = serial).bind Timer.due

theorem fire_eq_none_iff {e : Engine η} {serial : Nat} {now : Instant} :
    e.fire serial now = none ↔ e.due? serial = none := by
  unfold fire due? timers
  cases e.drive with
  | byHand rejecting => simp
  | clockwork c =>
    dsimp only
    cases c.timers.find? fun t => decide (t.serial = serial) with
    | none => simp
    | some t => cases ht : t.due <;> simp [ht]

theorem fired_of_due {e : Engine η} {serial : Nat} {due : Instant}
    (h : e.due? serial = some due) (now : Instant) :
    (e.fired serial now).entries = e.entries ∧ (e.fired serial now).lastId = e.lastId ∧
      (e.fired serial now).isRunning = e.isRunning ∧
      (e.fired serial now).armings = e.armings ∧
      (e.fired serial now).timers =
        e.timers.map fun t => t.next serial (due.later now) := by
  unfold fired fire
  unfold due? timers at h
  cases hd : e.drive with
  | byHand rejecting => simp [hd] at h
  | clockwork c =>
    rw [hd] at h
    dsimp only at h ⊢
    cases ht : c.timers.find? fun t => decide (t.serial = serial) with
    | none => simp [ht] at h
    | some t =>
      rw [ht] at h
      have hdue : t.due = some due := h
      simp [hdue, isRunning, armings, timers, hd, Timer.next]

theorem fired_of_not_due {e : Engine η} {serial : Nat} (h : e.due? serial = none)
    (now : Instant) : e.fired serial now = e := by
  unfold fired
  rw [fire_eq_none_iff.mpr h]

theorem fired_entries (e : Engine η) (serial : Nat) (now : Instant) :
    (e.fired serial now).entries = e.entries := by
  cases hdue : e.due? serial with
  | none => rw [fired_of_not_due hdue]
  | some due => exact (fired_of_due hdue now).1

theorem fired_lastId (e : Engine η) (serial : Nat) (now : Instant) :
    (e.fired serial now).lastId = e.lastId := by
  cases hdue : e.due? serial with
  | none => rw [fired_of_not_due hdue]
  | some due => exact (fired_of_due hdue now).2.1

theorem fired_isRunning (e : Engine η) (serial : Nat) (now : Instant) :
    (e.fired serial now).isRunning = e.isRunning := by
  cases hdue : e.due? serial with
  | none => rw [fired_of_not_due hdue]
  | some due => exact (fired_of_due hdue now).2.2.1

theorem setRejecting_entries (e : Engine η) (rejecting : Bool) :
    (e.setRejecting rejecting).entries = e.entries := by
  unfold setRejecting
  cases e.drive <;> rfl

theorem setRejecting_isRunning (e : Engine η) (rejecting : Bool) :
    (e.setRejecting rejecting).isRunning = e.isRunning := by
  unfold setRejecting
  cases hdrive : e.drive with
  | byHand rejecting => simp [isRunning, hdrive]
  | clockwork c => rfl

end Engine
end RecurringJobs
