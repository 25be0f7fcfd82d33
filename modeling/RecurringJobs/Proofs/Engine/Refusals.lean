import RecurringJobs.Proofs.Engine.Moves

/-!
Which plans an engine refuses.

An engine driven by hand can be told to refuse all of them.  No operation of an engine changes what
it was told, except for the one that tells it.
-/

namespace RecurringJobs

variable {η : Type}

/-- Why an engine does not take a plan, where `refusing` says whether it refuses all of them, if it
can be told to. -/
def refusal? (refusing : Option Bool) (plan : String) : Option EngineError :=
  if refusing = some true then some .rejected
  else
    match Plan.parse plan with
    | .ok _ => none
    | .error e => some (.invalid e)

namespace Engine

/-- Whether an engine refuses all plans, if it can be told to. -/
def refusing (e : Engine η) : Option Bool :=
  match e.drive with
  | .byHand rejecting => some rejecting
  | .clockwork _ => none

theorem register_result (e : Engine η) (now : Instant) (text : String) (callback : Callback η) :
    (e.register now text callback).1 =
      match refusal? e.refusing text with
      | some error => .error error
      | none => .ok (e.lastId + 1) := by
  unfold register refusal? refusing
  cases e.drive with
  | byHand rejecting =>
    cases rejecting with
    | true => rfl
    | false => cases Plan.parse text <;> rfl
  | clockwork c =>
    cases Plan.parse text with
    | error error => rfl
    | ok plan =>
      dsimp only
      split <;> rfl

theorem refusing_register (e : Engine η) (now : Instant) (text : String) (callback : Callback η) :
    (e.register now text callback).2.1.refusing = e.refusing := by
  unfold register
  cases hd : e.drive with
  | byHand rejecting =>
    cases rejecting with
    | true => simp [refusing, hd]
    | false => cases Plan.parse text <;> simp [refusing, hd]
  | clockwork c =>
    cases Plan.parse text with
    | error error => simp [refusing, hd]
    | ok plan =>
      dsimp only
      split <;> simp [refusing, hd]

theorem refusing_unregister (e : Engine η) (id : Nat) :
    (e.unregister id).1.refusing = e.refusing := by
  unfold unregister
  cases hd : e.drive with
  | byHand rejecting => simp [refusing, hd]
  | clockwork c => cases e.entry? id <;> simp [refusing, hd]

theorem refusing_start (e : Engine η) (now : Instant) : (e.start now).1.refusing = e.refusing := by
  unfold start
  cases hd : e.drive with
  | byHand rejecting => simp [refusing, hd]
  | clockwork c =>
    dsimp only
    split <;> simp [refusing, hd]

theorem refusing_stop (e : Engine η) : e.stop.1.refusing = e.refusing := by
  unfold stop
  cases hd : e.drive with
  | byHand rejecting => simp [refusing, hd]
  | clockwork c =>
    dsimp only
    split <;> simp [refusing, hd]

theorem refusing_fired (e : Engine η) (serial : Nat) (now : Instant) :
    (e.fired serial now).refusing = e.refusing := by
  unfold fired fire
  cases hd : e.drive with
  | byHand rejecting => simp [refusing, hd]
  | clockwork c =>
    dsimp only
    split
    · next h =>
      split at h
      · cases h
      · split at h
        · cases h
        · cases h
          simp [refusing, hd]
    · simp [refusing, hd]

theorem refusing_setRejecting (e : Engine η) (rejecting : Bool) :
    (e.setRejecting rejecting).refusing = e.refusing.map fun _ => rejecting := by
  unfold setRejecting
  cases hd : e.drive <;> simp [refusing, hd]

theorem start_isRunning {e : Engine η} (h : e.refusing = none) (now : Instant) :
    (e.start now).1.isRunning = true := by
  unfold refusing at h
  unfold start
  cases hd : e.drive with
  | byHand rejecting =>
    rw [hd] at h
    cases h
  | clockwork c =>
    by_cases hrun : c.running = true
    · simp only [hrun, if_true, isRunning, hd]
    · simp only [hrun, Bool.false_eq_true, if_false, isRunning]
      exact Clockwork.armAll_running _ now e.entries

theorem refusing_take (e : Engine η) (t : Turn η) : (e.take t).refusing = e.refusing := by
  obtain ⟨now, move⟩ := t
  cases move with
  | register text callback => exact e.refusing_register now text callback
  | unregister id => exact e.refusing_unregister id
  | start => exact e.refusing_start now
  | stop => exact e.refusing_stop
  | fire serial => exact e.refusing_fired serial now

end Engine
end RecurringJobs
