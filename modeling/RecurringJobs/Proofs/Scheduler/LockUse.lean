import RecurringJobs.Proofs.Scheduler.Phases

/-!
How the lock is used at one moment of a service.

Each moment uses the lock in at most one way (`Moment.use?`), and which one it is depends on the
phase: a start takes it, the entry that renews it takes it again, a stop gives it back, and a gated
run asks it.
-/

namespace RecurringJobs

variable {η : Type}

/-! ## Without a lock -/

namespace Scheduler

/-- Nothing is done to the slot of the lock and to the store. -/
structure Spares {α : Type} (s : Scheduler η) (store : LeaseStore) (o : LockOutcome η α) : Prop where
  calls : lockCalls o.effects = []
  lock : o.scheduler.lock = s.lock
  store : o.store = store

theorem LeavesLock.spares {α : Type} {s : Scheduler η} {o : Outcome η α} (h : s.LeavesLock o)
    (store : LeaseStore) : s.Spares store (o.beside store) :=
  ⟨h.calls, h.lock, rfl⟩

variable {s : Scheduler η}

theorem start_spares (hlock : s.lock = none) (store : LeaseStore) (clock : Clock) :
    s.Spares store (s.start store clock) := by
  have htried : acquire { s with state := .started } store clock.elapsed =
      { result := .ok, scheduler := { s with state := .started }, store } := by
    unfold acquire
    dsimp only
    rw [hlock]
  unfold start
  split
  · exact ⟨rfl, rfl, rfl⟩
  · dsimp only
    rw [htried]
    dsimp only
    rw [hlock, if_neg (show ¬LockAnswer.ok = LockAnswer.crashed from nofun)]
    refine ⟨?_, hlock.symm, rfl⟩
    show lockCalls ([] ++ [] ++ (s.engine.start clock.wall).2 ++ [_]) = []
    simp [Engine.lockCalls_start, Effect.lockCall?]

theorem stop_spares (hlock : s.lock = none) (store : LeaseStore) (now : Nat) :
    s.Spares store (s.stop store now) := by
  unfold stop
  split
  · exact ⟨rfl, rfl, rfl⟩
  · simp only [hlock]
    refine ⟨?_, hlock.symm, rfl⟩
    cases s.refreshEntry with
    | none => simp [lockCalls_append, Engine.lockCalls_stop, lockCalls_stopLogs]
    | some id =>
      simp [lockCalls_append, Engine.lockCalls_stop, Engine.lockCalls_unregister,
        lockCalls_stopLogs]

theorem take_spares (hlock : s.lock = none) (store : LeaseStore) (clock : Clock) {m : Move η}
    (hm : ∀ l, m ≠ .setLock l) : s.Spares store (s.take store clock m) := by
  cases m with
  | add name plan handler => exact (s.add_leavesLock _ _ _ _).spares store
  | addOnReady name plan handler => exact (s.addOnReady_leavesLock _ _ _ _).spares store
  | remove name => exact (s.remove_leavesLock name).spares store
  | pause name => exact (s.pause_leavesLock name).spares store
  | resume name => exact (s.resume_leavesLock _ name).spares store
  | setLock l => exact absurd rfl (hm l)
  | start =>
    have hstart := start_spares hlock store clock
    exact ⟨hstart.calls, hstart.lock, hstart.store⟩
  | stop =>
    have hstop := stop_spares hlock store clock.elapsed
    exact ⟨hstop.calls, hstop.lock, hstop.store⟩
  | notify => exact s.notify_leavesLock.spares store
  | setRejecting rejecting => exact ⟨rfl, rfl, rfl⟩
  | fire serial => exact (s.fire_leavesLock _ serial).spares store
  | callback c =>
    cases c with
    | job e =>
      refine ⟨?_, rfl, rfl⟩
      show lockCalls (s.gate clock.elapsed e.name true).2 = []
      unfold gate
      rw [hlock]
      rfl
    | refresh =>
      show s.Spares store (s.acquire store clock.elapsed).quiet
      unfold acquire
      rw [hlock]
      exact ⟨rfl, rfl, rfl⟩
    | host label => exact ⟨rfl, rfl, rfl⟩
  | readyCallback c =>
    cases c with
    | job e =>
      refine ⟨?_, rfl, rfl⟩
      show lockCalls (s.gate clock.elapsed e.name false).2 = []
      unfold gate
      rw [hlock]
      rfl
    | host label => exact ⟨rfl, rfl, rfl⟩

/-! ## Triggers -/

def triggerUse (s : Scheduler η) (now : Instant) (t : Trigger) : Option LockUse :=
  (s.engine.trigger? now t).bind fun left => s.lockUse (.callback left.1)

def Move.idle : Move η := .readyCallback (.host "")

/-- As far as the lock and the store are concerned, the outcomes are the same. -/
structure SameUse {α β : Type} (o : LockOutcome η α) (p : LockOutcome η β) : Prop where
  calls : lockCalls o.effects = lockCalls p.effects
  lock : o.scheduler.lock = p.scheduler.lock
  store : o.store = p.store

/-- A trigger uses the lock as the callback does that it runs. -/
theorem trigger_sameUse {left : Callback η × Engine η × List (Effect η)} {t : Trigger}
    {clock : Clock} (h : s.engine.trigger? clock.wall t = some left) (store : LeaseStore)
    (ending : RunEnd) :
    SameUse (s.trigger store clock t ending)
      (take { s with engine := left.2.1 } store clock (.callback left.1)) := by
  let o := take { s with engine := left.2.1 } store clock (.callback left.1)
  rw [trigger_of_some h store ending]
  refine ⟨?_, rfl, rfl⟩
  show lockCalls (left.2.2 ++ (o.ending ending).effects) = lockCalls o.effects
  rw [lockCalls_append, lockCalls_of_idle (Engine.trigger?_idle h), o.lockCalls_ending ending]
  rfl

theorem IsSound.triggerUse_of_refresh (h : s.IsSound) {t : Trigger} {id : Nat}
    (hid : s.refreshEntry = some id) (ht : s.engine.target? t = some id) (now : Instant) :
    s.triggerUse now t = some .take := by
  obtain ⟨x, e', es, hx, hxid⟩ := h.tallies.engine.exists_triggers ht now
  obtain ⟨y, hy, hyid, hcallback⟩ := h.tallies.renewal id hid
  have hxy : x = y := h.tallies.engine.eq_of_id_eq hx.mem hy (hxid.trans hyid.symm)
  unfold triggerUse
  rw [hx.trigger?, hxy, hcallback]
  rfl

theorem IsSound.triggerUse_of_other (h : s.IsSound) {t : Trigger}
    (hother : ∀ id, s.engine.target? t = some id → s.refreshEntry ≠ some id) (now : Instant) :
    s.triggerUse now t = none ∨ s.triggerUse now t = some .ask := by
  unfold triggerUse
  cases htarget : s.engine.target? t with
  | none =>
    rw [Engine.trigger?_of_no_target htarget]
    exact Or.inl rfl
  | some id =>
    obtain ⟨x, e', es, hx, hxid⟩ := h.tallies.engine.exists_triggers htarget now
    rcases h.tallies.owned x hx.mem with hrefresh | ⟨name, r, -, howns⟩
    · rw [hxid] at hrefresh
      exact absurd hrefresh (hother id htarget)
    · rw [hx.trigger?, howns.callback]
      exact Or.inr rfl

end Scheduler

/-! ## Moments -/

def LockCall.isTry : LockCall → Bool
  | .hasLock _ => false
  | _ => true

/-- The calls that take the lock or give it back. -/
def tries (es : List (Effect η)) : List LockCall := (lockCalls es).filter LockCall.isTry

namespace Service
namespace Moment

variable {m : Moment η}

/-- The slot of the lock as the host and others leave it. -/
def slot (m : Moment η) : Option Lock :=
  match m.event with
  | .turnLock lock => m.scheduler.lock.map fun _ => lock
  | .call (.setLock lock) => if m.scheduler.state = .created then some lock else m.scheduler.lock
  | _ => m.scheduler.lock

structure Rests (m : Moment η) : Prop where
  tries : tries m.effects = []
  lock : m.after.scheduler.lock = m.slot
  store : m.outcome.store = m.occasion.store

/-- The lock in the slot is called once, in this way. -/
def Uses (m : Moment η) (use : LockUse) : Prop :=
  ∃ lock, m.scheduler.lock = some lock ∧
    Scheduler.Leaves m.outcome (lock.used m.occasion.store m.now (some use))

/-- The entry that renews the lock is triggered. -/
def Renews (m : Moment η) : Prop :=
  ∃ id, m.scheduler.refreshEntry = some id ∧ m.Triggers id

def use? (m : Moment η) : Option LockUse :=
  match m.event with
  | .call c => c.move?.bind m.scheduler.lockUse
  | .trigger t _ => m.scheduler.triggerUse m.occasion.clock.wall t
  | _ => none

/-- Whatever happens to the lock at a moment is what one move does to it. -/
theorem exists_move (hset : ∀ l, m.event ≠ .call (.setLock l))
    (hturn : ∀ l, m.event ≠ .turnLock l) :
    ∃ (s : Scheduler η) (move : Scheduler.Move η), s.lock = m.scheduler.lock ∧
      (∀ l, move ≠ .setLock l) ∧ m.use? = s.lockUse move ∧
        Scheduler.SameUse m.outcome (s.take m.occasion.store m.occasion.clock move) := by
  obtain ⟨w, clock, store, event⟩ := m
  cases event with
  | call c =>
    show ∃ (s : Scheduler η) (move : Scheduler.Move η), s.lock = w.scheduler.lock ∧
      (∀ l, move ≠ .setLock l) ∧ c.move?.bind w.scheduler.lockUse = s.lockUse move ∧
        Scheduler.SameUse (w.scheduler.ask store clock c).replied (s.take store clock move)
    cases hmove : c.move? with
    | none =>
      obtain ⟨hscheduler, hstore, heffects⟩ :=
        Scheduler.ask_of_no_move hmove w.scheduler store clock
      exact ⟨w.scheduler, .idle, rfl, nofun, rfl, congrArg lockCalls heffects,
        congrArg Scheduler.lock hscheduler, hstore⟩
    | some move =>
      have hmoves : ∀ l, move ≠ .setLock l := by
        rintro l rfl
        cases c with
        | setLock l => exact hset l rfl
        | _ => cases hmove
      obtain ⟨hscheduler, hstore, heffects⟩ := Scheduler.ask_of_move hmove w.scheduler store clock
      exact ⟨w.scheduler, move, rfl, hmoves, rfl, congrArg lockCalls heffects,
        congrArg Scheduler.lock hscheduler, hstore⟩
  | notify => exact ⟨w.scheduler, .notify, rfl, nofun, rfl, rfl, rfl, rfl⟩
  | setRejecting rejecting =>
    exact ⟨w.scheduler, .setRejecting rejecting, rfl, nofun, rfl, rfl, rfl, rfl⟩
  | turnLock l => exact absurd rfl (hturn l)
  | trigger t ending =>
    show ∃ (s : Scheduler η) (move : Scheduler.Move η), s.lock = w.scheduler.lock ∧
      (∀ l, move ≠ .setLock l) ∧ w.scheduler.triggerUse clock.wall t = s.lockUse move ∧
        Scheduler.SameUse (w.scheduler.trigger store clock t ending).deed (s.take store clock move)
    unfold Scheduler.triggerUse
    cases htrigger : w.scheduler.engine.trigger? clock.wall t with
    | none =>
      have hnothing : w.scheduler.trigger store clock t ending =
          { result := none, scheduler := w.scheduler, store } := by
        unfold Scheduler.trigger
        rw [htrigger]
      rw [hnothing]
      exact ⟨w.scheduler, .idle, rfl, nofun, rfl, rfl, rfl, rfl⟩
    | some left =>
      have hsame := Scheduler.trigger_sameUse htrigger store ending
      exact ⟨{ w.scheduler with engine := left.2.1 }, .callback left.1, rfl, nofun, rfl,
        hsame.calls, hsame.lock, hsame.store⟩
  | ready place ending =>
    show ∃ (s : Scheduler η) (move : Scheduler.Move η), s.lock = w.scheduler.lock ∧
      (∀ l, move ≠ .setLock l) ∧ none = s.lockUse move ∧
        Scheduler.SameUse (w.perform _) (s.take store clock move)
    unfold Service.perform
    dsimp only
    cases w.released[place]? with
    | none => exact ⟨w.scheduler, .idle, rfl, nofun, rfl, rfl, rfl, rfl⟩
    | some c =>
      exact ⟨w.scheduler, .readyCallback c, rfl, nofun, rfl,
        LockOutcome.lockCalls_ending _ ending, rfl, rfl⟩

theorem leaves {lock : Lock} (hlock : m.scheduler.lock = some lock)
    (hset : ∀ l, m.event ≠ .call (.setLock l)) (hturn : ∀ l, m.event ≠ .turnLock l) :
    Scheduler.Leaves m.outcome (lock.used m.occasion.store m.now m.use?) := by
  obtain ⟨s, move, hsame, hmove, huse, hcalls, hleft, hstore⟩ := exists_move hset hturn
  have htaken :=
    Scheduler.take_leaves (hsame.trans hlock) m.occasion.store m.occasion.clock hmove
  rw [huse]
  exact ⟨hcalls.trans htaken.calls, hleft.trans htaken.lock, hstore.trans htaken.store⟩

theorem spares (hlock : m.scheduler.lock = none) (hset : ∀ l, m.event ≠ .call (.setLock l))
    (hturn : ∀ l, m.event ≠ .turnLock l) : m.scheduler.Spares m.occasion.store m.outcome := by
  obtain ⟨s, move, hsame, hmove, -, hcalls, hleft, hstore⟩ := exists_move hset hturn
  have htaken :=
    Scheduler.take_spares (hsame.trans hlock) m.occasion.store m.occasion.clock hmove
  exact ⟨hcalls.trans htaken.calls, (hleft.trans htaken.lock).trans hsame,
    hstore.trans htaken.store⟩

theorem slot_eq (hset : ∀ l, m.event ≠ .call (.setLock l)) (hturn : ∀ l, m.event ≠ .turnLock l) :
    m.slot = m.scheduler.lock := by
  unfold slot
  split
  · next lock hevent => exact absurd hevent (hturn lock)
  · next lock hevent => exact absurd hevent (hset lock)
  · rfl

theorem tries_of_calls {es : List (Effect η)} (h : lockCalls es = []) :
    RecurringJobs.tries es = [] := by
  unfold RecurringJobs.tries
  rw [h]
  rfl

theorem rests_of_setLock {lock : Lock} (h : m.event = .call (.setLock lock)) :
    m.Rests ∧ lockCalls m.effects = [] := by
  obtain ⟨w, clock, store, event⟩ := m
  cases h
  have hcalls : lockCalls (w.scheduler.setLock lock).effects = [] := by
    unfold Scheduler.setLock
    split <;> rfl
  refine ⟨⟨tries_of_calls hcalls, ?_, rfl⟩, hcalls⟩
  show (w.scheduler.setLock lock).scheduler.lock =
    if w.scheduler.state = .created then some lock else w.scheduler.lock
  unfold Scheduler.setLock
  split <;> rfl

theorem rests_of_turnLock {lock : Lock} (h : m.event = .turnLock lock) :
    m.Rests ∧ lockCalls m.effects = [] := by
  obtain ⟨w, clock, store, event⟩ := m
  cases h
  exact ⟨⟨rfl, rfl, rfl⟩, rfl⟩

theorem rests_of_no_lock (hlock : m.scheduler.lock = none) :
    m.Rests ∧ lockCalls m.effects = [] := by
  by_cases hset : ∃ l, m.event = .call (.setLock l)
  · obtain ⟨l, hevent⟩ := hset
    exact rests_of_setLock hevent
  · by_cases hturn : ∃ l, m.event = .turnLock l
    · obtain ⟨l, hevent⟩ := hturn
      exact rests_of_turnLock hevent
    · have hset' := not_exists.mp hset
      have hturn' := not_exists.mp hturn
      have hspared := spares hlock hset' hturn'
      refine ⟨⟨tries_of_calls hspared.calls, ?_, hspared.store⟩, hspared.calls⟩
      rw [slot_eq hset' hturn']
      exact hspared.lock

/-- The lock rests where it is used for nothing, or only asked. -/
theorem rests_of_use (h : m.use? = none ∨ m.use? = some .ask) :
    m.Rests ∧ (m.use? = none → lockCalls m.effects = []) := by
  by_cases hset : ∃ l, m.event = .call (.setLock l)
  · obtain ⟨l, hevent⟩ := hset
    exact (rests_of_setLock hevent).imp_right fun hcalls _ => hcalls
  · by_cases hturn : ∃ l, m.event = .turnLock l
    · obtain ⟨l, hevent⟩ := hturn
      exact (rests_of_turnLock hevent).imp_right fun hcalls _ => hcalls
    · cases hlock : m.scheduler.lock with
      | none => exact (rests_of_no_lock hlock).imp_right fun hcalls _ => hcalls
      | some lock =>
        have hset' := not_exists.mp hset
        have hturn' := not_exists.mp hturn
        obtain ⟨hcalls, hleft, hstore⟩ := leaves hlock hset' hturn'
        have hslot : m.slot = some lock := (slot_eq hset' hturn').trans hlock
        rcases h with hnone | hask
        · rw [hnone] at hcalls hleft hstore
          exact ⟨⟨tries_of_calls hcalls, hleft.trans hslot.symm, hstore⟩, fun _ => hcalls⟩
        · rw [hask] at hcalls hleft hstore
          refine ⟨⟨?_, hleft.trans hslot.symm, hstore⟩, fun hnone => ?_⟩
          · unfold RecurringJobs.tries
            rw [show lockCalls m.effects = [.hasLock (lock.hasLock m.now)] from hcalls]
            rfl
          · rw [hask] at hnone
            cases hnone

theorem uses_of_use {use : LockUse} (hlock : m.scheduler.lock ≠ none) (h : m.use? = some use) :
    m.Uses use := by
  obtain ⟨lock, hlock'⟩ := Option.ne_none_iff_exists'.mp hlock
  refine ⟨lock, hlock', ?_⟩
  rw [← h]
  refine leaves hlock' ?_ ?_
  · intro l hevent
    unfold use? at h
    rw [hevent] at h
    cases h
  · intro l hevent
    unfold use? at h
    rw [hevent] at h
    cases h

/-! ### Which use it is -/

theorem use?_of_begins (h : m.Begins) : m.use? = some .take := by
  unfold use?
  rw [h.1]
  show m.scheduler.lockUse .start = some .take
  unfold Scheduler.lockUse
  rw [if_pos h.2]

theorem use?_of_ends (h : m.Ends) : m.use? = some .giveBack := by
  unfold use?
  rw [h.1]
  show m.scheduler.lockUse .stop = some .giveBack
  unfold Scheduler.lockUse
  rw [if_pos h.2]

theorem use?_of_renews (hsound : m.scheduler.IsSound) (h : m.Renews) : m.use? = some .take := by
  obtain ⟨id, hid, t, ending, hevent, htarget⟩ := h
  unfold use?
  rw [hevent]
  exact hsound.triggerUse_of_refresh hid htarget m.occasion.clock.wall

theorem use?_of_untriggered (ht : ∀ t ending, m.event ≠ .trigger t ending) (hb : ¬m.Begins)
    (he : ¬m.Ends) : m.use? = none := by
  unfold use?
  cases hevent : m.event with
  | call c =>
    cases c with
    | start =>
      show m.scheduler.lockUse .start = none
      unfold Scheduler.lockUse
      rw [if_neg fun hstate => hb ⟨hevent, hstate⟩]
    | stop =>
      show m.scheduler.lockUse .stop = none
      unfold Scheduler.lockUse
      rw [if_neg fun hstate => he ⟨hevent, hstate⟩]
    | _ => rfl
  | trigger t ending => exact absurd hevent (ht t ending)
  | notify => rfl
  | setRejecting rejecting => rfl
  | turnLock lock => rfl
  | ready place ending => rfl

theorem use?_of_other (hsound : m.scheduler.IsSound) (hb : ¬m.Begins) (he : ¬m.Ends)
    (hr : ¬m.Renews) : m.use? = none ∨ m.use? = some .ask := by
  by_cases ht : ∃ t ending, m.event = .trigger t ending
  · obtain ⟨t, ending, hevent⟩ := ht
    unfold use?
    rw [hevent]
    refine hsound.triggerUse_of_other (fun id htarget hid => ?_) m.occasion.clock.wall
    exact hr ⟨id, hid, t, ending, hevent, htarget⟩
  · exact Or.inl (use?_of_untriggered (fun t ending hevent => ht ⟨t, ending, hevent⟩) hb he)

/-- Where no timer is armed, nothing asks for the lock. -/
theorem use?_of_standing (hsound : m.scheduler.IsSound)
    (hclockwork : m.scheduler.engine.refusing = none)
    (hstands : m.scheduler.engine.isRunning = false) (hb : ¬m.Begins) (he : ¬m.Ends) :
    m.use? = none := by
  by_cases ht : ∃ t ending, m.event = .trigger t ending
  · obtain ⟨t, ending, hevent⟩ := ht
    have htarget : m.scheduler.engine.target? t = none := by
      cases htarget : m.scheduler.engine.target? t with
      | none => rfl
      | some id =>
        have hruns := hsound.tallies.engine.isRunning_of_target? hclockwork htarget
        exact absurd (hruns.symm.trans hstands) nofun
    unfold use?
    rw [hevent]
    show m.scheduler.triggerUse m.occasion.clock.wall t = none
    unfold Scheduler.triggerUse
    rw [Engine.trigger?_of_no_target htarget]
    rfl
  · exact use?_of_untriggered (fun t ending hevent => ht ⟨t, ending, hevent⟩) hb he

theorem rests (hsound : m.scheduler.IsSound) (hb : ¬m.Begins) (he : ¬m.Ends) (hr : ¬m.Renews) :
    m.Rests :=
  (rests_of_use (use?_of_other hsound hb he hr)).1

theorem takes_of_renews (hsound : m.scheduler.IsSound) (h : m.Renews) : m.Uses .take := by
  have hid : m.scheduler.refreshEntry ≠ none := by
    obtain ⟨id, hid, -⟩ := h
    rw [hid]
    exact nofun
  exact uses_of_use (hsound.refreshing hid).2 (use?_of_renews hsound h)

theorem not_renews (hsound : m.scheduler.IsSound) (hstate : m.scheduler.state ≠ .started) :
    ¬m.Renews := by
  rintro ⟨id, hid, -⟩
  have hsome : m.scheduler.refreshEntry ≠ none := by
    rw [hid]
    exact nofun
  exact hstate (hsound.refreshing hsome).1

end Moment
end Service
end RecurringJobs
