import RecurringJobs.Proofs.Engine.Moves
import RecurringJobs.Scheduler.Run

/-!
Runs of a scheduler: calls by its host, timers of its engine that go off, and callbacks that are
run, in any order.

Between two moves the clocks may read anything, and others may do anything to the store of leases.
A callback is run some time after it was triggered, so that one may be run at any point of a run.
-/

namespace RecurringJobs

variable {η : Type}

namespace Scheduler

/-- What can be done to a scheduler.  A job that must be added is added like any other. -/
inductive Move (η : Type) where
  | add (name plan : String) (handler : η)
  | addOnReady (name plan : String) (handler : η)
  | remove (name : String)
  | pause (name : String)
  | resume (name : String)
  | setLock (lock : Lock)
  | start
  | stop
  /-- The host is ready. -/
  | notify
  /-- An engine driven by hand begins to refuse registrations, or takes them again. -/
  | setRejecting (rejecting : Bool)
  /-- A timer of the engine goes off. -/
  | fire (serial : Nat)
  /-- What an entry triggers is run. -/
  | callback (c : Callback η)
  | readyCallback (c : ReadyCallback η)
deriving Repr, DecidableEq

def attempt (s : Scheduler η) (store : LeaseStore) (now : Nat) (e : Execution η) (gated : Bool) :
    LockOutcome η (Option (Execution η)) :=
  let (go, effects) := s.gate now e.name gated
  { result := if go then some e else none, scheduler := s, store, effects }

def notify (s : Scheduler η) : Outcome η Unit :=
  match s.ready with
  | none => { result := (), scheduler := s }
  | some signal =>
    let (_, signal, effects) := signal.notify true
    { result := (), scheduler := { s with ready := some signal }, effects }

/-- A timer of the engine goes off.  What it triggers is run later. -/
def fire (s : Scheduler η) (now : Instant) (serial : Nat) : Outcome η Unit :=
  match s.engine.fire serial now with
  | some (_, engine, effects) => { result := (), scheduler := { s with engine }, effects }
  | none => { result := (), scheduler := s }

end Scheduler

/-- A call that has nothing to do with leases. -/
def Outcome.beside {α : Type} (o : Outcome η α) (store : LeaseStore) :
    LockOutcome η (Option (Execution η)) :=
  { result := none, scheduler := o.scheduler, store, effects := o.effects }

def LockOutcome.quiet {α : Type} (o : LockOutcome η α) : LockOutcome η (Option (Execution η)) :=
  { result := none, scheduler := o.scheduler, store := o.store, effects := o.effects }

namespace Scheduler

/-- What a move leaves, and the handler that is called, if one is. -/
def take (s : Scheduler η) (store : LeaseStore) (clock : Clock) :
    Move η → LockOutcome η (Option (Execution η))
  | .add name plan handler => (s.add clock.wall name plan handler).beside store
  | .addOnReady name plan handler => (s.addOnReady clock.wall name plan handler).beside store
  | .remove name => (s.remove name).beside store
  | .pause name => (s.pause name).beside store
  | .resume name => (s.resume clock.wall name).beside store
  | .setLock lock => (s.setLock lock).beside store
  | .start => (s.start store clock).quiet
  | .stop => (s.stop store clock.elapsed).quiet
  | .notify => s.notify.beside store
  | .setRejecting rejecting =>
    { result := none, scheduler := { s with engine := s.engine.setRejecting rejecting }, store }
  | .fire serial => (s.fire clock.wall serial).beside store
  | .callback (.job e) => s.attempt store clock.elapsed e true
  | .callback .refresh => (s.acquire store clock.elapsed).quiet
  | .callback (.host _) => { result := none, scheduler := s, store }
  | .readyCallback (.job e) => s.attempt store clock.elapsed e false
  | .readyCallback (.host _) => { result := none, scheduler := s, store }

/-- A move, and what it meets: the readings of the clocks and the store of leases. -/
structure Turn (η : Type) where
  clock : Clock
  store : LeaseStore
  move : Move η

def after (s : Scheduler η) (t : Turn η) : Scheduler η :=
  (s.take t.store t.clock t.move).scheduler

def run (s : Scheduler η) : List (Turn η) → Scheduler η
  | [] => s
  | t :: ts => (s.after t).run ts

/-- A scheduler as it is built: its engine is new, no job was added and it was not started.  The
lock, the signal and the rest are as the host likes. -/
structure IsNew (s : Scheduler η) : Prop where
  engine : s.engine = .clockwork ∨ ∃ rejecting, s.engine = Engine.byHand.setRejecting rejecting
  jobs : s.jobs = ∅
  state : s.state = .created
  refreshEntry : s.refreshEntry = none

theorem IsNew.engine_isSound {s : Scheduler η} (h : s.IsNew) : s.engine.IsSound := by
  rcases h.engine with hengine | ⟨rejecting, hengine⟩
  · rw [hengine]
    exact Engine.isSound_clockwork
  · rw [hengine]
    exact Engine.isSound_byHand rejecting

theorem IsNew.entries {s : Scheduler η} (h : s.IsNew) : s.engine.entries = [] := by
  rcases h.engine with hengine | ⟨rejecting, hengine⟩
  · rw [hengine]
    rfl
  · rw [hengine]
    rfl

/-! ## What a move leaves -/

theorem add_frame (s : Scheduler η) (now : Instant) (name plan : String) (handler : η) :
    ∃ engine jobs, (s.add now name plan handler).scheduler = { s with engine, jobs } := by
  unfold add
  cases s.jobs[name]? with
  | some r => exact ⟨s.engine, s.jobs, rfl⟩
  | none =>
    dsimp only
    split
    · exact ⟨s.engine, s.jobs, rfl⟩
    · exact ⟨_, _, rfl⟩

theorem pause_frame (s : Scheduler η) (name : String) :
    ∃ engine jobs, (s.pause name).scheduler = { s with engine, jobs } := by
  unfold pause
  cases s.jobs[name]? with
  | none => exact ⟨s.engine, s.jobs, rfl⟩
  | some r =>
    dsimp only
    split
    · exact ⟨s.engine, s.jobs, rfl⟩
    · exact ⟨_, _, rfl⟩

theorem start_result {s : Scheduler η} (hcreated : s.state = .created) (store : LeaseStore)
    (clock : Clock) :
    (s.start store clock).result = .ok () ∨ (s.start store clock).result = .error .crashed := by
  unfold start
  rw [if_neg (Decidable.not_not.mpr hcreated)]
  dsimp only
  split
  · exact Or.inr rfl
  · exact Or.inl rfl

theorem acquire_result {s : Scheduler η} {lock : Lock} (hlock : s.lock = some lock)
    (store : LeaseStore) (now : Nat) :
    (s.acquire store now).result = (lock.tryLock store now).1 := by
  unfold acquire
  rw [hlock]
  rfl

/-- A start comes back when its try of the lock does. -/
theorem start_result_of_lock {s : Scheduler η} (hcreated : s.state = .created) {lock : Lock}
    (hlock : s.lock = some lock) {store : LeaseStore} {clock : Clock}
    (hback : (lock.tryLock store clock.elapsed).1 ≠ .crashed) :
    (s.start store clock).result = .ok () := by
  have htried := acquire_result (s := { s with state := .started }) hlock store clock.elapsed
  unfold start
  rw [if_neg (Decidable.not_not.mpr hcreated)]
  dsimp only
  rw [if_neg (by rw [htried]; exact hback)]

theorem tryUnlock_result (s : Scheduler η) (lock : Lock) (store : LeaseStore) (now : Nat) :
    (s.tryUnlock lock store now).result = (lock.tryUnlock store now).1 := rfl

theorem stop_result {s : Scheduler η} (hstarted : s.state = .started) (store : LeaseStore)
    (now : Nat) :
    (s.stop store now).result = .ok () ∨ (s.stop store now).result = .error .crashed := by
  unfold stop
  rw [if_neg (Decidable.not_not.mpr hstarted)]
  exact (ite_eq_or_eq _ _ _).symm

/-- A stop comes back when the lock does, to which it gives back what it holds. -/
theorem stop_result_of_lock {s : Scheduler η} (hstarted : s.state = .started) {lock : Lock}
    (hlock : s.lock = some lock) {store : LeaseStore} {now : Nat}
    (hback : (lock.tryUnlock store now).1 ≠ .crashed) : (s.stop store now).result = .ok () := by
  unfold stop
  rw [if_neg (Decidable.not_not.mpr hstarted), hlock]
  dsimp only
  rw [if_neg (by rw [tryUnlock_result]; exact hback)]

theorem acquire_scheduler (s : Scheduler η) (store : LeaseStore) (now : Nat) :
    (s.acquire store now).scheduler =
      { s with lock := s.lock.map fun l => (l.tryLock store now).2.1 } := by
  obtain ⟨engine, jobs, lock, resolver, ready, refreshSeconds, state, refreshEntry⟩ := s
  cases lock <;> rfl

theorem attempt_result {s : Scheduler η} {lock : Lock} (hlock : s.lock = some lock)
    (store : LeaseStore) (now : Nat) (e : Execution η) :
    (s.attempt store now e true).result = if lock.hasLock now then some e else none := by
  unfold attempt gate
  rw [hlock]
  dsimp only
  cases lock.hasLock now <;> rfl

theorem fire_scheduler (s : Scheduler η) (now : Instant) (serial : Nat) :
    (s.fire now serial).scheduler = { s with engine := s.engine.fired serial now } := by
  unfold fire Engine.fired
  cases s.engine.fire serial now <;> rfl

end Scheduler

end RecurringJobs
