import RecurringJobs.Proofs.Scheduler.Moves

/-!
The calls of a scheduler that reach its lock.

Only three kinds of moves have to do with the lock: the start and the refresh entry try it, the stop
gives it back, and a gated run asks it.  `take_lock` says what each of them does to the lock and to
the store of leases, and that no other move does anything to them.
-/

namespace RecurringJobs

variable {η : Type}

/-! ## Effects -/

def Effect.lockCall? : Effect η → Option LockCall
  | .lock c => some c
  | _ => none

/-- The calls that reach the lock, in order. -/
def lockCalls (es : List (Effect η)) : List LockCall := es.filterMap Effect.lockCall?

@[simp] theorem lockCalls_nil : lockCalls ([] : List (Effect η)) = [] := rfl

@[simp] theorem lockCalls_cons (e : Effect η) (es : List (Effect η)) :
    lockCalls (e :: es) = e.lockCall?.toList ++ lockCalls es := by
  unfold lockCalls
  rw [List.filterMap_cons]
  cases e.lockCall? <;> rfl

@[simp] theorem lockCalls_append (es fs : List (Effect η)) :
    lockCalls (es ++ fs) = lockCalls es ++ lockCalls fs :=
  List.filterMap_append

namespace Timer

theorem lockCalls_effects {await : Instant → Effect η}
    (hquiet : ∀ due, (await due).lockCall? = none) (id : Nat) (plan : Plan) (now : Instant) :
    lockCalls (effects await id plan now) = [] := by
  unfold effects
  split
  · simp [hquiet]
  · rfl
  · rfl

end Timer

theorem Clockwork.lockCalls_armAll (c : Clockwork η) (now : Instant) (xs : List (Entry η)) :
    lockCalls (c.armAll now xs).2 = [] := by
  induction xs generalizing c with
  | nil => rfl
  | cons x xs ih =>
    have htimer : lockCalls (Timer.effects (.arm c.armings) x.id x.plan now : List (Effect η)) = [] :=
      Timer.lockCalls_effects (fun _ => rfl) x.id x.plan now
    have hrest := ih (c.arm x now)
    show lockCalls (_ ++ ((c.arm x now).armAll now xs).2) = []
    rw [lockCalls_append, htimer, hrest]
    rfl

namespace Engine

theorem lockCalls_register (e : Engine η) (now : Instant) (text : String)
    (callback : Callback η) : lockCalls (e.register now text callback).2.2 = [] := by
  unfold register
  cases e.drive with
  | byHand rejecting =>
    cases rejecting with
    | true => rfl
    | false => cases Plan.parse text <;> rfl
  | clockwork c =>
    cases Plan.parse text with
    | error error => rfl
    | ok plan =>
      dsimp only
      split
      · rw [lockCalls_append, Timer.lockCalls_effects fun _ => rfl]
        rfl
      · rfl

theorem lockCalls_of_register {e e' : Engine η} {now : Instant} {text : String}
    {callback : Callback η} {result : Except EngineError Nat} {es : List (Effect η)}
    (h : e.register now text callback = (result, e', es)) : lockCalls es = [] := by
  have hquiet := e.lockCalls_register now text callback
  rw [h] at hquiet
  exact hquiet

theorem lockCalls_unregister (e : Engine η) (id : Nat) : lockCalls (e.unregister id).2 = [] := by
  unfold unregister
  cases e.drive with
  | byHand rejecting => rfl
  | clockwork c => cases e.entry? id <;> rfl

theorem lockCalls_start (e : Engine η) (now : Instant) : lockCalls (e.start now).2 = [] := by
  unfold start
  cases e.drive with
  | byHand rejecting => rfl
  | clockwork c =>
    dsimp only
    split
    · rfl
    · simp [Clockwork.lockCalls_armAll, Effect.lockCall?]

theorem lockCalls_stop (e : Engine η) : lockCalls e.stop.2 = [] := by
  unfold stop
  cases e.drive with
  | byHand rejecting => rfl
  | clockwork c => dsimp only; split <;> rfl

theorem lockCalls_fire {e e' : Engine η} {serial : Nat} {now : Instant} {c : Callback η}
    {es : List (Effect η)} (h : e.fire serial now = some (c, e', es)) : lockCalls es = [] := by
  unfold fire at h
  cases hd : e.drive with
  | byHand rejecting => simp [hd] at h
  | clockwork w =>
    rw [hd] at h
    dsimp only at h
    split at h
    · cases h
    · split at h
      · cases h
      · cases h
        exact Timer.lockCalls_effects (fun _ => rfl) _ _ _

end Engine

theorem ReadySignal.lockCalls_onReady (s : ReadySignal η) (runtime : Bool) (c : ReadyCallback η) :
    lockCalls (s.onReady runtime c).2 = [] := by
  unfold onReady
  split
  · cases runtime <;> rfl
  · rfl

theorem ReadySignal.lockCalls_notify (s : ReadySignal η) (runtime : Bool) :
    lockCalls (s.notify runtime).2.2 = [] := by
  have hrelease : ∀ cs : List (ReadyCallback η), lockCalls (cs.map (release runtime)) = [] := by
    intro cs
    induction cs with
    | nil => rfl
    | cons c cs ih =>
      rw [List.map_cons, lockCalls_cons, ih]
      cases runtime <;> rfl
  unfold notify
  split
  · rfl
  · exact hrelease s.pending

/-! ## Calls that have nothing to do with the lock -/

namespace Scheduler

structure LeavesLock {α : Type} (s : Scheduler η) (o : Outcome η α) : Prop where
  lock : o.scheduler.lock = s.lock
  calls : lockCalls o.effects = []

theorem add_leavesLock (s : Scheduler η) (now : Instant) (name plan : String) (handler : η) :
    s.LeavesLock (s.add now name plan handler) := by
  unfold add
  split
  · exact ⟨rfl, rfl⟩
  · dsimp only
    split
    · next hr => exact ⟨rfl, Engine.lockCalls_of_register hr⟩
    · next hr =>
      refine ⟨rfl, ?_⟩
      rw [lockCalls_append, Engine.lockCalls_of_register hr]
      rfl

theorem addOnReady_leavesLock (s : Scheduler η) (now : Instant) (name plan : String)
    (handler : η) : s.LeavesLock (s.addOnReady now name plan handler) := by
  have hadded := s.add_leavesLock now name plan handler
  unfold addOnReady
  split
  · exact ⟨rfl, rfl⟩
  · next signal _ =>
    dsimp only
    split
    · exact hadded
    · refine ⟨hadded.lock, ?_⟩
      rw [lockCalls_append, lockCalls_append, hadded.calls, ReadySignal.lockCalls_onReady]
      rfl

theorem remove_leavesLock (s : Scheduler η) (name : String) : s.LeavesLock (s.remove name) := by
  unfold remove
  split
  · exact ⟨rfl, rfl⟩
  · refine ⟨rfl, ?_⟩
    rw [lockCalls_append]
    split
    · rw [Engine.lockCalls_unregister]
      rfl
    · rfl

theorem pause_leavesLock (s : Scheduler η) (name : String) : s.LeavesLock (s.pause name) := by
  unfold pause
  split
  · exact ⟨rfl, rfl⟩
  · split
    · exact ⟨rfl, rfl⟩
    · refine ⟨rfl, ?_⟩
      rw [lockCalls_append]
      split
      · rw [Engine.lockCalls_unregister]
        rfl
      · rfl

theorem resume_leavesLock (s : Scheduler η) (now : Instant) (name : String) :
    s.LeavesLock (s.resume now name) := by
  unfold resume
  split
  · exact ⟨rfl, rfl⟩
  · split
    · exact ⟨rfl, rfl⟩
    · split
      · next hr => exact ⟨rfl, Engine.lockCalls_of_register hr⟩
      · next hr =>
        refine ⟨rfl, ?_⟩
        rw [lockCalls_append, Engine.lockCalls_of_register hr]
        rfl

theorem notify_leavesLock (s : Scheduler η) : s.LeavesLock s.notify := by
  unfold notify
  split
  · exact ⟨rfl, rfl⟩
  · exact ⟨rfl, ReadySignal.lockCalls_notify _ _⟩

theorem fire_leavesLock (s : Scheduler η) (now : Instant) (serial : Nat) :
    s.LeavesLock (s.fire now serial) := by
  unfold fire
  split
  · next hfire => exact ⟨rfl, Engine.lockCalls_fire hfire⟩
  · exact ⟨rfl, rfl⟩

end Scheduler

/-! ## What a move does to the lock -/

inductive LockUse where
  | take
  | giveBack
  | ask
deriving Repr, DecidableEq

/-- The call that was answered, if it came back. -/
def LockAnswer.calls (call : Option LockError → LockCall) : LockAnswer → List LockCall
  | .ok => [call none]
  | .refused e => [call (some e)]
  | .crashed => []

/-- The calls that a use of the lock makes, and what it leaves of the lock and the store. -/
def Lock.used (l : Lock) (store : LeaseStore) (now : Nat) :
    Option LockUse → List LockCall × Lock × LeaseStore
  | some .take => ((l.tryLock store now).1.calls .tryLock, (l.tryLock store now).2)
  | some .giveBack => ((l.tryUnlock store now).1.calls .tryUnlock, (l.tryUnlock store now).2)
  | some .ask => ([.hasLock (l.hasLock now)], l, store)
  | none => ([], l, store)

theorem Lock.tryLock_mem_used (l : Lock) (store : LeaseStore) (now : Nat) (use : Option LockUse) :
    LockCall.tryLock none ∈ (l.used store now use).1 ↔
      use = some .take ∧ (l.tryLock store now).1 = .ok := by
  unfold used
  cases use with
  | none => simp
  | some use =>
    cases use with
    | take => cases (l.tryLock store now).1 <;> simp [LockAnswer.calls]
    | giveBack => cases (l.tryUnlock store now).1 <;> simp [LockAnswer.calls]
    | ask => simp

def LeaseLock.used (l : LeaseLock) (store : LeaseStore) (now : Nat) :
    Option LockUse → LeaseLock × LeaseStore
  | some .take => (l.tryLock store now).2
  | some .giveBack => (l.tryUnlock store now).2
  | _ => (l, store)

theorem Lock.used_lease (l : LeaseLock) (store : LeaseStore) (now : Nat) (use : Option LockUse) :
    ((Lock.lease l).used store now use).2 =
      (.lease (l.used store now use).1, (l.used store now use).2) := by
  cases use with
  | none => rfl
  | some use => cases use <;> rfl

namespace Scheduler

def lockUse (s : Scheduler η) : Move η → Option LockUse
  | .start => if s.state = .created then some .take else none
  | .stop => if s.state = .started then some .giveBack else none
  | .callback (.job _) => some .ask
  | .callback .refresh => some .take
  | _ => none

theorem eq_stop_of_lockUse {s : Scheduler η} {m : Move η} (h : s.lockUse m = some .giveBack) :
    m = .stop := by
  unfold lockUse at h
  split at h
  · split at h <;> cases h
  · rfl
  · cases h
  · cases h
  · cases h

structure Leaves {α : Type} (o : LockOutcome η α) (left : List LockCall × Lock × LeaseStore) :
    Prop where
  calls : lockCalls o.effects = left.1
  lock : o.scheduler.lock = some left.2.1
  store : o.store = left.2.2

theorem LeavesLock.beside {α : Type} {s : Scheduler η} {o : Outcome η α} (h : s.LeavesLock o)
    {lock : Lock} (hlock : s.lock = some lock) (store : LeaseStore) :
    Leaves (o.beside store) ([], lock, store) where
  calls := h.calls
  lock := h.lock.trans hlock
  store := rfl

theorem tryLock_leaves (s : Scheduler η) (lock : Lock) (store : LeaseStore) (now : Nat) :
    Leaves (s.tryLock lock store now) (lock.used store now (some .take)) := by
  refine ⟨?_, rfl, rfl⟩
  have hsaid : ∀ l answer, lockCalls (leaseLog l answer : List (Effect η)) = [] := by
    intro l answer
    unfold leaseLog
    split <;> rfl
  unfold Scheduler.tryLock Lock.used
  dsimp only
  rw [lockCalls_append, hsaid]
  cases (lock.tryLock store now).1 <;> rfl

theorem tryUnlock_leaves (s : Scheduler η) (lock : Lock) (store : LeaseStore) (now : Nat) :
    Leaves (s.tryUnlock lock store now) (lock.used store now (some .giveBack)) := by
  refine ⟨?_, rfl, rfl⟩
  unfold Scheduler.tryUnlock Lock.used
  dsimp only
  cases (lock.tryUnlock store now).1 <;> rfl

theorem acquire_leaves {s : Scheduler η} {lock : Lock} (hlock : s.lock = some lock)
    (store : LeaseStore) (now : Nat) :
    Leaves (s.acquire store now) (lock.used store now (some .take)) := by
  have htried := s.tryLock_leaves lock store now
  unfold acquire
  rw [hlock]
  refine ⟨?_, htried.lock, htried.store⟩
  dsimp only
  rw [lockCalls_append, htried.calls]
  cases (s.tryLock lock store now).result <;> exact List.append_nil _

theorem installRefresh_lock (s : Scheduler η) (now : Instant) :
    (s.installRefresh now).1.lock = s.lock ∧ lockCalls (s.installRefresh now).2 = [] := by
  unfold installRefresh
  dsimp only
  split
  · next hr =>
    refine ⟨rfl, ?_⟩
    rw [lockCalls_append, Engine.lockCalls_of_register hr]
    rfl
  · next hr =>
    refine ⟨rfl, ?_⟩
    rw [lockCalls_append, Engine.lockCalls_of_register hr]
    rfl

theorem start_leaves {s : Scheduler η} {lock : Lock} (hlock : s.lock = some lock)
    (store : LeaseStore) (clock : Clock) :
    Leaves (s.start store clock) (lock.used store clock.elapsed (s.lockUse .start)) := by
  unfold lockUse start
  by_cases hstate : s.state = .created
  · let begun : Scheduler η := { s with state := .started }
    have htried := acquire_leaves (s := begun) hlock store clock.elapsed
    simp only [hstate, if_true, ne_eq, not_true, if_false]
    show Leaves (if (begun.acquire store clock.elapsed).result = .crashed then _ else _) _
    split
    · exact ⟨htried.calls, htried.lock, htried.store⟩
    · have hlocked := htried.lock
      have hinstalled := (begun.acquire store clock.elapsed).scheduler.installRefresh_lock clock.wall
      rw [hlocked]
      dsimp only
      refine ⟨?_, hinstalled.1.trans hlocked, htried.store⟩
      rw [lockCalls_append, lockCalls_append, lockCalls_append, htried.calls, hinstalled.2,
        Engine.lockCalls_start, List.append_nil, List.append_nil]
      exact List.append_nil _
  · simp only [hstate, ne_eq, not_false_eq_true, if_true, if_false]
    exact ⟨rfl, hlock, rfl⟩

theorem lockCalls_stopLogs (answer : LockAnswer) :
    lockCalls (stopLogs answer : List (Effect η)) = [] := by
  cases answer <;> rfl

theorem stop_leaves {s : Scheduler η} {lock : Lock} (hlock : s.lock = some lock)
    (store : LeaseStore) (now : Nat) :
    Leaves (s.stop store now) (lock.used store now (s.lockUse .stop)) := by
  unfold lockUse stop
  by_cases hstate : s.state = .started
  · simp only [hstate, if_true, ne_eq, not_true, if_false, hlock]
    -- the entry that renews the lock is removed first, if there is one
    cases s.refreshEntry with
    | none =>
      let ended : Scheduler η :=
        { s with state := .stopped, engine := s.engine.stop.1, refreshEntry := none,
                 lock := some lock }
      have hreleased := ended.tryUnlock_leaves lock store now
      refine ⟨?_, hreleased.lock, hreleased.store⟩
      simp only [lockCalls_append, Engine.lockCalls_stop, lockCalls_stopLogs, List.append_nil]
      exact hreleased.calls
    | some id =>
      let ended : Scheduler η :=
        { s with state := .stopped, engine := (s.engine.stop.1.unregister id).1,
                 refreshEntry := none, lock := some lock }
      have hreleased := ended.tryUnlock_leaves lock store now
      refine ⟨?_, hreleased.lock, hreleased.store⟩
      simp only [lockCalls_append, Engine.lockCalls_stop, Engine.lockCalls_unregister,
        lockCalls_stopLogs, List.append_nil]
      exact hreleased.calls
  · simp only [hstate, ne_eq, not_false_eq_true, if_true, if_false]
    exact ⟨rfl, hlock, rfl⟩

theorem attempt_leaves {s : Scheduler η} {lock : Lock} (hlock : s.lock = some lock)
    (store : LeaseStore) (now : Nat) (e : Execution η) :
    Leaves (s.attempt store now e true) (lock.used store now (some .ask)) := by
  refine ⟨?_, hlock, rfl⟩
  unfold attempt gate Lock.used
  rw [hlock]
  dsimp only
  cases lock.hasLock now <;> rfl

/-- What a move does to the lock and to the store, and which calls it makes. -/
theorem take_leaves {s : Scheduler η} {lock : Lock} (hlock : s.lock = some lock)
    (store : LeaseStore) (clock : Clock) {m : Move η} (hm : ∀ l, m ≠ .setLock l) :
    Leaves (s.take store clock m) (lock.used store clock.elapsed (s.lockUse m)) := by
  cases m with
  | add name plan handler => exact (s.add_leavesLock _ _ _ _).beside hlock store
  | addOnReady name plan handler => exact (s.addOnReady_leavesLock _ _ _ _).beside hlock store
  | remove name => exact (s.remove_leavesLock name).beside hlock store
  | pause name => exact (s.pause_leavesLock name).beside hlock store
  | resume name => exact (s.resume_leavesLock _ name).beside hlock store
  | setLock l => exact absurd rfl (hm l)
  | start =>
    have hstart := start_leaves hlock store clock
    exact ⟨hstart.calls, hstart.lock, hstart.store⟩
  | stop =>
    have hstop := stop_leaves hlock store clock.elapsed
    exact ⟨hstop.calls, hstop.lock, hstop.store⟩
  | notify => exact s.notify_leavesLock.beside hlock store
  | setRejecting rejecting => exact ⟨rfl, hlock, rfl⟩
  | fire serial => exact (s.fire_leavesLock _ serial).beside hlock store
  | callback c =>
    cases c with
    | job e => exact attempt_leaves hlock store clock.elapsed e
    | refresh =>
      have hacquire := acquire_leaves hlock store clock.elapsed
      exact ⟨hacquire.calls, hacquire.lock, hacquire.store⟩
    | host label => exact ⟨rfl, hlock, rfl⟩
  | readyCallback c =>
    cases c with
    | job e =>
      refine ⟨?_, hlock, rfl⟩
      show lockCalls (s.gate clock.elapsed e.name false).2 = []
      unfold gate
      cases s.lock <;> rfl
    | host label => exact ⟨rfl, hlock, rfl⟩

end Scheduler
end RecurringJobs
