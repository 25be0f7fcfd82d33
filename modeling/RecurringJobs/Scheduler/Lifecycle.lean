import RecurringJobs.Scheduler.Basic
import RecurringJobs.Clock

/-!
Starting and stopping a scheduler, and the lock that it renews in between.

The lock is tried once at the start and then by an entry of the engine.  Neither has to succeed:
while the lock is not held, gated runs are skipped.
-/

namespace RecurringJobs

/-- What a call that touches the lock leaves: a scheduler and the store of leases. -/
structure LockOutcome (η α : Type) where
  result : α
  scheduler : Scheduler η
  store : LeaseStore
  effects : List (Effect η) := []

/-- Why a start or stop did not succeed. -/
inductive LifecycleFault where
  | refused (error : SchedulerError)
  /-- The lock did not come back, and the call ended there. -/
  | crashed
deriving Repr, DecidableEq

variable {η : Type}

namespace Scheduler

/-- The plan of the entry that renews the lock.  It is never due more often than once a second. -/
def refreshPlan (s : Scheduler η) : String := s!"@every {max 1 s.refreshSeconds}s"

/-- The lock may be set until the scheduler is started. -/
def setLock (s : Scheduler η) (lock : Lock) : Outcome η (Except SchedulerError Unit) :=
  if s.state = .created then { result := .ok (), scheduler := { s with lock := some lock } }
  else { result := .error (.invalidState .setLock s.state), scheduler := s }

/-- What a lease says when it is taken. -/
def leaseLog (lock : Lock) (answer : LockAnswer) : List (Effect η) :=
  match lock, answer with
  | .lease l, .ok => [.log (.leaseAcquired l.name l.holder)]
  | _, _ => []

/-- Calls the lock once to take or renew it. -/
def tryLock (s : Scheduler η) (lock : Lock) (store : LeaseStore) (now : Nat) :
    LockOutcome η LockAnswer :=
  let (answer, lock, store) := lock.tryLock store now
  let call : List (Effect η) :=
    match answer with
    | .ok => [.lock (.tryLock none)]
    | .refused e => [.lock (.tryLock (some e))]
    | .crashed => []
  { result := answer, scheduler := { s with lock := some lock }, store
    effects := leaseLog lock answer ++ call }

/-- Calls the lock once to give it back. -/
def tryUnlock (s : Scheduler η) (lock : Lock) (store : LeaseStore) (now : Nat) :
    LockOutcome η LockAnswer :=
  let (answer, lock, store) := lock.tryUnlock store now
  let call : List (Effect η) :=
    match answer with
    | .ok => [.lock (.tryUnlock none)]
    | .refused e => [.lock (.tryUnlock (some e))]
    | .crashed => []
  { result := answer, scheduler := { s with lock := some lock }, store, effects := call }

/-- Tries to take or renew the lock and logs the answer.  This is what the refresh entry does. -/
def acquire (s : Scheduler η) (store : LeaseStore) (now : Nat) : LockOutcome η LockAnswer :=
  match s.lock with
  | none => { result := .ok, scheduler := s, store }
  | some lock =>
    let tried := s.tryLock lock store now
    let said : List (Effect η) :=
      match tried.result with
      | .ok => [.log .lockAcquired]
      | .refused e => [.log (.lockNotAcquired e)]
      | .crashed => []
    { tried with effects := tried.effects ++ said }

/-- Registers the entry that renews the lock. -/
def installRefresh (s : Scheduler η) (now : Instant) : Scheduler η × List (Effect η) :=
  let plan := s.refreshPlan
  match s.engine.register now plan .refresh with
  | (.ok id, engine, effects) =>
    ({ s with engine, refreshEntry := some id },
      effects ++ [.log (.refreshInstalled plan id)])
  | (.error e, engine, effects) =>
    ({ s with engine }, effects ++ [.log (.refreshNotInstalled plan e)])

/-- Starts a scheduler that has not been started before. -/
def start (s : Scheduler η) (store : LeaseStore) (clock : Clock) :
    LockOutcome η (Except LifecycleFault Unit) :=
  if s.state ≠ .created then
    { result := .error (.refused (.invalidState .start s.state)), scheduler := s, store }
  else
    let s := { s with state := .started }
    let tried := s.acquire store clock.elapsed
    if tried.result = .crashed then
      { tried with result := .error .crashed }
    else
      let (s, refresh) :=
        match tried.scheduler.lock with
        | some _ => tried.scheduler.installRefresh clock.wall
        | none => (tried.scheduler, [])
      let (engine, started) := s.engine.start clock.wall
      { result := .ok ()
        scheduler := { s with engine }
        store := tried.store
        effects := tried.effects ++ refresh ++ started ++ [.log (.schedulerStarted s.size)] }

/-- What is logged at the end of a stop, unless the lock did not come back. -/
def stopLogs : LockAnswer → List (Effect η)
  | .ok => [.log .schedulerStopped]
  | .refused e => [.log (.lockNotReleased e), .log .schedulerStopped]
  | .crashed => []

/-- Stops a scheduler that has been started, and gives the lock back. -/
def stop (s : Scheduler η) (store : LeaseStore) (now : Nat) :
    LockOutcome η (Except LifecycleFault Unit) :=
  if s.state ≠ .started then
    { result := .error (.refused (.invalidState .stop s.state)), scheduler := s, store }
  else
    let (engine, stopped) := s.engine.stop
    let (engine, removed) :=
      match s.refreshEntry with
      | some id => engine.unregister id
      | none => (engine, [])
    let s := { s with state := .stopped, engine, refreshEntry := none }
    let released : LockOutcome η LockAnswer :=
      match s.lock with
      | some lock => s.tryUnlock lock store now
      | none => { result := .ok, scheduler := s, store }
    { result := if released.result = .crashed then .error .crashed else .ok ()
      scheduler := released.scheduler
      store := released.store
      effects := stopped ++ removed ++ released.effects ++ stopLogs released.result }

end Scheduler
end RecurringJobs
