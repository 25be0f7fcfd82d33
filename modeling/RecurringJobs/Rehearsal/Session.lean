import RecurringJobs.Rehearsal.Run

/-!
A rehearsal from its first step to its last, with the answer to each step and what happened
meanwhile.
-/

namespace RecurringJobs
namespace Rehearsal

/-- How a scheduler is set up. -/
structure Setting where
  clockwork : Bool := false
  readiness : Bool := false
  resolver : Option Container := none
  refreshSeconds : Nat := 60
  lock : Option Lock := none

/-- A step on one of the schedulers. -/
structure Turn where
  station : Nat
  step : Step

/-- What a step gives: its answer, and the time and the events unless there is no such
scheduler. -/
structure Result where
  answer : Json
  after : Option (Nat × List Event) := none

def Setting.station (s : Setting) : Station :=
  { scheduler :=
      { engine := if s.clockwork then .clockwork else .byHand
        lock := s.lock
        resolver := s.resolver
        ready := if s.readiness then some {} else none
        refreshSeconds := s.refreshSeconds }
    scripted :=
      match s.lock with
      | some (.scripted _) => true
      | _ => false }

namespace Selection

def admits (s : Selection) (e : Entry Nat) : Bool :=
  match s with
  | entry id => e.id = id
  | plan text => e.text = text
  | all => true

end Selection

namespace World

/-- Takes a call that touches the lock into the world. -/
def putLocked {α : Type} (w : World) (i : Nat) (s : Station) (o : LockOutcome Nat α) : World :=
  { w with store := o.store }.put i s o.scheduler o.effects

/-- Triggers the chosen entries one after the other and waits for each run, up to one that does not
come back. -/
def triggerAll (w : World) (i : Nat) : List (Entry Nat) → Bool × World
  | [] => (true, w)
  | e :: entries =>
    match w.runCallback (some World.pass) i e.callback with
    | (true, w) => w.triggerAll i entries
    | (false, w) => (false, w)

/-- Puts in a lock while that is allowed. -/
def setLock (w : World) (i : Nat) (s : Station) (lock : Lock) : Json × World :=
  let o := s.scheduler.setLock lock
  let scripted :=
    match o.result, lock with
    | .ok (), .scripted _ => true
    | _, _ => s.scripted
  (Answer.registry o.result, w.put i { s with scripted } o.scheduler o.effects)

/-- Says whether the scripted lock is held.  One that was replaced is no longer asked. -/
def setHeld (w : World) (i : Nat) (s : Station) (held : Bool) : World :=
  match s.scheduler.lock with
  | some (.scripted l) =>
    w.put i s { s.scheduler with lock := some (.scripted { l with held }) } []
  | _ => w

/-- Takes a step on station `i`, if the station has what it needs. -/
def take? (w : World) (i : Nat) (s : Station) : Step → Option (Json × World)
  | .hold name =>
    match s.scheduler.info name with
    | .ok v => some (.ofNat s.held.length, w.setStation i { s with held := s.held ++ [v] })
    | .error e => some (Answer.schedulerError e, w)
  | .held slot listing =>
    s.held[slot]?.map fun v =>
      match listing with
      | some (count, start) =>
        match w.listing v count start with
        | .answer next => (Answer.viewWith v next, w)
        | .crash _ => (Answer.panicked, w)
      | none => (Answer.view v, w)
  | .start =>
    let o := s.scheduler.start w.store w.clock
    some (Answer.lifecycle o.result, w.putLocked i s o)
  | .stop =>
    let o := s.scheduler.stop w.store w.clock.elapsed
    some (Answer.lifecycle o.result, w.putLocked i s o)
  | .setLock lock => some (w.setLock i s lock)
  | .tryLock =>
    s.scheduler.lock.map fun lock =>
      let o := s.scheduler.tryLock lock w.store w.clock.elapsed
      (Answer.lockAnswer o.result, w.putLocked i s o)
  | .tryUnlock =>
    s.scheduler.lock.map fun lock =>
      let o := s.scheduler.tryUnlock lock w.store w.clock.elapsed
      (Answer.lockAnswer o.result, w.putLocked i s o)
  | .hasLock =>
    s.scheduler.lock.map fun lock =>
      let held := lock.hasLock w.clock.elapsed
      (.bool held, w.effect i (.lock (.hasLock held)))
  | .setHeld held => if s.scripted then some (Answer.ok, w.setHeld i s held) else none
  | .acquire name holder ttl =>
    match w.store.acquire w.clock.elapsed name holder ttl with
    | .ok (expires, store) =>
      some (Answer.acquired w.clock.origin (.ok expires), { w with store })
    | .error e => some (Answer.acquired w.clock.origin (.error e), w)
  | .release name holder =>
    match w.store.release w.clock.elapsed name holder with
    | .ok store => some (Answer.released (.ok ()), { w with store })
    | .error e => some (Answer.released (.error e), w)
  | .holder name => some (Answer.holder (w.store.holder? w.clock.elapsed name), w)
  | .trigger selection =>
    match s.scheduler.engine.drive with
    | .byHand _ =>
      let entries := s.scheduler.engine.entries.filter selection.admits
      let (cameBack, w) := w.triggerAll i entries
      some (if cameBack then .ofNat entries.length else Answer.panicked, w)
    | .clockwork _ => none
  | .advance millis => some (Answer.ok, w.pass (millis * TimeUnit.nanosPerMilli))
  | step => (w.registryStep? i s step).map fun p => (p.1.json, p.2)

/-- Events by time, and by text where the time is the same. -/
def eventOrder (a b : Event) : Bool :=
  a.time < b.time || (a.time = b.time && a.text ≤ b.text)

/-- What happened since this was last asked: what the step did in its order, then what the tasks
did. -/
def collect (w : World) : List Event × World :=
  (w.foreground.reverse ++ w.background.mergeSort eventOrder,
    { w with foreground := [], background := [] })

def turn (w : World) (t : Turn) : Result × World :=
  match w.station? t.station with
  | none => ({ answer := Answer.badInput "i" }, w)
  | some s =>
    let (answer, w) :=
      (w.take? t.station s t.step).getD (Answer.badInput s!"step '{t.step.verb}'", w)
    let (events, w) := w.settle.collect
    ({ answer, after := some (w.time, events) }, w)

def turns (w : World) : List Turn → List Result
  | [] => []
  | t :: rest =>
    let (result, w) := w.turn t
    result :: w.turns rest

end World

/-- The world in which a rehearsal begins, on a host that has been up for so many milliseconds. -/
def opening (start : Instant) (uptime : Nat) (settings : List Setting) : World :=
  let reading := uptime * TimeUnit.nanosPerMilli
  { clock := { wall := start, elapsed := reading, origin := reading }
    stations := settings.map Setting.station }

/-- Rehearses the steps from an instant on. -/
def session (start : Instant) (uptime : Nat) (settings : List Setting) (steps : List Turn) :
    List Result :=
  (opening start uptime settings).turns steps

end Rehearsal
end RecurringJobs
