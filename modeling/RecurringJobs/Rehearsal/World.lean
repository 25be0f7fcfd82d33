import RecurringJobs.Rehearsal.Script
import RecurringJobs.Scheduler.Run

/-!
The world of a rehearsal: schedulers with scripted handlers on one clock and one table of leases,
the tasks that run in the background, and the record of what happens.

Tasks run in the order in which they become ready.  Time moves only when something sleeps, by
whole milliseconds.
-/

namespace RecurringJobs
namespace Rehearsal

/-- Something that happened, at a time in milliseconds. -/
structure Event where
  time : Nat
  text : String
deriving Repr, DecidableEq

/-- A handler with its script.  The last run of the script is repeated. -/
structure Performer where
  label : String
  withContext : Bool
  runs : List Action
  /-- How often it has been called. -/
  calls : Nat := 0

namespace Performer

/-- What it does on the run with this number, counted from one. -/
def action (p : Performer) (number : Nat) : Action :=
  (p.runs[number - 1]?).getD (p.runs.getLastD .finish)

end Performer

/-- A scheduler in the rehearsal.  Its handlers are given by their numbers. -/
structure Station where
  scheduler : Scheduler Nat
  /-- The views that are kept. -/
  held : List JobView := []
  /-- Whether it has ever had a scripted lock. -/
  scripted : Bool := false

/-- A run of a handler that has begun. -/
structure Run where
  station : Nat
  job : String
  label : String
  number : Nat
  context : Option JobContext

inductive Task where
  | callback (station : Nat) (c : Callback Nat)
  | ready (station : Nat) (c : ReadyCallback Nat)
  /-- A timer that was armed begins to wait. -/
  | armed (station serial : Nat) (due : Instant)
  /-- A timer goes off. -/
  | timer (station serial : Nat)
  | resume (run : Run) (rest : Action)

/-- A task that waits for a reading of the steady clock. -/
structure Sleeper where
  wake : Nat
  task : Task

structure World where
  clock : Clock
  store : LeaseStore := {}
  stations : List Station := []
  performers : List Performer := []
  /-- The tasks that are ready to run. -/
  queue : List Task := []
  /-- The tasks that wait, in the order in which they began to. -/
  sleepers : List Sleeper := []
  /-- Whether a task is running, rather than the step itself. -/
  inBackground : Bool := false
  /-- What the step itself did, the latest first. -/
  foreground : List Event := []
  /-- What tasks did, the latest first. -/
  background : List Event := []

namespace World

/-- The time since the rehearsal began, in milliseconds. -/
def time (w : World) : Nat := w.clock.age / TimeUnit.nanosPerMilli

def sayBehind (w : World) (text : String) : World :=
  { w with background := { time := w.time, text } :: w.background }

def say (w : World) (text : String) : World :=
  if w.inBackground then w.sayBehind text
  else { w with foreground := { time := w.time, text } :: w.foreground }

def enqueue (w : World) (task : Task) : World := { w with queue := w.queue ++ [task] }

/-- A number of nanoseconds raised to whole milliseconds. -/
def wholeMillis (nanos : Nat) : Nat :=
  (nanos + (TimeUnit.nanosPerMilli - 1)) / TimeUnit.nanosPerMilli * TimeUnit.nanosPerMilli

/-- Lets a task wait for so many nanoseconds. -/
def sleepFor (w : World) (nanos : Nat) (task : Task) : World :=
  { w with sleepers := w.sleepers ++ [{ wake := wholeMillis (w.clock.elapsed + nanos), task }] }

/-- Moves the clock, and makes the tasks ready that have waited for that. -/
def reach (w : World) (elapsed : Nat) : World :=
  { w with
    clock := w.clock.advance (elapsed - w.clock.elapsed)
    queue := w.queue ++ (w.sleepers.filter fun s => s.wake ≤ elapsed).map Sleeper.task
    sleepers := w.sleepers.filter fun s => elapsed < s.wake }

/-- When the next task wakes up. -/
def nextWake? (w : World) : Option Nat := (w.sleepers.map Sleeper.wake).min?

/-! ## Effects -/

def engineText : EngineCall → String
  | .register plan (some id) => s!"engine.register {plan} -> {id}"
  | .register plan none => s!"engine.register {plan} -> error"
  | .unregister id => s!"engine.unregister {id}"
  | .start => "engine.start"
  | .stop => "engine.stop"

def answerText : Option LockError → String
  | none => "ok"
  | some e => e.message

def lockText : LockCall → String
  | .tryLock e => s!"lock.try_lock -> {answerText e}"
  | .tryUnlock e => s!"lock.try_unlock -> {answerText e}"
  | .hasLock held => s!"lock.has_lock -> {held}"

/-- Lets a timer wait for an instant. -/
def awaitInstant (w : World) (i serial : Nat) (due : Instant) : World :=
  w.sleepFor (w.clock.wall.nanosTo due) (.timer i serial)

/-- Carries out an effect of station `i`.  A timer that cannot read the clock is gone without a
word. -/
def effect (i : Nat) (w : World) : Effect Nat → World
  | .log e => w.say s!"log {e.line.plain}"
  | .engine c => w.say s!"i{i} {engineText c}"
  | .lock c => w.say s!"i{i} {lockText c}"
  | .arm serial due => if w.clock.isReadable then w.enqueue (.armed i serial due) else w
  | .wait serial due => w.awaitInstant i serial due
  | .timerLog e => if w.clock.isReadable then w.sayBehind s!"log {e.line.plain}" else w
  | .spawn c => w.enqueue (.ready i c)

def effects (w : World) (i : Nat) (es : List (Effect Nat)) : World := es.foldl (effect i) w

def station? (w : World) (i : Nat) : Option Station := w.stations[i]?

def setStation (w : World) (i : Nat) (s : Station) : World :=
  { w with stations := w.stations.set i s }

/-- Puts the scheduler of a station that a call has left, and carries out its effects. -/
def put (w : World) (i : Nat) (s : Station) (scheduler : Scheduler Nat)
    (es : List (Effect Nat)) : World :=
  (w.setStation i { s with scheduler }).effects i es

/-- Takes a handler in, and gives its number. -/
def enroll (w : World) (p : Performer) : Nat × World :=
  (w.performers.length, { w with performers := w.performers ++ [p] })

end World
end Rehearsal
end RecurringJobs
