import RecurringJobs.Effect
import RecurringJobs.Plan.Upcoming

/-!
The schedule engine: entries, and the timers that trigger them.

Entries are numbered from one and a number is never given twice.  An engine driven by clockwork
has one timer for each entry while it runs and none while it stands; an engine driven by hand has
no timers, and its entries are triggered by the host.
-/

namespace RecurringJobs

/-- A registered plan and what it triggers. -/
structure Entry (η : Type) where
  id : Nat
  text : String
  plan : Plan
  callback : Callback η
deriving Repr, DecidableEq

/-- A timer works for one entry until it is cancelled.  One whose plan has no more triggers waits
for nothing. -/
structure Timer (η : Type) where
  serial : Nat
  id : Nat
  plan : Plan
  callback : Callback η
  due : Option Instant
deriving Repr, DecidableEq

structure Clockwork (η : Type) where
  running : Bool := false
  everStarted : Bool := false
  /-- How many timers have ever been armed. -/
  armings : Nat := 0
  timers : List (Timer η) := []
deriving Repr, DecidableEq

/-- What triggers the entries. -/
inductive Drive (η : Type) where
  | clockwork (c : Clockwork η)
  | byHand (rejecting : Bool)
deriving Repr, DecidableEq

structure Engine (η : Type) where
  drive : Drive η
  /-- The entries in the order of their numbers. -/
  entries : List (Entry η) := []
  lastId : Nat := 0
deriving Repr, DecidableEq

variable {η : Type}

namespace Plan

/-- The next trigger, if there is one that can be computed. -/
def due? (plan : Plan) (now : Instant) : Option Instant :=
  match plan.next? now with
  | .ok due => due
  | .error _ => none

end Plan

namespace Timer

/-- What a timer does when it looks for its next trigger after `now`. -/
def effects (await : Instant → Effect η) (id : Nat) (plan : Plan) (now : Instant) :
    List (Effect η) :=
  match plan.next? now with
  | .ok (some due) => [await due]
  | .ok none => [.timerLog (.entryExhausted id)]
  | .error _ => []

end Timer

namespace Clockwork

/-- A new timer for an entry. -/
def arm (c : Clockwork η) (entry : Entry η) (now : Instant) : Clockwork η :=
  { c with
    armings := c.armings + 1
    timers := c.timers ++ [{ serial := c.armings, id := entry.id, plan := entry.plan,
                             callback := entry.callback, due := entry.plan.due? now }] }

/-- A new timer for each entry, in order. -/
def armAll (c : Clockwork η) (now : Instant) : List (Entry η) → Clockwork η × List (Effect η)
  | [] => (c, [])
  | entry :: entries =>
    let (armed, effects) := (c.arm entry now).armAll now entries
    (armed, Timer.effects (.arm c.armings) entry.id entry.plan now ++ effects)

end Clockwork

namespace Engine

def clockwork : Engine η := { drive := .clockwork {} }

def byHand : Engine η := { drive := .byHand false }

def entry? (e : Engine η) (id : Nat) : Option (Entry η) := e.entries.find? fun entry => entry.id = id

def isRunning (e : Engine η) : Bool :=
  match e.drive with
  | .clockwork c => c.running
  | .byHand _ => false

def timers (e : Engine η) : List (Timer η) :=
  match e.drive with
  | .clockwork c => c.timers
  | .byHand _ => []

/-- Registers a plan.  A plan that is refused takes no number. -/
def register (e : Engine η) (now : Instant) (text : String) (callback : Callback η) :
    Except EngineError Nat × Engine η × List (Effect η) :=
  let refused (error : EngineError) : Except EngineError Nat × Engine η × List (Effect η) :=
    (.error error, e, [.engine (.register text none)])
  match e.drive with
  | .byHand true => refused .rejected
  | _ =>
    match Plan.parse text with
    | .error error => refused (.invalid error)
    | .ok plan =>
      let id := e.lastId + 1
      let entry : Entry η := { id, text, plan, callback }
      let e := { e with entries := e.entries ++ [entry], lastId := id }
      match e.drive with
      | .byHand _ => (.ok id, e, [.engine (.register text (some id))])
      | .clockwork c =>
        let said : List (Effect η) :=
          [.log (.entryRegistered id text), .engine (.register text (some id))]
        if c.running then
          (.ok id, { e with drive := .clockwork (c.arm entry now) },
            Timer.effects (.arm c.armings) id plan now ++ said)
        else (.ok id, e, said)

/-- Removes an entry and cancels its timer.  A number that is not registered is ignored. -/
def unregister (e : Engine η) (id : Nat) : Engine η × List (Effect η) :=
  let call : Effect η := .engine (.unregister id)
  let kept := { e with entries := e.entries.filter fun entry => entry.id ≠ id }
  match e.drive with
  | .byHand _ => (kept, [call])
  | .clockwork c =>
    match e.entry? id with
    | some entry =>
      ({ kept with drive := .clockwork { c with timers := c.timers.filter fun t => t.id ≠ id } },
        [call, .log (.entryUnregistered id entry.text)])
    | none => (e, [call, .log (.entryUnknown id)])

/-- Begins to trigger the entries. -/
def start (e : Engine η) (now : Instant) : Engine η × List (Effect η) :=
  match e.drive with
  | .byHand _ => (e, [.engine .start])
  | .clockwork c =>
    if c.running then (e, [.engine .start, .log .engineAlreadyRunning])
    else
      let (armed, effects) := { c with running := true, everStarted := true }.armAll now e.entries
      let count := e.entries.length
      ({ e with drive := .clockwork armed },
        .engine .start :: effects
          ++ [.log (if c.everStarted then .engineRestarted count else .engineStarted count)])

/-- A start where nothing can run in the background is refused. -/
def startWithoutRuntime (e : Engine η) : Engine η × List (Effect η) :=
  match e.drive with
  | .byHand _ => (e, [.engine .start])
  | .clockwork _ => (e, [.engine .start, .log .engineWithoutRuntime])

/-- Cancels all timers.  The entries stay. -/
def stop (e : Engine η) : Engine η × List (Effect η) :=
  match e.drive with
  | .byHand _ => (e, [.engine .stop])
  | .clockwork c =>
    if c.running then
      ({ e with drive := .clockwork { c with running := false, timers := [] } },
        [.engine .stop, .log .engineStopped])
    else (e, [.engine .stop])

/-- The timer `serial` goes off: its callback is to be run, and it waits for the next trigger,
looked for from the one that was due or from now, whichever is later.  So a timer that goes off
early does not trigger twice for one instant.  Nothing happens for a timer that is gone. -/
def fire (e : Engine η) (serial : Nat) (now : Instant) :
    Option (Callback η × Engine η × List (Effect η)) :=
  match e.drive with
  | .byHand _ => none
  | .clockwork c =>
    match c.timers.find? fun t => t.serial = serial with
    | none => none
    | some timer =>
      match timer.due with
      | none => none
      | some due =>
        let base := due.later now
        let timers := c.timers.map fun t =>
          if t.serial = serial then { t with due := t.plan.due? base } else t
        some (timer.callback, { e with drive := .clockwork { c with timers } },
          Timer.effects (.wait serial) timer.id timer.plan base)

/-- The next trigger of an entry. -/
def nextFire? (e : Engine η) (id : Nat) (now : Instant) :
    Except Cron.BeyondRange (Option Instant) :=
  match e.entry? id with
  | some entry => entry.plan.next? now
  | none => .ok none

/-- Whether an engine driven by hand takes registrations. -/
def setRejecting (e : Engine η) (rejecting : Bool) : Engine η :=
  match e.drive with
  | .byHand _ => { e with drive := .byHand rejecting }
  | .clockwork _ => e

end Engine
end RecurringJobs
