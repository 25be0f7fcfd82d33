import RecurringJobs.Lock.Basic
import RecurringJobs.Job
import RecurringJobs.Instant

/-!
Scripts for a rehearsal: what the handlers do on each run, and the steps that are taken from
outside.

A handler may take steps too, on the scheduler that runs it.
-/

namespace RecurringJobs
namespace Rehearsal

/-- How a job is added. -/
structure Manner where
  /-- Also run it once when the host is ready. -/
  onReady : Bool := false
  /-- A refusal is not expected. -/
  must : Bool := false
deriving Repr, DecidableEq

/-- From when triggers are listed. -/
inductive Moment where
  | now
  | given (t : Instant)
  /-- An instant that cannot be held. -/
  | unheld
deriving Repr, DecidableEq

/-- Which entries of an engine driven by hand are triggered. -/
inductive Selection where
  | entry (id : Nat)
  | plan (text : String)
  | all
deriving Repr, DecidableEq

mutual

/-- What is left to do in a run. -/
inductive Action where
  | finish
  | fail (reason : String)
  | other (text : String)
  | panic (payload : PanicPayload)
  | sleep (millis : Nat) (next : Action)
  | resolve (kind : Kind) (next : Action)
  | call (steps : List Step) (next : Action)

inductive Step where
  | add (manner : Manner) (name plan label : String) (withContext : Bool) (runs : List Action)
  | remove (name : String)
  | pause (name : String)
  | resume (name : String)
  | info (name : String)
  | report (name : String)
  | list
  | contains (name : String)
  | size
  | state
  | next (name : String) (count : Nat) (start : Moment)
  /-- Keeps the view of a job. -/
  | hold (name : String)
  /-- Shows a view that was kept, and its triggers if they are asked for. -/
  | held (slot : Nat) (listing : Option (Nat × Moment))
  | start
  | stop
  | setLock (lock : Lock)
  | tryLock
  | tryUnlock
  | hasLock
  | setHeld (held : Bool)
  | acquire (name holder : String) (ttl : Nat)
  | release (name holder : String)
  | holder (name : String)
  | trigger (selection : Selection)
  | setRejecting (rejecting : Bool)
  | register (plan label : String)
  | unregister (id : Nat)
  | startEngine (runtime : Bool)
  | stopEngine
  | engineState (greatest : Nat)
  | entryState (id : Nat)
  | notify (runtime : Bool)
  | readiness
  | onReady (label : String)
  | advance (millis : Nat)
  | unknown (verb : String)

end

instance : Inhabited Action := ⟨.finish⟩

instance : Inhabited Step := ⟨.list⟩

namespace Step

/-- The word for a step. -/
def verb : Step → String
  | add { onReady := false, must := false } _ _ _ _ _ => "add"
  | add { onReady := true, must := false } _ _ _ _ _ => "add_ready"
  | add { onReady := false, must := true } _ _ _ _ _ => "must_add"
  | add { onReady := true, must := true } _ _ _ _ _ => "must_add_ready"
  | remove _ => "remove"
  | pause _ => "pause"
  | resume _ => "continue"
  | info _ => "info"
  | report _ => "debug"
  | list => "list"
  | contains _ => "contains"
  | size => "len"
  | state => "state"
  | next _ _ _ => "next"
  | hold _ => "hold"
  | held _ _ => "held"
  | start => "start"
  | stop => "stop"
  | setLock _ => "set_lock"
  | tryLock => "try_lock"
  | tryUnlock => "try_unlock"
  | hasLock => "has_lock"
  | setHeld _ => "set_held"
  | acquire _ _ _ => "acquire"
  | release _ _ => "release"
  | holder _ => "holder"
  | trigger (.entry _) => "fire"
  | trigger (.plan _) => "fire_plan"
  | trigger .all => "fire_all"
  | setRejecting _ => "reject"
  | register _ _ => "eng_register"
  | unregister _ => "eng_unregister"
  | startEngine true => "eng_start"
  | startEngine false => "eng_start_outside"
  | stopEngine => "eng_stop"
  | engineState _ => "eng_state"
  | entryState _ => "eng_entry"
  | notify true => "notify"
  | notify false => "notify_outside"
  | readiness => "ready"
  | onReady _ => "on_ready"
  | advance _ => "advance"
  | unknown verb => verb

end Step

mutual

/-- The number of steps in an action, with those of the handlers that it brings in. -/
def Action.weight : Action → Nat
  | .sleep _ next => next.weight
  | .resolve _ next => next.weight
  | .call steps next => stepsWeight steps + next.weight
  | _ => 0

def Step.weight : Step → Nat
  | .add _ _ _ _ _ runs => 1 + runsWeight runs
  | _ => 1

def stepsWeight : List Step → Nat
  | [] => 0
  | step :: steps => step.weight + stepsWeight steps

def runsWeight : List Action → Nat
  | [] => 0
  | action :: actions => action.weight + runsWeight actions

end

end Rehearsal
end RecurringJobs
