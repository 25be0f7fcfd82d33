import RecurringJobs.Engine.Basic
import RecurringJobs.Signal.Ready

/-!
The scheduler: a registry of named jobs on top of an engine.

A record is kept for every job, active or paused.  An active job has an entry in the engine; a
paused one has none, but keeps its name, its plan and its handler.
-/

namespace RecurringJobs

inductive Lifecycle where
  | created
  | started
  | stopped
deriving Repr, DecidableEq

def Lifecycle.label : Lifecycle → String
  | created => "Created"
  | started => "Started"
  | stopped => "Stopped"

/-- The operations that depend on the state of the life cycle. -/
inductive Operation where
  | start
  | stop
  | setLock
deriving Repr, DecidableEq

def Operation.label : Operation → String
  | start => "start"
  | stop => "stop"
  | setLock => "distribute_lock_manager"

inductive SchedulerError where
  | alreadyExists (name plan : String)
  | notFound (name : String)
  | registrationFailed (name : String) (source : EngineError)
  | invalidState (operation : Operation) (state : Lifecycle)
  | noReadyHook (name : String)
deriving Repr, DecidableEq

namespace SchedulerError

def message : SchedulerError → String
  | alreadyExists name plan => s!"Job '{name}' already exists with plan '{plan}'"
  | notFound name => s!"Job not found: {name}"
  | registrationFailed name _ => s!"Failed to register job '{name}'"
  | invalidState operation state =>
    s!"Invalid scheduler state for {operation.label}: {state.label}"
  | noReadyHook name => s!"No readiness hook configured for job '{name}'"

/-- The error behind an error. -/
def source? : SchedulerError → Option EngineError
  | registrationFailed _ source => some source
  | _ => none

/-- The messages of an error and of those behind it. -/
def chain (e : SchedulerError) : String :=
  match e.source? with
  | some source => e.message ++ ": " ++ source.message
  | none => e.message

end SchedulerError

/-- A job in the registry. -/
structure JobRecord (η : Type) where
  /-- The plan as it was given. -/
  plan : String
  entryId : Option Nat
  execution : Execution η
  paused : Bool
deriving Repr, DecidableEq

/-- A snapshot of a job.  Later changes do not show in it. -/
structure JobView where
  name : String
  plan : String
  entryId : Option Nat
  paused : Bool
deriving Repr, DecidableEq

namespace JobView

def ofRecord {η : Type} (name : String) (r : JobRecord η) : JobView :=
  { name, plan := r.plan, entryId := r.entryId, paused := r.paused }

/-- The next triggers of the job's plan after an instant, whether or not it is paused. -/
def nextFrom (v : JobView) (start : Instant) (count : Nat) :
    Except Plan.ListingError (List Instant) :=
  Plan.parseNext v.plan start count

/-- The view as it is shown in reports. -/
def report (v : JobView) : String :=
  let entry :=
    match v.entryId with
    | some id => s!"Some(EntryId({id}))"
    | none => "None"
  "JobView \x7b name: " ++ Text.quoted v.name ++ ", plan: " ++ Text.quoted v.plan
    ++ ", entry_id: " ++ entry ++ ", paused: " ++ toString v.paused ++ " \x7d"

end JobView

structure Scheduler (η : Type) where
  engine : Engine η
  jobs : Std.TreeMap String (JobRecord η) := ∅
  lock : Option Lock := none
  resolver : Option Container := none
  ready : Option (ReadySignal η) := none
  /-- The seconds between two tries to renew the lock. -/
  refreshSeconds : Nat := 60
  state : Lifecycle := .created
  refreshEntry : Option Nat := none

/-- What a call gives back, the scheduler it leaves, and its effects. -/
structure Outcome (η α : Type) where
  result : α
  scheduler : Scheduler η
  effects : List (Effect η) := []

variable {η : Type}

namespace Scheduler

/-! ## Adding jobs -/

/-- Adds a job.  It is recorded when its name is free, even of paused jobs, and the engine takes
its plan. -/
def add (s : Scheduler η) (now : Instant) (name plan : String) (handler : η) :
    Outcome η (Except SchedulerError Unit) :=
  match s.jobs[name]? with
  | some existing => { result := .error (.alreadyExists name existing.plan), scheduler := s }
  | none =>
    let execution : Execution η := { name, handler }
    match s.engine.register now plan (.job execution) with
    | (.error source, _, effects) =>
      { result := .error (.registrationFailed name source), scheduler := s, effects }
    | (.ok id, engine, effects) =>
      let record : JobRecord η := { plan, entryId := some id, execution, paused := false }
      { result := .ok ()
        scheduler := { s with engine, jobs := s.jobs.insert name record }
        effects := effects ++ [.log (.jobAdded name plan id)] }

/-- Adds a job that is also run once when the host is ready.  That there is a readiness signal is
looked at first. -/
def addOnReady (s : Scheduler η) (now : Instant) (name plan : String) (handler : η) :
    Outcome η (Except SchedulerError Unit) :=
  match s.ready with
  | none => { result := .error (.noReadyHook name), scheduler := s }
  | some signal =>
    let added := s.add now name plan handler
    match added.result with
    | .error _ => added
    | .ok () =>
      let (signal, effects) := signal.onReady true (.job { name, handler })
      { added with
        scheduler := { added.scheduler with ready := some signal }
        effects := added.effects ++ effects ++ [.log (.jobQueued name)] }

/-- What is said when a job that must be added is refused. -/
def mustAddMessage (name : String) (e : SchedulerError) : String :=
  s!"failed to add job '{name}': {e.chain}"

/-! ## Changing jobs -/

/-- Deletes a job.  A paused one has no entry to remove. -/
def remove (s : Scheduler η) (name : String) : Outcome η (Except SchedulerError Unit) :=
  match s.jobs[name]? with
  | none => { result := .error (.notFound name), scheduler := s }
  | some record =>
    let (engine, effects) :=
      match record.paused, record.entryId with
      | false, some id => s.engine.unregister id
      | _, _ => (s.engine, [])
    { result := .ok ()
      scheduler := { s with engine, jobs := s.jobs.erase name }
      effects := effects ++ [.log (.jobRemoved name record.paused)] }

/-- Stops triggering a job and keeps it.  Nothing happens to a paused one. -/
def pause (s : Scheduler η) (name : String) : Outcome η (Except SchedulerError Unit) :=
  match s.jobs[name]? with
  | none => { result := .error (.notFound name), scheduler := s }
  | some record =>
    if record.paused then { result := .ok (), scheduler := s }
    else
      let (engine, effects) :=
        match record.entryId with
        | some id => s.engine.unregister id
        | none => (s.engine, [])
      let record := { record with entryId := none, paused := true }
      { result := .ok ()
        scheduler := { s with engine, jobs := s.jobs.insert name record }
        effects := effects ++ [.log (.jobPaused name)] }

/-- Registers a paused job again, with the plan and handler that were kept.  Nothing happens to an
active one, and one that the engine refuses stays paused. -/
def resume (s : Scheduler η) (now : Instant) (name : String) :
    Outcome η (Except SchedulerError Unit) :=
  match s.jobs[name]? with
  | none => { result := .error (.notFound name), scheduler := s }
  | some record =>
    if !record.paused then { result := .ok (), scheduler := s }
    else
      match s.engine.register now record.plan (.job record.execution) with
      | (.error source, _, effects) =>
        { result := .error (.registrationFailed name source), scheduler := s, effects }
      | (.ok id, engine, effects) =>
        let record := { record with entryId := some id, paused := false }
        { result := .ok ()
          scheduler := { s with engine, jobs := s.jobs.insert name record }
          effects := effects ++ [.log (.jobContinued name id)] }

/-! ## Looking at jobs -/

def info (s : Scheduler η) (name : String) : Except SchedulerError JobView :=
  match s.jobs[name]? with
  | some record => .ok (.ofRecord name record)
  | none => .error (.notFound name)

/-- All jobs, ascending by name. -/
def list (s : Scheduler η) : List JobView := s.jobs.toList.map fun p => .ofRecord p.1 p.2

def contains (s : Scheduler η) (name : String) : Bool := s.jobs.contains name

def size (s : Scheduler η) : Nat := s.jobs.size

def isEmpty (s : Scheduler η) : Bool := s.jobs.isEmpty

end Scheduler
end RecurringJobs
