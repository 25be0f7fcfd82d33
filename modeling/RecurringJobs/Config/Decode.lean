import RecurringJobs.Config.Schema
import RecurringJobs.Toml.Document

/-!
From a TOML document to a configuration.

A section may be a table or an array that gives its fields in order.  Fields that are not known
are ignored, fields that are left out have their defaults, and a field of the wrong type makes the
whole configuration unreadable.
-/

namespace RecurringJobs
namespace Config

open Toml (Value Scalar)

/-- The fields of a section: looked up by name in a table, by place in an array. -/
inductive Section where
  | named (fields : List (String × Value))
  | placed (items : List Value)

namespace Section

/-- A time is a section without any field that is known. -/
def ofValue? : Value → Option Section
  | .table fields => some (named fields)
  | .array items => some (placed items)
  | .scalar .time => some (named [])
  | _ => none

def field? (s : Section) (name : String) (place : Nat) : Option Value :=
  match s with
  | named fields => (fields.find? fun p => p.1 = name).map Prod.snd
  | placed items => items[place]?

end Section

def text? : Value → Option String
  | .text s => some s
  | _ => none

def flag? : Value → Option Bool
  | .scalar (.flag b) => some b
  | _ => none

def natural? : Value → Option Nat
  | .scalar (.int n) => if 0 ≤ n then some n.toNat else none
  | _ => none

/-- A field that may be left out. -/
def optional? {α : Type} (read? : Value → Option α) (dflt : α) : Option Value → Option α
  | none => some dflt
  | some v => read? v

/-- A section that may be left out. -/
def sectionOr {α : Type} (read? : Section → Option α) (dflt : α) : Option Value → Option α
  | none => some dflt
  | some v => (Section.ofValue? v).bind read?

def readScheduler? (s : Section) : Option SchedulerConfig := do
  let refreshSeconds ← optional? natural? 60 (s.field? "lock_refresh_secs" 0)
  return { refreshSeconds }

def readLogging? (s : Section) : Option LoggingConfig := do
  let level ← optional? text? "info" (s.field? "level" 0)
  let dir ← optional? (fun v => (text? v).map some) none (s.field? "dir" 1)
  return { level, dir }

def readLease? (s : Section) : Option LeaseConfig := do
  let enabled ← optional? flag? false (s.field? "enabled" 0)
  let ttlSeconds ← optional? natural? 90 (s.field? "ttl_secs" 1)
  let name ← optional? text? "jobhands" (s.field? "name" 2)
  return { enabled, ttlSeconds, name }

def readJob? (s : Section) : Option JobConfig := do
  let name ← (s.field? "name" 0).bind text?
  let plan ← (s.field? "plan" 1).bind text?
  let message ← optional? (fun v => (text? v).map some) none (s.field? "message" 2)
  let paused ← optional? flag? false (s.field? "paused" 3)
  let runOnReady ← optional? flag? false (s.field? "run_on_ready" 4)
  return { name, plan, message, paused, runOnReady }

def readJobs? : Value → Option (List JobConfig)
  | .array items => items.mapM fun v => (Section.ofValue? v).bind readJob?
  | _ => none

/-- The configuration that the fields of a document describe. -/
def ofFields? (fields : List (String × Value)) : Option Config := do
  let root := Section.named fields
  let scheduler ← sectionOr readScheduler? {} (root.field? "scheduler" 0)
  let logging ← sectionOr readLogging? {} (root.field? "logging" 1)
  let lease ← sectionOr readLease? {} (root.field? "lease" 2)
  let jobs ← optional? readJobs? [] (root.field? "jobs" 3)
  return { scheduler, logging, lease, jobs }

end Config
end RecurringJobs
