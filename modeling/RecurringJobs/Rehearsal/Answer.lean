import RecurringJobs.Json
import RecurringJobs.Scheduler.Lifecycle

/-!
The answers to the steps of a rehearsal, as JSON.  An error is its kind and its message.  The
fields of an object are in the order of their names.
-/

namespace RecurringJobs
namespace Answer

def ok : Json := .text "ok"

def fault (kind message : String) : Json :=
  .object [("error", .text kind), ("message", .text message)]

/-- What did not come back. -/
def panicked : Json := .object [("error", .text "panic")]

def badInput (message : String) : Json := fault "BadInput" message

def planError (e : PlanError) : Json := fault "InvalidPlan" e.message

def engineError (e : EngineError) : Json :=
  match e with
  | .invalid e => planError e
  | .rejected => fault "Internal" e.message

def lockError (e : LockError) : Json :=
  match e with
  | .held _ => fault "Held" e.message
  | .backend _ => fault "Backend" e.message

def lockAnswer : LockAnswer → Json
  | .ok => ok
  | .refused e => lockError e
  | .crashed => panicked

def jobError (e : JobError) : Json :=
  match e with
  | .failed _ => fault "Failed" e.message
  | .unresolved _ => fault "Unresolved" e.message
  | .other _ => fault "Other" e.message

def schedulerError (e : SchedulerError) : Json :=
  match e with
  | .alreadyExists _ _ => fault "AlreadyExists" e.message
  | .notFound _ => fault "NotFound" e.message
  | .registrationFailed _ source =>
    .object [("error", .text "RegistrationFailed"), ("message", .text e.message),
      ("source", .text source.message)]
  | .invalidState _ _ => fault "InvalidState" e.message
  | .noReadyHook _ => fault "NoReadyHook" e.message

def registry : Except SchedulerError Unit → Json
  | .ok () => ok
  | .error e => schedulerError e

def lifecycle : Except LifecycleFault Unit → Json
  | .ok () => ok
  | .error (.refused e) => schedulerError e
  | .error .crashed => panicked

/-- A job that must be added is added, or the reason is told with what did not come back. -/
def mustAdd (name : String) : Except SchedulerError Unit → Json
  | .ok () => ok
  | .error e => fault "panic" (Scheduler.mustAddMessage name e)

def viewFields (v : JobView) : List (String × Json) :=
  [("entry_id", .ofOption (v.entryId.map .ofNat)), ("name", .text v.name)]

def viewTail (v : JobView) : List (String × Json) :=
  [("paused", .bool v.paused), ("plan", .text v.plan)]

def view (v : JobView) : Json := .object (viewFields v ++ viewTail v)

/-- A view together with the triggers of its plan. -/
def viewWith (v : JobView) (next : Json) : Json :=
  .object (viewFields v ++ ("next", next) :: viewTail v)

def times (ts : List Instant) : Json := .object [("times", .texts (ts.map Instant.text))]

/-- What a step comes to: an answer, or a crash that leaves a text behind. -/
inductive Response where
  | answer (json : Json)
  | crash (text : String)

/-- A crash is answered without its text. -/
def Response.json : Response → Json
  | answer json => json
  | crash _ => panicked

/-- The text of a crash where an instant leaves the range. -/
def instantOverflow : String := "\u0060DateTime + TimeDelta\u0060 overflowed"

/-- The text of a crash where a list leaves all memory. -/
def memoryOverflow : String := "capacity overflow"

def listing : Except Plan.ListingError (List Instant) → Response
  | .ok ts => .answer (times ts)
  | .error (.invalid e) => .answer (planError e)
  | .error (.unlisted .tooLong) => .crash memoryOverflow
  | .error (.unlisted .beyondRange) => .crash instantOverflow

/-- The expiry of a lease is told in milliseconds after `origin`, as a word of 64 bits. -/
def acquired (origin : Nat) : Except AcquireFault Nat → Json
  | .ok expires =>
    .object [("expires", .ofNat ((expires - origin) / TimeUnit.nanosPerMilli % Nat.pow 2 64))]
  | .error (.held holder) => lockError (.held holder)
  | .error .beyondClock => panicked

def released : Except LockError Unit → Json
  | .ok () => ok
  | .error e => lockError e

def holder (name : Option String) : Json := .object [("holder", .ofOption (name.map .text))]

def dependency : Dependency → Json
  | .word32 n => .ofNat n
  | .word64 n => .ofNat n
  | .int64 n => .int n
  | .flag b => .bool b
  | .text s => .text s

def entries {η : Type} (es : List (Entry η)) : Json :=
  .list (es.map fun e => .list [.ofNat e.id, .text e.text])

/-- What an engine has registered; one driven by clockwork also tells whether it runs. -/
def engine {η : Type} (e : Engine η) (greatest : Nat) : Json :=
  match e.drive with
  | .byHand _ => entries e.entries
  | .clockwork c =>
    .object [("empty", .bool e.entries.isEmpty), ("len", .ofNat e.entries.length),
      ("live", entries (e.entries.filter fun entry => entry.id ≤ greatest)),
      ("running", .bool c.running)]

/-- The wall clock is read only for an entry that is there. -/
def entry {η : Type} (e : Engine η) (id : Nat) (clock : Clock) : Response :=
  let shown (next : Option Instant) : Response :=
    .answer (.object [("contains", .bool (e.entry? id).isSome),
      ("next", .ofOption (next.map fun t => .text t.text)),
      ("plan", .ofOption ((e.entry? id).map fun entry => .text entry.text))])
  if (e.entry? id).isSome && !clock.isReadable then .crash instantOverflow
  else
    match e.nextFire? id clock.wall with
    | .ok next => shown next
    | .error _ => .crash instantOverflow

def readiness {η : Type} (s : ReadySignal η) : Json :=
  .object [("pending", .ofNat s.pending.length), ("ready", .bool s.ready)]

end Answer
end RecurringJobs
