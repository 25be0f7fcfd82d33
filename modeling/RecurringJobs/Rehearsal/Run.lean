import RecurringJobs.Rehearsal.Registry

/-!
How handlers are run, tasks are worked off, and time passes.

A run in the background gives way while it sleeps.  A run that a step waits for lets the time pass
instead, and everything else goes on meanwhile.
-/

namespace RecurringJobs
namespace Rehearsal

/-- The handler and the number of its call, as events tell it. -/
def Run.tag (r : Run) : String := s!"{r.label}#{r.number}"

/-- The kinds of values, as scripts name them. -/
def kindText : Kind → String
  | .word32 => "u32"
  | .word64 => "u64"
  | .int64 => "i64"
  | .flag => "bool"
  | .text => "string"

namespace World

/-- A run takes steps on its own station, up to one that crashes; then the text of the crash is
given.  A step that is not for handlers has no answer. -/
def callSteps (w : World) (r : Run) : List Step → Option String × World
  | [] => (none, w)
  | step :: steps =>
    let (response, w) :=
      match w.station? r.station with
      | some s => (w.registryStep? r.station s step).getD (.answer .null, w)
      | none => (.answer .null, w)
    match response with
    | .crash text => (some text, w)
    | .answer json =>
      (w.say s!"i{r.station} call {r.tag} {step.verb} -> {json.render}").callSteps r steps

/-- A run ends. -/
def conclude (w : World) (r : Run) (e : RunEnd) : World :=
  let w :=
    match e with
    | .completed => w.say s!"i{r.station} end {r.tag}"
    | _ => w
  w.effects r.station (e.effects r.job)

/-- Goes on with a run.  Where time can pass here, `pass` says how; otherwise the run gives way
when it sleeps.  To sleep for no time is nothing. -/
def perform (pass : Option (Nat → World → World)) (r : Run) : Action → World → World
  | .finish, w => w.conclude r .completed
  | .fail reason, w => w.conclude r (.failed (.failed reason))
  | .other text, w => w.conclude r (.failed (.other text))
  | .panic payload, w => w.conclude r (.panicked payload)
  | .sleep 0 next, w => perform pass r next w
  | .sleep (millis + 1) next, w =>
    let nanos := (millis + 1) * TimeUnit.nanosPerMilli
    match pass with
    | some pass => perform pass r next (pass nanos w)
    | none => w.sleepFor nanos (.resume r next)
  | .resolve kind next, w =>
    match r.context.bind (·.resolve? kind) with
    | some d =>
      let value := (Answer.dependency d).render
      perform pass r next (w.say s!"i{r.station} resolved {r.tag} {kindText kind}={value}")
    | none => w.conclude r (.failed (.unresolved kind))
  | .call steps next, w =>
    match w.callSteps r steps with
    | (none, w) => perform pass r next w
    | (some text, w) => w.conclude r (.panicked (.text text))

/-- Runs a job: the lock is asked if the run is gated, and the handler is called if it may be. -/
def runJob (pass : Option (Nat → World → World)) (i : Nat) (e : Execution Nat) (gated : Bool)
    (w : World) : World :=
  match w.station? i, w.performers[e.handler]? with
  | some s, some p =>
    let (go, es) := s.scheduler.gate w.clock.elapsed e.name gated
    let w := w.effects i es
    if go then
      let number := p.calls + 1
      let w := { w with performers := w.performers.set e.handler { p with calls := number } }
      let context := if p.withContext then some (s.scheduler.context e.name) else none
      let r : Run := { station := i, job := e.name, label := p.label, number, context }
      let told :=
        match context with
        | some c => s!" ctx={c.jobName}"
        | none => ""
      perform pass r (p.action number) (w.say s!"i{i} run {r.tag}{told}")
    else w
  | _, _ => w

/-- Runs what an entry of the engine triggers, and tells whether it came back.  The run of a job
does so in any case. -/
def runCallback (pass : Option (Nat → World → World)) (i : Nat) (w : World) :
    Callback Nat → Bool × World
  | .job e => (true, w.runJob pass i e true)
  | .refresh =>
    match w.station? i with
    | some s =>
      let o := s.scheduler.acquire w.store w.clock.elapsed
      (o.result ≠ .crashed, { w with store := o.store }.put i s o.scheduler o.effects)
    | none => (true, w)
  | .host label => (true, w.say s!"i{i} callback {label}")

/-- Runs a task. -/
def runTask (w : World) : Task → World
  | .callback i c => (w.runCallback none i c).2
  | .ready i (.job e) => w.runJob none i e false
  | .ready i (.host label) => w.say s!"i{i} ready {label}"
  | .resume r rest => perform none r rest w
  | .armed i serial due => w.awaitInstant i serial due
  | .timer i serial =>
    match w.station? i with
    | some s =>
      match s.scheduler.engine.fire serial w.clock.wall with
      | some (callback, engine, es) =>
        (w.put i s { s.scheduler with engine } es).enqueue (.callback i callback)
      | none => w
    | none => w

/-- Runs tasks in order until none is ready. -/
def drain : Nat → World → World
  | 0, w => w
  | fuel + 1, w =>
    match w.queue with
    | [] => w
    | task :: queue => drain fuel ({ w with queue }.runTask task)

/-- How many tasks can run in the present instant, at most.  A task that is ready or waits for
readiness may lead to all steps of all scripts, and a step may arm all timers, also those of jobs
that were added by other steps. -/
def stir (w : World) : Nat :=
  let sum (ns : List Nat) : Nat := ns.foldr (· + ·) 0
  let pending := sum (w.stations.map fun s => (s.scheduler.ready.map (·.pending.length)).getD 0)
  let entries := sum (w.stations.map fun s => s.scheduler.engine.entries.length)
  let tasks := w.queue.length + pending
  let steps := tasks * sum (w.performers.map fun p => runsWeight p.runs)
  2 * tasks + steps * (2 + entries + steps)

/-- Lets everything happen that can happen without time passing. -/
def settle (w : World) : World :=
  { { w with inBackground := true }.drain w.stir with inBackground := w.inBackground }

/-- Goes from one moment when a task wakes up to the next, up to the given reading. -/
def passUntil (target : Nat) : Nat → World → World
  | 0, w => w
  | fuel + 1, w =>
    let w := w.settle
    match w.nextWake? with
    | some wake => if wake < target then passUntil target fuel (w.reach wake) else w
    | none => w

/-- Lets time pass.  Tasks that wake up at its end are still to run. -/
def pass (nanos : Nat) (w : World) : World :=
  let target := w.clock.elapsed + nanos
  (passUntil target (nanos / TimeUnit.nanosPerMilli + 1) w).reach target

end World
end Rehearsal
end RecurringJobs
