import RecurringJobs.Command.Report
import RecurringJobs.Config.Folder
import RecurringJobs.Log.Filter
import RecurringJobs.Scheduler.Run

/-!
The long-running program: a scheduler for the configured jobs, whose handlers log a message.

Every call gives the lines that it logs, in order.  Time comes from outside as a clock.
-/

namespace RecurringJobs

/-- A scheduler whose handlers are the messages that they log. -/
structure Daemon where
  scheduler : Scheduler String
  store : LeaseStore := {}
  /-- How often any handler has been run. -/
  runs : Nat := 0

/-- Why the daemon does not serve. -/
inductive LaunchFault where
  | logFolder (dir : String) (fault : FolderFault)
  | invalid (errors : Nat)
  | registration (job : String) (error : SchedulerError)
  | refused (error : SchedulerError)
  | crashed
deriving Repr, DecidableEq

/-- The failure that is told; a crash is not. -/
def LaunchFault.failure? : LaunchFault → Option Failure
  | logFolder dir fault =>
    some { message := s!"creating log directory {dir}", causes := [fault.message] }
  | invalid errors => some { message := s!"invalid configuration ({errors} errors)" }
  | registration job e =>
    some { message := s!"registering job '{job}'"
           causes := e.message :: (e.source?.map (·.message)).toList }
  | refused e => some { message := e.message, causes := (e.source?.map (·.message)).toList }
  | crashed => none

namespace Daemon

def lineOf (level : Level) (message : String) (fields : List LogField := []) : LogLine :=
  { level, source := "jobhands::server", message, fields }

/-- What an effect logs. -/
def effectLines {η : Type} : Effect η → List LogLine
  | .log e => [e.line]
  | .timerLog e => [e.line]
  | _ => []

def linesOf {η : Type} (es : List (Effect η)) : List LogLine := es.flatMap effectLines

/-- The variable that says what is logged. -/
def filterVariable : String := "RUST_LOG"

/-- The filter that the environment names, or else the level of the configuration, with what is
said about its faults. -/
def filterFor (env : Environment) (c : LoggingConfig) : LogFilter × List String :=
  match (env.text? filterVariable).bind LogFilter.parse? with
  | some filter => (filter, [])
  | none => (LogFilter.lenient c.level, LogFilter.complaints c.level)

/-! ## Jobs of a configuration -/

/-- What a job logs when nothing else is configured. -/
def messageOf (job : JobConfig) : String := job.message.getD s!"{job.name} triggered"

def configuredLine (job : JobConfig) : LogLine :=
  lineOf .info "Job configured"
    [{ name := "job", value := job.name }, { name := "plan", value := job.plan },
     { name := "paused", value := toString job.paused }]

/-- Adds a configured job, and pauses it if that is configured. -/
def registerJob (s : Scheduler String) (now : Instant) (job : JobConfig) :
    Except LaunchFault (Scheduler String) × List LogLine :=
  let added :=
    if job.runOnReady then s.addOnReady now job.name job.plan (messageOf job)
    else s.add now job.name job.plan (messageOf job)
  match added.result with
  | .error e => (.error (.registration job.name e), linesOf added.effects)
  | .ok () =>
    if job.paused then
      let paused := added.scheduler.pause job.name
      let lines := linesOf (added.effects ++ paused.effects)
      match paused.result with
      | .error e => (.error (.refused e), lines)
      | .ok () => (.ok paused.scheduler, lines ++ [configuredLine job])
    else (.ok added.scheduler, linesOf added.effects ++ [configuredLine job])

/-- Adds the configured jobs in order, up to the first that is refused. -/
def registerJobs (s : Scheduler String) (now : Instant) :
    List JobConfig → Except LaunchFault (Scheduler String) × List LogLine
  | [] => (.ok s, [])
  | job :: jobs =>
    match registerJob s now job with
    | (.error e, lines) => (.error e, lines)
    | (.ok s, lines) =>
      let (result, more) := registerJobs s now jobs
      (result, lines ++ more)

/-- The lock of a configuration, for a holder. -/
def lockOf (c : LeaseConfig) (holder : String) : Option Lock :=
  if c.enabled then
    some (.lease { name := c.name, holder, ttl := c.ttlSeconds * TimeUnit.nanosPerSecond })
  else none

/-- The scheduler for a configuration, without its jobs. -/
def freshScheduler (c : Config) (holder : String) : Scheduler String :=
  { engine := .clockwork
    lock := lockOf c.lease holder
    resolver := some {}
    ready := some {}
    refreshSeconds := c.scheduler.refreshSeconds }

/-! ## Runs -/

/-- Runs a job: asks the lock if the run is gated, and logs the message of the job. -/
def runJob (d : Daemon) (clock : Clock) (e : Execution String) (gated : Bool) :
    Daemon × List LogLine :=
  let (go, asked) := d.scheduler.gate clock.elapsed e.name gated
  if go then
    let runs := d.runs + 1
    let message := lineOf .info e.handler
      [{ name := "job", value := e.name, isText := true },
       { name := "total_runs", value := toString runs }]
    ({ d with runs },
      linesOf asked ++ message :: linesOf (η := String) (RunEnd.effects e.name .completed))
  else (d, linesOf asked)

/-- Runs what an entry of the engine triggers. -/
def runCallback (d : Daemon) (clock : Clock) : Callback String → Daemon × List LogLine
  | .job e => d.runJob clock e true
  | .refresh =>
    let o := d.scheduler.acquire d.store clock.elapsed
    ({ d with scheduler := o.scheduler, store := o.store }, linesOf o.effects)
  | .host _ => (d, [])

/-- Runs what was released when the host became ready. -/
def runReleased (d : Daemon) (clock : Clock) : List (Effect String) → Daemon × List LogLine
  | [] => (d, [])
  | .spawn (.job e) :: es =>
    let (d, lines) := d.runJob clock e false
    let (d, more) := d.runReleased clock es
    (d, lines ++ more)
  | _ :: es => d.runReleased clock es

/-! ## Serving -/

/-- When the next timer is due. -/
def due? (d : Daemon) : Option Instant :=
  (d.scheduler.engine.timers.filterMap Timer.due).foldl
    (fun earliest t =>
      match earliest with
      | some e => some (if e.le t then e else t)
      | none => some t)
    none

/-- Lets one timer go off. -/
def fire (d : Daemon) (clock : Clock) (serial : Nat) : Daemon × List LogLine :=
  match d.scheduler.engine.fire serial clock.wall with
  | some (callback, engine, es) =>
    let d := { d with scheduler := { d.scheduler with engine } }
    let (d, lines) := d.runCallback clock callback
    (d, linesOf es ++ lines)
  | none => (d, [])

/-- Lets every timer go off that is due by now. -/
def wake (d : Daemon) (clock : Clock) : Daemon × List LogLine :=
  let isDue (t : Timer String) : Bool := t.due.any fun due => due.le clock.wall
  let serials := (d.scheduler.engine.timers.filter isDue).map Timer.serial
  serials.foldl
    (fun (d, lines) serial =>
      let (d, more) := d.fire clock serial
      (d, lines ++ more))
    (d, [])

/-- Tells that the host is ready. -/
def becomeReady (d : Daemon) (clock : Clock) : Daemon × List LogLine :=
  match d.scheduler.ready with
  | none => (d, [])
  | some signal =>
    let (_, signal, es) := signal.notify true
    let (d, lines) :=
      { d with scheduler := { d.scheduler with ready := some signal } }.runReleased clock es
    (d, linesOf es ++ lines)

/-- Says what is found in the configuration, the warnings first. -/
def findingLines (c : Config) : List LogLine :=
  c.warnings.map (fun p => lineOf .warn s!"{p.1.path}: {p.2.message}")
    ++ c.errors.map fun p => lineOf .error s!"{p.1.path}: {p.2.message}"

def leaseLine (c : LeaseConfig) (holder : String) : List LogLine :=
  if c.enabled then
    [lineOf .info "Lease lock enabled"
      [{ name := "lease", value := c.name }, { name := "holder", value := holder }]]
  else []

/-- Begins to serve a configuration, or says why not. -/
def launch (c : Config) (holder : String) (clock : Clock) :
    Except LaunchFault Daemon × List LogLine :=
  let greeting := lineOf .info s!"Starting JobHands v{Help.versionNumber}" :: findingLines c
  if !c.isValid then (.error (.invalid c.errors.length), greeting)
  else
    let greeting := greeting ++ leaseLine c.lease holder
    match registerJobs (freshScheduler c holder) clock.wall c.jobs with
    | (.error e, lines) => (.error e, greeting ++ lines)
    | (.ok scheduler, lines) =>
      let started := scheduler.start {} clock
      let lines := greeting ++ lines ++ linesOf started.effects
      match started.result with
      | .error (.refused e) => (.error (.refused e), lines)
      | .error .crashed => (.error .crashed, lines)
      | .ok () =>
        let (d, more) :=
          becomeReady { scheduler := started.scheduler, store := started.store } clock
        (.ok d, lines ++ more)

/-- What ends the daemon. -/
inductive Summons where
  | interrupt
  | terminate
deriving Repr, DecidableEq

def Summons.line : Summons → LogLine
  | interrupt => lineOf .info "Received Ctrl-C"
  | terminate => lineOf .info "Received SIGTERM"

/-- Ends to serve. -/
def shutDown (d : Daemon) (summons : Summons) (clock : Clock) :
    Except LaunchFault Unit × List LogLine :=
  let stopped := d.scheduler.stop d.store clock.elapsed
  let lines := summons.line :: lineOf .info "Shutting down" :: linesOf stopped.effects
  match stopped.result with
  | .ok () => (.ok (), lines)
  | .error (.refused e) => (.error (.refused e), lines)
  | .error .crashed => (.error .crashed, lines)

end Daemon
end RecurringJobs
