import RecurringJobs.Daemon.Basic

/-!
A daemon that is run on a clock of its own, until it has logged given texts, and is then told to
end.
-/

namespace RecurringJobs
namespace Daemon

/-- What a trial leaves. -/
structure Trial where
  exitCode : Nat
  /-- The lines that were shown. -/
  log : List LogLine
  errors : String

/-- How a launch that failed ends. -/
def faultEnd (fault : LaunchFault) : Nat × String :=
  match fault.failure? with
  | some f => (1, f.text)
  | none => (101, "")

/-- Whether a text stands in a line as it is shown. -/
def shownIn (lines : List LogLine) (text : String) : Bool :=
  lines.any fun l => l.console.contains text

/-- How many seconds a trial waits for its texts. -/
def patience : Nat := 10

/-- Lets the daemon be woken until all texts have been shown, or until that would take too long.
Timers go off at whole seconds, so there is one moment for each second at most. -/
def serveUntil (filter : LogFilter) (texts : List String) :
    Nat → Daemon → Clock → List LogLine → Daemon × Clock × List LogLine
  | 0, d, clock, shown => (d, clock, shown)
  | fuel + 1, d, clock, shown =>
    if texts.all (shownIn shown) then (d, clock, shown)
    else
      match d.due? with
      | none => (d, clock, shown)
      | some due =>
        let later := clock.advance (clock.wall.nanosTo due)
        if later.age ≤ patience * TimeUnit.nanosPerSecond then
          let (d, lines) := d.wake later
          serveUntil filter texts fuel d later (shown ++ lines.filter filter.shows)
        else (d, clock, shown)

/-- Runs a daemon with a configuration, its log directory being there. -/
def serving (env : Environment) (c : Config) (holder : String) (clock : Clock)
    (texts : List String) (summons : Summons) : Trial :=
  let (filter, complaints) := filterFor env c.logging
  let said := Help.lines complaints
  match launch c holder clock with
  | (.error fault, lines) =>
    let (exitCode, errors) := faultEnd fault
    { exitCode, log := lines.filter filter.shows, errors := said ++ errors }
  | (.ok d, lines) =>
    let (d, clock, shown) :=
      serveUntil filter texts (patience + 1) d clock (lines.filter filter.shows)
    let (result, lines) := d.shutDown summons clock
    let log := shown ++ lines.filter filter.shows
    match result with
    | .ok () => { exitCode := 0, log, errors := said }
    | .error fault =>
      let (exitCode, errors) := faultEnd fault
      { exitCode, log, errors := said ++ errors }

/-- Runs a daemon for a loaded configuration, where `site` tells what stands at a path. -/
def trial (env : Environment) (loaded : Except ConfigError Config) (site : String → Site)
    (holder : String) (clock : Clock) (texts : List String) (summons : Summons) : Trial :=
  match loaded with
  | .error e => { exitCode := 1, log := [], errors := (Failure.ofConfig e).text }
  | .ok c =>
    let dir := Paths.logDir env c.logging
    match Folder.fault? site dir with
    | some fault =>
      let (exitCode, errors) := faultEnd (.logFolder dir fault)
      { exitCode, log := [], errors }
    | none => serving env c holder clock texts summons

end Daemon
end RecurringJobs
