import RecurringJobs.Config.Findings
import RecurringJobs.Config.Load
import RecurringJobs.Command.Help
import RecurringJobs.Plan.Upcoming

/-!
What a command prints and how it ends, for the commands that end by themselves.
-/

namespace RecurringJobs

/-- What makes a command fail: a message, and those of the errors behind it. -/
structure Failure where
  message : String
  causes : List String := []
deriving Repr, DecidableEq

namespace Failure

def ofConfig (e : ConfigError) : Failure := { message := e.message, causes := e.source?.toList }

/-- The causes, numbered when there are several. -/
def causeLines : List String → List String
  | [cause] => ["    " ++ cause]
  | causes => causes.mapIdx fun i cause => s!"    {i}: {cause}"

/-- A failure as it is told when the program ends. -/
def text (f : Failure) : String :=
  let head := "Error: " ++ f.message ++ "\n"
  if f.causes.isEmpty then head
  else head ++ "\nCaused by:\n" ++ Help.lines (causeLines f.causes)

end Failure

structure Report where
  exitCode : Nat := 0
  output : String := ""
  errors : String := ""
deriving Repr, DecidableEq

namespace Report

/-- The end of a command that fails after printing something. -/
def failed (output : String) (f : Failure) : Report := { exitCode := 1, output, errors := f.text }

/-- The end of a command whose computation does not come back. -/
def crashed : Report := { exitCode := 101 }

/-- The end of a program whose arguments are misused. -/
def misused (env : Environment) : Report := { exitCode := 2, errors := Help.text env .program }

/-- Lists the next triggers of a plan. -/
def next (now : Instant) (plan : String) (count : Nat) : Report :=
  match Plan.parseNext plan now count with
  | .ok times => { output := Help.lines (times.map Instant.text) }
  | .error (.invalid e) => failed "" { message := e.message }
  | .error (.unlisted _) => crashed

/-- The findings of a configuration, the warnings first. -/
def findingLines (c : Config) : List String :=
  c.warnings.map (fun p => s!"warning: {p.1.path}: {p.2.message}")
    ++ c.errors.map fun p => s!"error: {p.1.path}: {p.2.message}"

/-- Looks for faults in a configuration that was loaded. -/
def check (loaded : Except ConfigError Config) : Report :=
  match loaded with
  | .error e => failed "" (.ofConfig e)
  | .ok c =>
    let output := Help.lines (findingLines c)
    if c.isValid then { output := output ++ s!"OK: {c.jobs.length} job(s)\n" }
    else failed output { message := s!"{c.errors.length} error(s) in configuration" }

end Report
end RecurringJobs
