import RecurringJobs.Config.Schema
import RecurringJobs.Config.Variables

/-!
Where configuration and logs are kept.

Paths are texts with slashes, so a variable that is set to no text names no directory.  A base
directory that a variable names counts only when it is absolute; otherwise it is one below the home
directory.
-/

namespace RecurringJobs
namespace Paths

/-- A name below a directory. -/
def join (dir name : String) : String :=
  if dir.isEmpty then name
  else if dir.endsWith "/" then dir ++ name
  else dir ++ "/" ++ name

def isAbsolute (path : String) : Bool := path.startsWith "/"

/-- The names in a path, in order. -/
def names (path : String) : List String := path.splitOn "/"

/-- The directory that holds what a path names. -/
def parent (path : String) : String :=
  let above := (names path).dropLast
  if above = [""] then "/" else "/".intercalate above

/-- The path without empty names and dots, each pair of dots taken for a step upwards. -/
def plain (path : String) : String :=
  (names path).foldl
    (fun dir name =>
      if name.isEmpty || name = "." then dir
      else if name = ".." then parent dir
      else join dir name)
    (if isAbsolute path then "/" else "")

def home? (env : Environment) : Option String :=
  (env.text? "HOME").filter fun dir => !dir.isEmpty

/-- The directory that a variable names, or else the one at a place below the home directory. -/
def base? (env : Environment) (name : String) (place : List String) : Option String :=
  match (env.text? name).filter isAbsolute with
  | some dir => some dir
  | none => (home? env).map fun dir => place.foldl join dir

/-- The configuration file that is read when none is named. -/
def configFile? (env : Environment) : Option String :=
  (base? env "XDG_CONFIG_HOME" [".config"]).map fun dir =>
    join (join dir "jobhands") "config.toml"

/-- The path with a tilde at its beginning replaced by the home directory.  The tilde must be alone
or before a slash. -/
def expandTilde (env : Environment) (path : String) : String :=
  match path.toList with
  | '~' :: rest =>
    match rest, home? env with
    | [], some dir => dir
    | '/' :: _, some dir => dir ++ String.ofList rest
    | _, _ => path
  | _ => path

/-- The directory of the log files. -/
def logDir (env : Environment) (c : LoggingConfig) : String :=
  match c.dir with
  | some dir => expandTilde env dir
  | none =>
    let dir := (base? env "XDG_DATA_HOME" [".local", "share"]).getD "."
    join (join dir "jobhands") "logs"

end Paths
end RecurringJobs
