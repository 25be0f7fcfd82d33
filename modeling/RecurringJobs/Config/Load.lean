import RecurringJobs.Config.Decode
import RecurringJobs.Config.Paths

/-!
Loading a configuration: from a text, from a file, or from the file at its usual place.
-/

namespace RecurringJobs

/-- Why a file that is there cannot be read. -/
inductive ReadFault where
  | isDirectory
  | notText
  | other (reason : String)
deriving Repr, DecidableEq

/-- What is found at the path of a configuration file. -/
inductive FileState where
  | absent
  | unreadable (fault : ReadFault)
  | content (bytes : ByteArray)

def ReadFault.message : ReadFault → String
  | isDirectory => "Is a directory (os error 21)"
  | notText => "stream did not contain valid UTF-8"
  | other reason => reason

inductive ConfigError where
  | notFound (path : String)
  | variableNotSet (name : String)
  | unreadable (fault : ReadFault)
  /-- The text is no TOML, or describes no configuration. -/
  | badToml
deriving Repr, DecidableEq

namespace ConfigError

/-- The head of the message where the rest is not fixed. -/
def tomlHead : String := "TOML parse error"

def message : ConfigError → String
  | notFound path => s!"Config file not found: {path}"
  | variableNotSet name => s!"Environment variable not set: {name}"
  | unreadable fault => s!"IO error: {fault.message}"
  | badToml => tomlHead

/-- The message of the fault behind an error. -/
def source? : ConfigError → Option String
  | unreadable fault => some fault.message
  | _ => none

end ConfigError

namespace Config

/-- Loads a configuration from its text.  References to variables are replaced first, also in
comments. -/
def ofText (env : Environment) (text : String) : Except ConfigError Config :=
  match Variables.expand env text with
  | .error name => .error (.variableNotSet name)
  | .ok expanded =>
    match (Toml.parse? expanded).bind ofFields? with
    | some config => .ok config
    | none => .error .badToml

/-- Loads a configuration from the file at a path. -/
def ofFile (env : Environment) (path : String) (file : FileState) : Except ConfigError Config :=
  match file with
  | .absent => .error (.notFound path)
  | .unreadable fault => .error (.unreadable fault)
  | .content bytes =>
    match String.fromUTF8? bytes with
    | some text => ofText env text
    | none => .error (.unreadable .notText)

/-- Loads the file that is named, or the one at the usual place, where none need be. -/
def load (env : Environment) (named : Option String) (file : String → FileState) :
    Except ConfigError Config :=
  match named with
  | some path => ofFile env path (file path)
  | none =>
    match Paths.configFile? env with
    | some path =>
      match file path with
      | .absent => .ok {}
      | found => ofFile env path found
    | none => .ok {}

end Config
end RecurringJobs
