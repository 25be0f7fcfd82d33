import RecurringJobs.Command.Request
import RecurringJobs.Text.Terminal

/-!
The texts that answer a question for help.
-/

namespace RecurringJobs
namespace Help

def programName : String := "jobhands"

def versionNumber : String := "0.1.0"

def versionText : String := programName ++ " " ++ versionNumber ++ "\n"

def lines (ls : List String) : String := String.join (ls.map (· ++ "\n"))

/-- The width of the column of options, which the texts about them are indented by. -/
def optionWidth : Nat := 25

/-- A text that goes on in the column where it began. -/
def indented (s : String) : String :=
  String.join (s.toList.map fun c =>
    if c = '\n' then "\n" ++ String.ofList (List.replicate optionWidth ' ')
    else String.singleton c)

/-- A word that is to be typed as it stands, as a terminal shows it. -/
def literal (word : String) : String := "\x1b[1m" ++ word ++ "\x1b[0m"

/-- The option for the configuration file, which shows the value of its variable.  The value may hold
anything, also the beginning of a control sequence; one that is open ends at the next literal. -/
def configOption (env : Environment) : String :=
  Text.withoutControls (lines
    ["Options:",
     "  " ++ literal "-c" ++ ", " ++ literal "--config" ++ " <CONFIG>  Configuration file path "
       ++ "(default: <config dir>/jobhands/config.toml) [env: " ++ Request.configVariable ++ "="
       ++ indented ((env.text? Request.configVariable).getD "") ++ "]",
     "  " ++ literal "-h" ++ ", " ++ literal "--help" ++ "             Print help"])

/-- The text about a topic. -/
def text (env : Environment) : HelpTopic → String
  | .program => lines
    ["Named periodic jobs with pause/continue and lock-gated execution",
     "",
     "Usage: jobhands <COMMAND>",
     "",
     "Commands:",
     "  run    Run the configured jobs in the foreground",
     "  next   Print the next trigger times of a plan",
     "  check  Validate a configuration file",
     "  help   Print this message or the help of the given subcommand(s)",
     "",
     "Options:",
     "  -h, --help     Print help",
     "  -V, --version  Print version"]
  | .run => lines
    ["Run the configured jobs in the foreground",
     "",
     "Usage: jobhands run [OPTIONS]",
     ""] ++ configOption env
  | .next => lines
    ["Print the next trigger times of a plan",
     "",
     "Usage: jobhands next [OPTIONS] <PLAN>",
     "",
     "Arguments:",
     "  <PLAN>  Plan expression, e.g. \"@every 5s\" or \"0 */5 * * * *\"",
     "",
     "Options:",
     "  -n, --count <COUNT>  Number of trigger times to print [default: 5]",
     "  -h, --help           Print help"]
  | .check => lines
    ["Validate a configuration file",
     "",
     "Usage: jobhands check [OPTIONS]",
     ""] ++ configOption env
  | .help => lines
    ["Print this message or the help of the given subcommand(s)",
     "",
     "Usage: jobhands help [COMMAND]...",
     "",
     "Arguments:",
     "  [COMMAND]...  Print help for the subcommand(s)"]

end Help
end RecurringJobs
