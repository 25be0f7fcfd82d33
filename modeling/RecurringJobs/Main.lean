import RecurringJobs.Daemon.Basic
import RecurringJobs.Lock.HolderId
import Std.Internal.UV.Signal
import Std.Time.DateTime.Timestamp

/-!
The program: it reads its arguments, its environment and its configuration file, prints, and waits
for timers and signals.
-/

namespace RecurringJobs
namespace Main

/-- The longest text that some bytes begin with. -/
def startOf (bytes : ByteArray) : String :=
  ((List.range bytes.size).reverse.findSome? fun n => String.fromUTF8? (bytes.extract 0 n)).getD ""

def entryOf (bytes : List UInt8) : Environment.Entry :=
  let bytes : ByteArray := ⟨bytes.toArray⟩
  match String.fromUTF8? bytes with
  | some entry => .text entry
  | none => .broken (startOf bytes)

/-- The entries that the process began with, each ended by a zero byte. -/
def environment : IO Environment := do
  let bytes ← IO.FS.readBinFile "/proc/self/environ"
  let entries := bytes.toList.splitBy fun a _ => a ≠ 0
  return .ofEntries (entries.map fun entry => entryOf (entry.filter (· ≠ 0)))

def readFile (path : String) : IO FileState := do
  try
    return .content (← IO.FS.readBinFile path)
  catch e =>
    match e with
    | .noFileOrDirectory _ _ _ => return .absent
    | .inappropriateType _ _ _ => return .unreadable .isDirectory
    | e => return .unreadable (.other (toString e))

def load (env : Environment) (named : Option String) : IO (Except ConfigError Config) := do
  match named.or (Paths.configFile? env) with
  | none => return Config.load env named fun _ => .absent
  | some path =>
    let file ← readFile path
    return Config.load env named fun p => if p = path then file else .absent

def finish (r : Report) : IO UInt32 := do
  IO.print r.output
  IO.eprint r.errors
  return r.exitCode.toUInt32

def wallClock : IO Instant := do
  let nanos := (← Std.Time.Timestamp.now).val.toNanoseconds.toInt
  return { seconds := nanos / 1000000000, nanos := (nanos % 1000000000).toNat }

/-- Both clocks, where the steady one read `origin` when the process began. -/
def readClock (origin : Nat) : IO Clock := do
  return { wall := ← wallClock, elapsed := ← IO.monoNanosNow, origin }

/-- Where log lines go, and which. -/
structure Journal where
  filter : LogFilter
  dir : String

/-- Writes lines to the console and to the file of the day. -/
def Journal.write (j : Journal) (lines : List LogLine) : IO Unit := do
  for line in lines.filter j.filter.shows do
    let now ← wallClock
    IO.println (line.coloured now.stamp)
    let path := Paths.join j.dir ("jobhands." ++ now.dateText ++ ".log")
    (← IO.FS.Handle.mk path .append).putStrLn (line.stamped now.stamp)

def randomHolder : IO String := do
  let bytes ← IO.getRandomBytes 16
  return HolderId.ofRandom (bytes.toList.foldl (fun n b => 256 * n + b.toNat) 0)

/-- The longest time between two looks for signals, in milliseconds. -/
def pollMillis : Nat := 50

/-- Serves until one of the signals has arrived. -/
partial def serve (j : Journal) (origin : Nat) (interrupt terminate : Task (Option Int))
    (d : Daemon) : IO (Daemon × Daemon.Summons) := do
  if ← IO.hasFinished interrupt then return (d, .interrupt)
  if ← IO.hasFinished terminate then return (d, .terminate)
  let (d, lines) := d.wake (← readClock origin)
  j.write lines
  let now ← wallClock
  let wait :=
    match d.due? with
    | some due => min pollMillis (now.nanosTo due / TimeUnit.nanosPerMilli + 1)
    | none => pollMillis
  IO.sleep wait.toUInt32
  serve j origin interrupt terminate d

def fail (fault : LaunchFault) : IO UInt32 :=
  match fault.failure? with
  | some f => finish (Report.failed "" f)
  | none => finish Report.crashed

def folderFault : IO.Error → FolderFault
  | .alreadyExists _ _ _ => .fileExists
  | .inappropriateType _ _ _ => .notDirectory
  | .noFileOrDirectory _ _ _ => .noSuchPlace
  | e => .other (toString e)

/-- Runs the jobs of a configuration until a signal arrives. -/
def run (env : Environment) (c : Config) : IO UInt32 := do
  let dir := Paths.logDir env c.logging
  try
    if !dir.isEmpty then IO.FS.createDirAll dir
  catch e =>
    return ← fail (.logFolder dir (folderFault e))
  let (filter, complaints) := Daemon.filterFor env c.logging
  IO.eprint (Help.lines complaints)
  let j : Journal := { filter, dir }
  let origin ← IO.monoNanosNow
  let (launched, lines) := Daemon.launch c (← randomHolder) (← readClock origin)
  j.write lines
  match launched with
  | .error fault => fail fault
  | .ok d =>
    let interrupt ← (← Std.Internal.UV.Signal.mk 2 false).next
    let terminate ← (← Std.Internal.UV.Signal.mk 15 false).next
    let (d, summons) ← serve j origin interrupt.result? terminate.result? d
    let (stopped, lines) := d.shutDown summons (← readClock origin)
    j.write lines
    match stopped with
    | .error fault => fail fault
    | .ok () => return 0

end Main
end RecurringJobs

open RecurringJobs in
def main (args : List String) : IO UInt32 := do
  let env ← Main.environment
  match Request.ofArguments env args with
  | none => Main.finish (Report.misused env)
  | some .version => Main.finish { output := Help.versionText }
  | some (.help topic) => Main.finish { output := Help.text env topic }
  | some (.next plan count) => Main.finish (Report.next (← Main.wallClock) plan count)
  | some (.check config) => Main.finish (Report.check (← Main.load env config))
  | some (.run config) =>
    match ← Main.load env config with
    | .error e => Main.finish (Report.failed "" (.ofConfig e))
    | .ok c => Main.run env c
