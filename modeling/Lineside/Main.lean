import Lineside.Command.Basic

/-!
The program: it reads the files a command needs, prints what the command answers, and in a simulation
goes from tick to tick.
-/

namespace Lineside.Program

def problemOf (path : String) : IO PathProblem := do
  let place := (← IO.currentDir) / path
  if ← place.isDir then return .isDirectory
  else match place.parent with
    | some around =>
      if (← around.pathExists) && !(← around.isDir) then return .notDirectory else return .missing
    | none => return .missing

def readBytes (path : String) : IO (Except PathError ByteArray) := do
  try
    return .ok (← IO.FS.readBinFile path)
  catch _ =>
    let problem ← problemOf path
    return .error ⟨if problem = .isDirectory then "read" else "open", path, problem⟩

def listEntries (path : String) : IO (Except PathError (List DirectoryEntry)) := do
  try
    let entries ← ((← IO.currentDir) / path).readDir
    return .ok (← entries.toList.mapM fun entry => return ⟨entry.fileName, ← entry.path.isDir⟩)
  catch _ =>
    let problem ← problemOf path
    let isFile ← ((← IO.currentDir) / path).pathExists
    return .error ⟨"open", path, if isFile then .notDirectory else problem⟩

/-- What was seen of the files: the outcome of every reading and listing that may be asked for. -/
structure Seen where
  contents : List (String × Except PathError ByteArray) := []
  entries : List (String × Except PathError (List DirectoryEntry)) := []

namespace Seen

def files (seen : Seen) : Files where
  read path := (seen.contents.lookup path).getD (.error ⟨"open", path, .missing⟩)
  list path := (seen.entries.lookup path).getD (.error ⟨"open", path, .missing⟩)

def file (seen : Seen) (path : String) : IO Seen := do
  let bytes ← readBytes path
  return { seen with contents := (path, bytes) :: seen.contents }

def scripts (seen : Seen) (directory : String) : IO Seen := do
  let entries ← listEntries directory
  let seen := { seen with entries := (directory, entries) :: seen.entries }
  let paths := (Script.fileNames (entries.toOption.getD [])).map (Path.join directory)
  paths.foldlM file seen

end Seen

def finish : Outcome Unit → IO UInt32
  | .ok () => return 0
  | .error error => do
    IO.eprintln ("Error: " ++ error.message)
    return 1

/-- Stores the scripts whose files have changed since they were last seen. -/
def followChanges (directory : String) (before after : Seen) (store : Store) : Store :=
  let changed := after.contents.filter fun (path, bytes) =>
    match bytes, before.contents.lookup path with
    | .ok bytes, some (.ok known) => bytes != known
    | .ok _, _ => true
    | .error _, _ => false
  changed.foldl (fun store (path, _) =>
    if Path.parent path = Path.clean directory then (store.reload after.files path).1 else store) store

def refresh (seen : Seen) (simulation : Simulation) : IO (Seen × Simulation) :=
  match simulation.watched, simulation.engine.store with
  | some directory, some store => do
    let now ← Seen.scripts {} directory
    let store := followChanges directory seen now store
    return (now, { simulation with engine := { simulation.engine with store := some store } })
  | _, _ => return (seen, simulation)

def rounds (realtime : Bool) : Nat → Nat → Seen → Simulation → IO UInt32
  | 0, _, _, _ => return 0
  | count + 1, tick, seen, simulation => do
    if realtime && decide (1 < tick) then
      IO.sleep (simulation.interval.nanoseconds.toInt / 1000000).toNat.toUInt32
    let (seen, simulation) ← refresh seen simulation
    let ran := simulation.round {} tick
    ran.reports.forM IO.print
    (← IO.getStdout).flush
    match ran.outcome with
    | .error error => finish (.error error)
    | .ok () => rounds realtime count (tick + 1) seen ran.simulation

def openSink (name : String) : IO (Option SinkError) :=
  match Sink.ofName name with
  | .error problem => return some ⟨name, problem⟩
  | .ok (.file path) => do
    try
      let _ ← IO.FS.Handle.mk path .append
      return none
    catch _ => return some ⟨name, .path ⟨"open", path, ← problemOf path⟩⟩
  | .ok _ => return none

def openSinks (logging : Config.Logging) : IO (Outcome Unit) := do
  match Outcome.during .creatingLogger (Logger.encodingOf logging.encoding) with
  | .error error => return .error error
  | .ok _ =>
    match (← logging.outputPaths.mapM openSink).filterMap id with
    | [] => return .ok ()
    | errors => return Outcome.during .creatingLogger (Outcome.fail (.sinks errors))

def anyOrders : IO (Nat → Nat → Layout.Order) := do
  let seed ← IO.rand 0 2147483648
  return fun signal head rest => (randNat (mkStdGen (((seed + signal) * 1009 + head) * 1009 + rest)) 0 rest).1

def runSimulation (environment : Environment) (settings : List Setting) : IO UInt32 := do
  let seen ← Seen.file {} (Command.configPath settings)
  match Command.runConfig seen.files environment settings with
  | .error error => finish (.error error)
  | .ok config =>
    if let .error error ← openSinks config.logging then return ← finish (.error error)
    let seen ← (← seen.scripts config.scripts.directory).file config.layout
    let orders ← anyOrders
    let simulation : Outcome Simulation := do
      let (store, _) ← Simulation.loadScripts seen.files config
      Simulation.ofStore seen.files config orders store
    match simulation with
    | .error error => finish (.error error)
    | .ok simulation => rounds config.engine.realtime config.engine.ticks.toInt.toNat 1 seen simulation

def validateScripts (settings : List Setting) : IO UInt32 := do
  let seen ← Seen.scripts {} ((Setting.text? settings "scripts").getD "scripts")
  let answer := Command.validateScripts seen.files settings
  IO.print answer.output
  finish answer.outcome

end Lineside.Program

open Lineside in
def main (arguments : List String) : IO UInt32 := do
  match Command.read arguments with
  | .error error => Program.finish (.error error)
  | .ok call =>
    let values ← Environment.names.mapM fun name => return (name, ← IO.getEnv name)
    let environment := Environment.ofVariables fun name => (values.lookup name).join
    match call.helps, call.command with
    | false, .run => Program.runSimulation environment call.settings
    | false, .validate => Program.validateScripts call.settings
    | _, _ =>
      let answer := call.perform { environment }
      IO.print answer.output
      Program.finish answer.outcome
