import Lineside.Command.Line
import Lineside.Log.Logger
import Lineside.Simulation

/-!
What the commands do: run a simulation, validate the scripts of a directory, and list the functions that
scripts can call.
-/

namespace Lineside

namespace Command

structure Answer where
  output : String := ""
  outcome : Outcome Unit := .ok ()

structure Surroundings where
  tree : FileTree := {}
  environment : Environment := {}
  circumstances : Circumstances := {}
  /-- For each signal and head of a layout, the order in which its draw states are met. -/
  orders : Nat → Nat → Layout.Order := fun _ _ _ => 0
  stamp : LogStamp := {}

def configure (settings : List Setting) (config : Config) : Config where
  engine := {
    ticks := (Setting.integer? settings "ticks").getD config.engine.ticks
    tickInterval := config.engine.tickInterval
    scriptDebug := (Setting.switch? settings "script-debug").getD config.engine.scriptDebug
    realtime := (Setting.switch? settings "realtime").getD config.engine.realtime }
  scripts := { config.scripts with
    directory := (Setting.text? settings "scripts").getD config.scripts.directory
    watch := (Setting.switch? settings "watch").getD config.scripts.watch }
  layout := (Setting.text? settings "layout").getD config.layout
  metrics :=
    match Setting.text? settings "metrics" with
    | some bindAddress => { enabled := true, bindAddress }
    | none => config.metrics
  logging := config.logging

def configPath (settings : List Setting) : String :=
  (Setting.text? settings "config").getD "sigscript-sim.yaml"

def runConfig (files : Files) (environment : Environment) (settings : List Setting) : Outcome Config := do
  let config := configure settings (← Config.load files environment (configPath settings))
  config.validate
  return config

/-- Loads all that a run needs. What was logged up to there can be seen in the files that are left. -/
def prepare (surroundings : Surroundings) (settings : List Setting) :
    Outcome (Config × Simulation × FileTree) := do
  let config ← runConfig surroundings.tree.view surroundings.environment settings
  let (logger, tree) ← Logger.create surroundings.tree surroundings.stamp config.logging
  let (store, notices) ← Simulation.loadScripts tree.view config
  let tree := logger.record (Notice.lines notices) tree
  return (config, ← Simulation.ofStore tree.view config surroundings.orders store, tree)

def runSimulation (surroundings : Surroundings) (settings : List Setting) : Answer :=
  match prepare surroundings settings with
  | .error error => { outcome := .error error }
  | .ok (config, simulation, tree) =>
    let ran := simulation.run tree.view surroundings.circumstances config.engine.ticks
    { output := String.join ran.reports, outcome := ran.outcome }

def verdict (script : Script) : String × Option String :=
  match Script.checked (some script) with
  | .ok _ => ("ok   " ++ script.name.text ++ "\n", none)
  | .error error => ("FAIL " ++ error.message ++ "\n", some script.name.text)

def validateScripts (files : Files) (settings : List Setting) : Answer :=
  match Script.fromDirectory files ((Setting.text? settings "scripts").getD "scripts") with
  | .error error => { outcome := .error error }
  | .ok scripts =>
    let verdicts := scripts.map verdict
    let invalid := verdicts.filterMap (·.2)
    { output := String.join (verdicts.map (·.1))
      outcome := if invalid.isEmpty then .ok () else Outcome.fail (.invalidScripts invalid) }

def functionTable : String :=
  Text.align ("ID\tNAME\tARGS\n" ++ String.join (Builtin.all.map fun function =>
    function.code.toInt.repr ++ "\t" ++ function.name ++ "\t" ++ function.arity.repr ++ "\n"))

/-- Carries out a command. Help is left to the reader of the command line. -/
def Call.perform (call : Call) (surroundings : Surroundings) : Answer :=
  if call.helps then {} else
  match call.command with
  | .run => runSimulation surroundings call.settings
  | .validate => validateScripts surroundings.tree.view call.settings
  | .functions => { output := functionTable }
  | .root | .help | .completion | .completionFor _ => {}

def perform (surroundings : Surroundings) (arguments : List String) : Answer :=
  match read arguments with
  | .error error => { outcome := .error error }
  | .ok call => call.perform surroundings

end Command

end Lineside
