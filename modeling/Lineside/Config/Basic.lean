import Lineside.Document.Text
import Lineside.Files.View

/-!
The configuration of a simulation. A file is read on top of the defaults, and the environment on top of
both; a file that does not exist counts as empty.
-/

namespace Lineside

namespace Config

structure Engine where
  ticks : Int64 := 10
  tickInterval : String := "1s"
  scriptDebug : Bool := false
  realtime : Bool := false
  deriving DecidableEq, Repr

structure Scripts where
  directory : String := "scripts"
  cacheSize : Int64 := 1000
  cacheLifetime : String := "1h"
  watch : Bool := false
  deriving DecidableEq, Repr

structure Metrics where
  enabled : Bool := false
  bindAddress : String := "localhost:9311"
  deriving DecidableEq, Repr

structure Logging where
  level : String := "info"
  encoding : String := "console"
  outputPaths : List String := ["stdout"]
  deriving DecidableEq, Repr

end Config

structure Config where
  engine : Config.Engine := {}
  scripts : Config.Scripts := {}
  layout : String := "layout.yaml"
  metrics : Config.Metrics := {}
  logging : Config.Logging := {}
  deriving DecidableEq, Repr

/-- What the environment says about the configuration. An empty text says nothing. -/
structure Environment where
  logLevel : String := ""
  metricsAddress : String := ""
  scriptsDirectory : String := ""
  deriving DecidableEq, Repr

namespace Environment

def names : List String := ["SIGSCRIPT_LOG_LEVEL", "SIGSCRIPT_METRICS_ADDRESS", "SIGSCRIPT_SCRIPTS_DIR"]

def ofVariables (value? : String → Option String) : Environment where
  logLevel := (value? "SIGSCRIPT_LOG_LEVEL").getD ""
  metricsAddress := (value? "SIGSCRIPT_METRICS_ADDRESS").getD ""
  scriptsDirectory := (value? "SIGSCRIPT_SCRIPTS_DIR").getD ""

end Environment

namespace Config

open Yaml

namespace Engine

def yamlField (key : String) (node : Yaml) (engine : Engine) : Option Engine :=
  match key with
  | "ticks" => return { engine with ticks := ← node.toInt engine.ticks }
  | "tick_interval" => return { engine with tickInterval := ← node.toText engine.tickInterval }
  | "script_debug" => return { engine with scriptDebug := ← node.toBool engine.scriptDebug }
  | "realtime" => return { engine with realtime := ← node.toBool engine.realtime }
  | _ => some engine

end Engine

namespace Scripts

def yamlField (key : String) (node : Yaml) (scripts : Scripts) : Option Scripts :=
  match key with
  | "dir" => return { scripts with directory := ← node.toText scripts.directory }
  | "cache_size" => return { scripts with cacheSize := ← node.toInt scripts.cacheSize }
  | "cache_ttl" => return { scripts with cacheLifetime := ← node.toText scripts.cacheLifetime }
  | "watch" => return { scripts with watch := ← node.toBool scripts.watch }
  | _ => some scripts

end Scripts

namespace Metrics

def yamlField (key : String) (node : Yaml) (metrics : Metrics) : Option Metrics :=
  match key with
  | "enabled" => return { metrics with enabled := ← node.toBool metrics.enabled }
  | "bind_address" => return { metrics with bindAddress := ← node.toText metrics.bindAddress }
  | _ => some metrics

end Metrics

namespace Logging

def yamlField (key : String) (node : Yaml) (logging : Logging) : Option Logging :=
  match key with
  | "level" => return { logging with level := ← node.toText logging.level }
  | "encoding" => return { logging with encoding := ← node.toText logging.encoding }
  | "output_paths" => return { logging with outputPaths := ← node.toList (toText "") }
  | _ => some logging

end Logging

def yamlField (key : String) (node : Yaml) (config : Config) : Option Config :=
  match key with
  | "engine" => return { config with engine := ← node.toRecord Engine.yamlField config.engine }
  | "scripts" => return { config with scripts := ← node.toRecord Scripts.yamlField config.scripts }
  | "layout" => return { config with layout := ← node.toText config.layout }
  | "metrics" => return { config with metrics := ← node.toRecord Metrics.yamlField config.metrics }
  | "logging" => return { config with logging := ← node.toRecord Logging.yamlField config.logging }
  | _ => some config

/-- A metrics address from the environment also turns metrics on. -/
def override (config : Config) (environment : Environment) : Config where
  engine := config.engine
  scripts :=
    if environment.scriptsDirectory = "" then config.scripts
    else { config.scripts with directory := environment.scriptsDirectory }
  layout := config.layout
  metrics :=
    if environment.metricsAddress = "" then config.metrics
    else { enabled := true, bindAddress := environment.metricsAddress }
  logging :=
    if environment.logLevel = "" then config.logging
    else { config.logging with level := environment.logLevel }

def parse (bytes : ByteArray) : Outcome Config := Outcome.during .parsingConfig (readInto yamlField {} bytes)

def load (files : Files) (environment : Environment) (path : String) : Outcome Config := do
  let config ← match files.read path with
    | .ok bytes => parse bytes
    | .error reason =>
      if reason.problem = .missing then .ok {}
      else Outcome.during .readingConfig (Outcome.fail (.path reason))
  return config.override environment

/-- The simulated time between two ticks; a second where the text is no duration. -/
def tickInterval (config : Config) : Duration :=
  (Duration.parse config.engine.tickInterval).toOption.getD Duration.second

/-- How long scripts stay cached; an hour where the text is no duration. -/
def cacheLifetime (config : Config) : Duration :=
  (Duration.parse config.scripts.cacheLifetime).toOption.getD Duration.hour

def levels : List String := ["debug", "info", "warn", "error", "dpanic", "panic", "fatal"]

def checkDuration (activity : Activity) (text : String) : Outcome Unit := do
  let _ ← Outcome.during activity (Outcome.because .duration (Duration.parse text))

def validate (config : Config) : Outcome Unit := do
  if config.engine.ticks < 0 then Outcome.fail (.negativeTicks config.engine.ticks)
  checkDuration (.checkingTickInterval config.engine.tickInterval) config.engine.tickInterval
  if config.scripts.cacheLifetime ≠ "" then
    checkDuration (.checkingCacheLifetime config.scripts.cacheLifetime) config.scripts.cacheLifetime
  if !levels.contains config.logging.level then Outcome.fail (.unknownLevel config.logging.level)
  if config.metrics.enabled && config.metrics.bindAddress == "" then Outcome.fail .noBindAddress

end Config

end Lineside
