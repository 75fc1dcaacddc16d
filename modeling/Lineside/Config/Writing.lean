import Lineside.Config.Basic
import Lineside.Yaml.Writing

/-!
Configurations as text: every field on a line of its own, inner fields indented by four.
-/

namespace Lineside

namespace Config

def margin (level : Nat) : String := String.ofList (List.replicate (level * Yaml.indentStep) ' ')

/-- A field on a level; further lines of its text stand one level deeper. -/
def textEntry (level : Nat) (key text : String) : String :=
  margin level ++ key ++ ": " ++ Yaml.written ((level + 1) * Yaml.indentStep) text

def plainEntry (level : Nat) (key value : String) : String := margin level ++ key ++ ": " ++ value ++ "\n"

def intEntry (level : Nat) (key : String) (value : Int64) : String := plainEntry level key value.toInt.repr

def boolEntry (level : Nat) (key : String) (value : Bool) : String :=
  plainEntry level key (if value then "true" else "false")

def block (level : Nat) (key : String) (lines : List String) : String :=
  margin level ++ key ++ ":\n" ++ String.join lines

def listEntry (level : Nat) (key : String) : List String → String
  | [] => plainEntry level key "[]"
  | texts => block level key (texts.map fun text =>
    margin (level + 1) ++ "- " ++ Yaml.written ((level + 1) * Yaml.indentStep + 2) text)

def text (config : Config) : String :=
  block 0 "engine" [
    intEntry 1 "ticks" config.engine.ticks,
    textEntry 1 "tick_interval" config.engine.tickInterval,
    boolEntry 1 "script_debug" config.engine.scriptDebug,
    boolEntry 1 "realtime" config.engine.realtime] ++
  block 0 "scripts" [
    textEntry 1 "dir" config.scripts.directory,
    intEntry 1 "cache_size" config.scripts.cacheSize,
    textEntry 1 "cache_ttl" config.scripts.cacheLifetime,
    boolEntry 1 "watch" config.scripts.watch] ++
  textEntry 0 "layout" config.layout ++
  block 0 "metrics" [
    boolEntry 1 "enabled" config.metrics.enabled,
    textEntry 1 "bind_address" config.metrics.bindAddress] ++
  block 0 "logging" [
    textEntry 1 "level" config.logging.level,
    textEntry 1 "encoding" config.logging.encoding,
    listEntry 1 "output_paths" config.logging.outputPaths]

def save (config : Config) (tree : FileTree) (path : String) : Outcome FileTree := do
  let tree ← Outcome.during .creatingConfigDirectory
    (Outcome.because .path (tree.makeDirectory (Path.parent path)))
  Outcome.during .writingConfig (Outcome.because .path (tree.write path config.text))

end Config

end Lineside
