import Lineside.Config.Basic
import Lineside.Json.Basic

/-!
Loggers write the lines of a run, from a level on, to all of their sinks: for a console as text between
tabs, or as JSON.
-/

namespace Lineside

inductive LogEncoding where
  | console
  | json
  deriving DecidableEq, Repr

structure LogStamp where
  moment : String := "1970-01-01T00:00:00Z"
  run : String := "00000000-0000-0000-0000-000000000000"
  deriving DecidableEq, Repr

structure Logger where
  level : String
  encoding : LogEncoding
  sinks : List Sink
  stamp : LogStamp := {}

namespace Logger

/-- The encoding of a name in capitals or small letters. No name stands for the console. -/
def encodingOf (name : String) : Outcome LogEncoding :=
  match String.ofList (name.toList.map Char.toLower) with
  | "console" | "" => .ok .console
  | "json" => .ok .json
  | _ => Outcome.fail (.unknownEncoding name)

def create (tree : FileTree) (stamp : LogStamp) (logging : Config.Logging) : Outcome (Logger × FileTree) :=
  Outcome.during .creatingLogger do
    let encoding ← encodingOf logging.encoding
    match Sink.openAll tree logging.outputPaths with
    | ([], sinks, tree) => return ({ level := logging.level, encoding, sinks, stamp }, tree)
    | (errors, _, _) => Outcome.fail (.sinks errors)

/-- A line is written where its level comes no earlier than that of the logger. -/
def writes (logger : Logger) (line : LogLine) : Bool :=
  decide (Config.levels.idxOf logger.level ≤ Config.levels.idxOf line.level.name)

def consoleText (stamp : LogStamp) (line : LogLine) : String :=
  "\t".intercalate [stamp.moment, line.level.name.map Char.toUpper, "sim", line.text,
    "\x7b\"run\": " ++ (Json.string stamp.run).text ++ "\x7d"]

def jsonText (stamp : LogStamp) (line : LogLine) : String :=
  (Json.object [
    ("level", .string (line.level.name.map Char.toUpper)), ("ts", .string stamp.moment),
    ("logger", .string "sim"),
    ("msg", .string line.text), ("run", .string stamp.run)]).text

def text (logger : Logger) (line : LogLine) : String :=
  (match logger.encoding with
    | .console => consoleText logger.stamp line
    | .json => jsonText logger.stamp line) ++ "\n"

def record (logger : Logger) (lines : List LogLine) (tree : FileTree) : FileTree :=
  let text := String.join ((lines.filter logger.writes).map logger.text)
  logger.sinks.foldl (fun tree sink =>
    match sink with
    | .file path => (tree.append path text).toOption.getD tree
    | _ => tree) tree

end Logger

end Lineside
