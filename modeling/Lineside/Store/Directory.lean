import Lineside.Files.View
import Lineside.Store.Basic

/-!
Scripts kept in a directory: reading all of them, storing them, and storing single ones again when their
file changes.
-/

namespace Lineside

namespace Script

/-- A file holds a script where its extension is one of three, in either case. -/
def isFileName (name : String) : Bool :=
  [".yaml", ".yml", ".json"].contains (String.ofList ((Path.extension name).toList.map Char.toLower))

def fromFile (files : Files) (path : String) : Outcome Script := do
  let bytes ← files.readDuring (.readingScript path) path
  Outcome.during (.parsingScript path) (parse bytes)

def fileNames (entries : List DirectoryEntry) : List String :=
  ((entries.filter fun entry => !entry.isDirectory && isFileName entry.name).map (·.name)).mergeSort
    fun a b => decide (a ≤ b)

def fromDirectory (files : Files) (directory : String) : Outcome (List Script) := do
  let entries ← Outcome.during (.listingScripts directory) (Outcome.because .path (files.list directory))
  (fileNames entries).mapM fun name => fromFile files (Path.join directory name)

end Script

namespace Store

/-- Stores scripts one after the other, up to the first that is refused. -/
def putAll : List Script → Store → Outcome Unit × Store × List Notice
  | [], store => (.ok (), store, [])
  | script :: rest, store =>
    match store.put (some script) with
    | (.error error, store) => (.error error, store, [])
    | (.ok notice, store) =>
      let (outcome, store, notices) := putAll rest store
      (outcome, store, notice :: notices)

/-- Stores every script of a directory and counts them. All of them are read before the first is stored;
those stored before one is refused stay. -/
def loadDirectory (store : Store) (files : Files) (directory : String) : Outcome Nat × Store × List Notice :=
  match Script.fromDirectory files directory with
  | .error error => (.error error, store, [])
  | .ok scripts =>
    match putAll scripts store with
    | (.error error, store, notices) => (.error error, store, notices)
    | (.ok (), store, notices) =>
      (.ok scripts.length, store, notices ++ [.loaded scripts.length directory])

def watch (files : Files) (directory : String) : Outcome Notice :=
  Outcome.during (.watching directory) <|
    match files.read (Path.clean directory) with
    | .ok _ => .ok (.watching directory)
    | .error reason =>
      if reason.problem = .isDirectory then .ok (.watching directory)
      else Outcome.fail (.unwatchable reason.problem)

/-- Stores the script of a file that has changed. A file without a valid script changes nothing. -/
def reload (store : Store) (files : Files) (path : String) : Store × List Notice :=
  match Script.fromFile files path with
  | .error error => (store, [.unreadable error])
  | .ok script =>
    match store.put (some script) with
    | (.error error, store) => (store, [.refused path error])
    | (.ok notice, store) => (store, [notice, .reloaded script.name path])

def follow (store : Store) (files : Files) (directory name : String) : Store × List Notice :=
  if Script.isFileName name then store.reload files (Path.clean directory ++ "/" ++ name) else (store, [])

end Store

end Lineside
