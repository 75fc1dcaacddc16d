import Lineside.Files.Path

/-!
A tree of files below a working directory, as a value. Every operation answers as an operating system
does: a path that leads through a file, names a directory, names nothing or is too long is refused.
-/

namespace Lineside

inductive PathProblem where
  | missing
  | isDirectory
  | notDirectory
  | occupied
  | tooLong
  | invalid
  deriving DecidableEq, Repr

namespace PathProblem

def message : PathProblem → String
  | .missing => "no such file or directory"
  | .isDirectory => "is a directory"
  | .notDirectory => "not a directory"
  | .occupied => "file exists"
  | .tooLong => "file name too long"
  | .invalid => "invalid argument"

end PathProblem

structure PathError where
  operation : String
  path : String
  problem : PathProblem
  deriving DecidableEq, Repr

namespace PathError

def message (error : PathError) : String :=
  error.operation ++ " " ++ error.path ++ ": " ++ error.problem.message

end PathError

inductive FileNode where
  | file (bytes : ByteArray)
  /-- It holds nothing, and what is written to it is gone. -/
  | device
  | directory

def FileNode.isDirectory : FileNode → Bool
  | directory => true
  | _ => false

structure DirectoryEntry where
  name : String
  isDirectory : Bool := false
  deriving DecidableEq, Repr

/-- The names that lead somewhere from the working directory. Only the first ones can be `..`, and the
very first one is `/` where the way starts at the root of all directories. -/
abbrev Place := List String

namespace Place

def root : Place := ["/"]

def isAround (place : Place) : Bool := place.getLast?.all fun name => name == ".." || name == "/"

def up (place : Place) : Place :=
  if place = root then root
  else if place.isAround then place ++ [".."]
  else place.dropLast

/-- What every system has outside the working directory. -/
def outside : List (Place × FileNode) := [
  (["/", "dev"], .directory), (["/", "dev", "null"], .device), (["/", "tmp"], .directory)]

end Place

namespace Path

def limit : Nat := 4096

def nameLimit : Nat := 255

def start (path : String) : Except PathProblem (Place × List String) :=
  if path.toList.contains '\x00' then .error .invalid
  else if path = "" then .error .missing
  else if limit ≤ path.utf8ByteSize then .error .tooLong
  else .ok (if path.toList.head? = some '/' then Place.root else [], split path)

end Path

structure FileTree where
  nodes : List (Place × FileNode) := []

namespace FileTree

/-- What is at a place. The directories around the working directory and itself always exist. -/
def node? (tree : FileTree) (place : Place) : Option FileNode :=
  if place.isAround then some .directory
  else (tree.nodes.lookup place).or (Place.outside.lookup place)

/-- Goes from a directory to what a name stands for in it, whether that exists or not. -/
def step (tree : FileTree) (place : Place) (name : String) : Except PathProblem Place :=
  match tree.node? place with
  | none => .error .missing
  | some .directory =>
    if name = "" ∨ name = "." then .ok place
    else if name = ".." then .ok place.up
    else if Path.nameLimit < name.utf8ByteSize then .error .tooLong
    else .ok (place ++ [name])
  | some _ => .error .notDirectory

def find (tree : FileTree) (path : String) : Except PathProblem (Place × FileNode) := do
  let (place, names) ← Path.start path
  let place ← names.foldlM tree.step place
  match tree.node? place with
  | some node => .ok (place, node)
  | none => .error .missing

def read (tree : FileTree) (path : String) : Except PathError ByteArray :=
  match tree.find path with
  | .ok (_, .file bytes) => .ok bytes
  | .ok (_, .device) => .ok .empty
  | .ok (_, .directory) => .error ⟨"read", path, .isDirectory⟩
  | .error problem => .error ⟨"open", path, problem⟩

def list (tree : FileTree) (path : String) : Except PathError (List DirectoryEntry) :=
  match tree.find path with
  | .ok (place, .directory) =>
    .ok (tree.nodes.filterMap fun (other, node) =>
      match other.getLast? with
      | some name => if other.dropLast = place then some ⟨name, node.isDirectory⟩ else none
      | none => none)
  | .ok _ => .error ⟨"open", path, .notDirectory⟩
  | .error problem => .error ⟨"open", path, problem⟩

def insert (tree : FileTree) (place : Place) (node : FileNode) : FileTree :=
  { nodes := (place, node) :: tree.nodes.filter (·.1 != place) }

def insertDirectories (tree : FileTree) (place : Place) : FileTree :=
  (List.range (place.length + 1)).foldl (fun tree count =>
    let place := place.take count
    match tree.node? place with
    | some _ => tree
    | none => tree.insert place .directory) tree

/-- Adds a file with the directories around it, or a directory where the path ends in a slash. -/
def add (tree : FileTree) (path : String) (bytes : ByteArray) : FileTree :=
  let place := (Path.split path).filter fun part => part != "" && part != "."
  if path.toList.getLast? = some '/' then tree.insertDirectories place
  else (tree.insertDirectories place.dropLast).insert place (.file bytes)

/-- Where a path ends: the directory that its last name is looked up in, that name, and whether slashes
follow it. A path of slashes has no last name. -/
def ending (tree : FileTree) (path : String) : Except PathProblem (Place × String × Bool) := do
  let (place, names) ← Path.start path
  let named := (names.reverse.dropWhile (· == "")).reverse
  let around ← named.dropLast.foldlM tree.step place
  let around ← tree.step around "."
  return (around, named.getLast?.getD ".", named.length < names.length)

def makeOne (tree : FileTree) (path : String) : Except PathProblem FileTree := do
  let (around, name, _) ← tree.ending path
  let place ← tree.step around name
  match tree.node? place with
  | some _ => .error .occupied
  | none => .ok (tree.insert place .directory)

/-- Creates the first of the given directories. Each of them lies in the next, which is created before it
where nothing is found at the first. -/
def makeNested (tree : FileTree) : List String → Except PathError FileTree
  | [] => .ok tree
  | path :: around =>
    match tree.find path with
    | .ok (_, .directory) => .ok tree
    | .ok _ => .error ⟨"mkdir", path, .notDirectory⟩
    | .error _ => do
      let tree ← tree.makeNested around
      (tree.makeOne path).mapError fun problem => ⟨"mkdir", path, problem⟩

def makeDirectory (tree : FileTree) (path : String) : Except PathError FileTree :=
  tree.makeNested (path :: Path.around path)

/-- Where a file is to be written, and what stands there. Where there is nothing, that is an empty file. -/
def target (tree : FileTree) (path : String) : Except PathProblem (Place × FileNode) := do
  let (around, name, slashed) ← tree.ending path
  if slashed then .error .isDirectory
  let place ← tree.step around name
  match tree.node? place with
  | some .directory => .error .isDirectory
  | some node => .ok (place, node)
  | none => .ok (place, .file .empty)

def change (tree : FileTree) (path : String) (written : ByteArray → ByteArray) : Except PathError FileTree :=
  match tree.target path with
  | .ok (place, .file before) => .ok (tree.insert place (.file (written before)))
  | .ok _ => .ok tree
  | .error problem => .error ⟨"open", path, problem⟩

def write (tree : FileTree) (path text : String) : Except PathError FileTree :=
  tree.change path fun _ => text.toUTF8

def append (tree : FileTree) (path text : String) : Except PathError FileTree :=
  tree.change path (· ++ text.toUTF8)

end FileTree

end Lineside
