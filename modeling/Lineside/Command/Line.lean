import Lineside.Command.Flag
import Lineside.Error

/-!
The command line: which command is meant, and with which flags. The first argument that is no flag, and
no value of one, names the command; an unknown name is answered with those that come close to it.
-/

namespace Lineside

inductive Command where
  | root
  | run
  | validate
  | functions
  | help
  | completion
  | completionFor (shell : String)
  deriving DecidableEq, Repr

namespace Command

def program : String := "sigscript-sim"

def shells : List String := ["bash", "zsh", "fish", "powershell"]

def all : List Command := [.run, .validate, .functions, .help, .completion]

def name : Command → String
  | .root => program
  | .run => "run"
  | .validate => "validate"
  | .functions => "functions"
  | .help => "help"
  | .completion => "completion"
  | .completionFor shell => shell

def path : Command → String
  | .root => program
  | .completionFor shell => program ++ " completion " ++ shell
  | command => program ++ " " ++ command.name

def flags : Command → List Flag
  | .run => [
      { name := "config", kind := .text }, { name := "layout", kind := .text },
      { name := "scripts", kind := .text },
      { name := "ticks", kind := .integer }, { name := "script-debug", kind := .switch },
      { name := "realtime", kind := .switch }, { name := "watch", kind := .switch },
      { name := "metrics", kind := .text }, .help]
  | .validate => [{ name := "scripts", kind := .text }, .help]
  | .completionFor _ => [{ name := "no-descriptions", kind := .switch }, .help]
  | _ => [.help]

/-- An argument that takes the next one as its value, as far as the root knows. -/
def takesValue (argument : String) : Bool :=
  match argument.toList with
  | '-' :: '-' :: _ => !argument.toList.contains '='
  | ['-', c] => c != '=' && decide (c.toNat < 0x80)
  | _ => false

def isFlag (argument : String) : Bool := argument.toList.head? == some '-'

def first? : List String → Option String
  | [] => none
  | argument :: rest =>
    if argument = "--" then none
    else if takesValue argument then
      match rest with
      | _ :: next :: more => first? (next :: more)
      | _ => none
    else if argument ≠ "" ∧ !isFlag argument then some argument
    else first? rest

def without (name : String) : List String → List String
  | [] => []
  | argument :: rest =>
    if argument = "--" then argument :: rest
    else if takesValue argument then
      match rest with
      | value :: more => argument :: value :: without name more
      | [] => [argument]
    else if argument = name then rest
    else argument :: without name rest

/-- The number of bytes to be inserted, dropped or replaced to turn one text into the other. -/
def distance (a b : List UInt8) : Nat :=
  let step (previous : List Nat) (x : UInt8) : List Nat :=
    let start := previous.headD 0 + 1
    let cells := (previous.zip (previous.drop 1)).zip b
    (cells.foldl (fun (row : List Nat × Nat) ((diagonal, above), y) =>
      let cell := if x = y then diagonal else min (min (row.2 + 1) (above + 1)) (diagonal + 1)
      (row.1 ++ [cell], cell)) ([start], start)).1
  ((a.foldl step (List.range (b.length + 1))).getLast?).getD 0

/-- Capitals beyond ASCII whose small letter is ASCII, or takes another number of bytes. -/
def unevenCapitals : List (Nat × Nat) := [
  (0x130, 0x69), (0x23a, 0x2c65), (0x23e, 0x2c66), (0x1e9e, 0xdf), (0x2126, 0x3c9),
  (0x212a, 0x6b), (0x212b, 0xe5),
  (0x2c62, 0x26b), (0x2c64, 0x27d), (0x2c6d, 0x251), (0x2c6e, 0x271), (0x2c6f, 0x250), (0x2c70, 0x252),
  (0x2c7e, 0x23f), (0x2c7f, 0x240), (0xa78d, 0x265), (0xa7aa, 0x266), (0xa7ab, 0x25c), (0xa7ac, 0x261),
  (0xa7ad, 0x26c), (0xa7ae, 0x26a), (0xa7b0, 0x29e), (0xa7b1, 0x287), (0xa7b2, 0x29d), (0xa7c5, 0x282),
  (0xa7cb, 0x264), (0xa7dc, 0x19b)]

/-- The small letter of a character. Letters that are as far from every plain letter as their small
letter, and as long, stay. -/
def lowered (c : Char) : Char :=
  match unevenCapitals.lookup c.toNat with
  | some small => Char.ofNat small
  | none => c.toLower

/-- The commands whose name is nearly, or starts with, what was given. Help is never among them. -/
def suggestions (given : String) : List String :=
  let typed := given.toList.map lowered
  let near (name : String) : Bool :=
    decide (distance (String.ofList typed).toUTF8.toList name.toUTF8.toList ≤ 2) ||
      typed.isPrefixOf name.toList
  (all.filter (· != .help)).map name |>.filter near

def refine (command : Command) (arguments : List String) : Command × List String :=
  match command, first? arguments with
  | .completion, some given =>
    if shells.contains given then (.completionFor given, without given arguments) else (command, arguments)
  | _, _ => (command, arguments)

def find (arguments : List String) : Outcome (Command × List String) :=
  match first? arguments with
  | none => .ok (.root, arguments)
  | some given =>
    match all.find? (·.name == given) with
    | some command => .ok (command.refine (without given arguments))
    | none => Outcome.fail (.unknownCommand program given (suggestions given))

structure Call where
  command : Command
  settings : List Setting
  others : List String := []

def Call.helps (call : Call) : Bool := Setting.switch? call.settings "help" == some true

/-- Only the completion of a shell refuses further arguments. -/
def Call.checkOthers (call : Call) : Outcome Unit :=
  match call.command, call.others with
  | .completionFor shell, other :: _ =>
    if call.helps then .ok () else Outcome.fail (.unknownCommand (completionFor shell).path other [])
  | _, _ => .ok ()

def read (arguments : List String) : Outcome Call := do
  let (command, rest) ← find arguments
  let settings ← Outcome.because .flag (Flag.readAll command.flags rest)
  let call : Call := { command, settings, others := Flag.others command.flags rest }
  call.checkOthers
  return call

end Command

end Lineside
