import Lineside.Number.Decimal
import Lineside.Text.Quoted

/-!
Flags of a command line. A flag is written `--name=value` or `--name value`; a switch may do without its
value. Flags and other arguments may alternate, and two dashes end the flags.
-/

namespace Lineside

inductive FlagKind where
  | text
  | integer
  | switch
  deriving DecidableEq, Repr

structure Flag where
  name : String
  kind : FlagKind
  short : Option Char := none
  deriving DecidableEq, Repr

namespace Flag

def shown (flag : Flag) : String :=
  match flag.short with
  | some c => "-" ++ c.toString ++ ", --" ++ flag.name
  | none => "--" ++ flag.name

def help : Flag := { name := "help", kind := .switch, short := some 'h' }

end Flag

inductive FlagValue where
  | text (value : String)
  | integer (value : Int64)
  | switch (value : Bool)
  deriving DecidableEq, Repr

structure Setting where
  name : String
  value : FlagValue
  deriving DecidableEq, Repr

inductive FlagError where
  | badForm (argument : String)
  | unknown (name : String)
  /-- A short flag, and what is left of its cluster from there on. -/
  | unknownShort (cluster : String)
  | noValue (name : String)
  | notInteger (flag : Flag) (value : String) (reason : Decimal.IntegerError)
  | notSwitch (flag : Flag) (value : String)
  deriving DecidableEq, Repr

namespace FlagError

def reason : Decimal.IntegerError → String
  | .badForm => "invalid syntax"
  | .outOfRange => "value out of range"

def invalid (flag : Flag) (value reader reason : String) : String :=
  "invalid argument " ++ Text.quoted value ++ " for " ++ Text.quoted flag.shown ++
    " flag: strconv." ++ reader ++
    ": parsing " ++ Text.quoted value ++ ": " ++ reason

/-- The letter of a short flag that is not ASCII is shown by the lead byte of its Latin-1 letter. -/
def shortLetter (cluster : String) : Char :=
  match cluster.toList with
  | c :: _ => if c.toNat < 0x80 then c else 'Ã'
  | [] => '-'

def message : FlagError → String
  | .badForm argument => "bad flag syntax: " ++ argument
  | .unknown name => "unknown flag: --" ++ name
  | .unknownShort cluster =>
    "unknown shorthand flag: " ++ Text.quotedCharacter (shortLetter cluster) ++ " in -" ++ cluster
  | .noValue name => "flag needs an argument: --" ++ name
  | .notInteger flag value why => invalid flag value "ParseInt" (reason why)
  | .notSwitch flag value => invalid flag value "ParseBool" "invalid syntax"

end FlagError

namespace Flag

def switchValue? (text : String) : Option Bool :=
  if ["1", "t", "T", "TRUE", "true", "True"].contains text then some true
  else if ["0", "f", "F", "FALSE", "false", "False"].contains text then some false
  else none

def read (flag : Flag) (value : String) : Except FlagError Setting :=
  match flag.kind with
  | .text => .ok ⟨flag.name, .text value⟩
  | .integer =>
    match Decimal.integer value with
    | .ok number => .ok ⟨flag.name, .integer number⟩
    | .error why => .error (.notInteger flag value why)
  | .switch =>
    match switchValue? value with
    | some switch => .ok ⟨flag.name, .switch switch⟩
    | none => .error (.notSwitch flag value)

def splitValue (argument : List Char) : String × Option String :=
  let name := String.ofList (argument.takeWhile (· != '='))
  match argument.dropWhile (· != '=') with
  | [] => (name, none)
  | _ :: value => (name, some (String.ofList value))

/-- The start of an argument that is meant for somebody else who reads the command line. -/
def foreignStart : List Char := "test.".toList

/-- Reads a cluster of short flags, of which only switches exist. A foreign argument is passed over. -/
def readShort (flags : List Flag) : List Char → Except FlagError (List Setting)
  | [] => .ok []
  | c :: rest =>
    if foreignStart.isPrefixOf (c :: rest) then .ok [] else
    match flags.find? (·.short == some c) with
    | none => .error (.unknownShort (String.ofList (c :: rest)))
    | some flag =>
      match rest with
      | '=' :: first :: more => return [← flag.read (String.ofList (first :: more))]
      | _ => return (← flag.read "true") :: (← readShort flags rest)

def readAll (flags : List Flag) : List String → Except FlagError (List Setting)
  | [] => .ok []
  | argument :: rest =>
    match argument.toList with
    | ['-', '-'] => .ok []
    | '-' :: '-' :: body =>
      if body.head? = some '-' ∨ body.head? = some '=' then .error (.badForm argument) else
      let (name, value) := splitValue body
      match flags.find? (·.name == name) with
      | none => .error (.unknown name)
      | some flag =>
        match value with
        | some value => return (← flag.read value) :: (← readAll flags rest)
        | none =>
          if flag.kind = .switch then return (← flag.read "true") :: (← readAll flags rest)
          else match rest with
            | [] => .error (.noValue name)
            | value :: rest => return (← flag.read value) :: (← readAll flags rest)
    | '-' :: c :: body => return (← readShort flags (c :: body)) ++ (← readAll flags rest)
    | _ => readAll flags rest

def others (flags : List Flag) : List String → List String
  | [] => []
  | argument :: rest =>
    match argument.toList with
    | ['-', '-'] => rest
    | '-' :: '-' :: body =>
      let (name, value) := splitValue body
      let alone := value.isSome || flags.any fun flag => flag.name == name && flag.kind == .switch
      match alone, rest with
      | false, _ :: rest => others flags rest
      | _, rest => others flags rest
    | '-' :: _ :: _ => others flags rest
    | _ => argument :: others flags rest

end Flag

namespace Setting

def last? (settings : List Setting) (name : String) : Option FlagValue :=
  (settings.reverse.find? (·.name == name)).map (·.value)

def text? (settings : List Setting) (name : String) : Option String :=
  match last? settings name with
  | some (.text value) => some value
  | _ => none

def integer? (settings : List Setting) (name : String) : Option Int64 :=
  match last? settings name with
  | some (.integer value) => some value
  | _ => none

def switch? (settings : List Setting) (name : String) : Option Bool :=
  match last? settings name with
  | some (.switch value) => some value
  | _ => none

end Setting

end Lineside
