import Lineside.Text.Name

/-!
YAML nodes: as they are written, with names that other nodes refer to and with types, and as what they come to. A scalar
keeps its text and whether it was written without quotes, since only then the text may stand for something else than
itself.
-/

namespace Lineside

inductive Yaml where
  | scalar (plain : Bool) (text : String)
  | binary (name : Name)
  /-- A whole number that is to be taken for a fraction. -/
  | fraction (value : Float) (text : String)
  | sequence (items : List Yaml)
  | mapping (entries : List (Yaml × Yaml))
  /-- A node that nothing can be made of. -/
  | unfit
  deriving Repr

namespace Yaml

def empty : Yaml := .scalar true ""

def keyText : Yaml → Option String
  | .scalar _ text => some text
  | _ => none

def keysDiffer : List (Yaml × Yaml) → Bool
  | [] => true
  | (key, _) :: rest =>
    !(key.keyText.any fun text => rest.any fun (other, _) => other.keyText == some text) &&
    keysDiffer rest

/-- A type given to a node: what is written of it, and the handle in front that stands for the rest. -/
structure Tag where
  handle : String
  suffix : Name
  deriving DecidableEq, Repr

inductive Raw where
  | scalar (plain : Bool) (text : String)
  | sequence (items : List Raw)
  | mapping (entries : List (Raw × Raw))
  | reference (anchor : String)
  | marked (anchor : Option String) (tag : Option Tag) (node : Raw)
  deriving Repr

namespace Raw

def empty : Raw := .scalar true ""

end Raw

end Yaml

end Lineside
