import Lineside.Number.Binary
import Lineside.Text.Name
import Lineside.Yaml.Basic
import Lineside.Yaml.Scalar

/-!
From YAML nodes to typed values. Null leaves a value as it was, makes an optional value absent and a list
empty, and is dropped from a list. Every conversion that fails refuses the whole document.
-/

namespace Lineside.Yaml

def isNullNode : Yaml → Bool
  | .scalar true text => isNull text
  | _ => false

def toName (current : Name) : Yaml → Option Name
  | .scalar plain text => if plain && isNull text then some current else some text
  | .binary name => some name
  | .fraction _ text => some text
  | _ => none

def toText (current : String) : Yaml → Option String
  | .scalar plain text => if plain && isNull text then some current else some text
  | .binary name => some name.text
  | .fraction _ text => some text
  | _ => none

/-- The integer of a fraction, which loses its decimals. Below the range of integers it becomes the least one. -/
def ofFraction (value : Float) : Option Int64 :=
  if value ≤ 9223372036854775808.0 then some (Binary.ofFloat value).toInt64 else none

def toInt (current : Int64) : Yaml → Option Int64
  | .scalar true text =>
    match Scalar.ofPlain text with
    | .null => some current
    | .int value => Integer.ofInt? value
    | .float value => ofFraction value
    | _ => none
  | .fraction value _ => ofFraction value
  | _ => none

def boolWord? (text : String) : Option Bool :=
  if ["y", "Y", "yes", "Yes", "YES", "on", "On", "ON"].contains text then some true
  else if ["n", "N", "no", "No", "NO", "off", "Off", "OFF"].contains text then some false
  else none

/-- Besides the two truth values, some words are taken for them, quoted or not. -/
def toBool (current : Bool) : Yaml → Option Bool
  | .scalar plain text =>
    if plain then
      match Scalar.ofPlain text with
      | .null => some current
      | .bool value => some value
      | .text => boolWord? text
      | _ => none
    else boolWord? text
  | .binary name => boolWord? name.text
  | _ => none

def toFloat32 (current : Float32) : Yaml → Option Float32
  | .scalar true text =>
    match Scalar.ofPlain text with
    | .null => some current
    | .int value => some (Float.ofInt value).toFloat32
    | .float value => some value.toFloat32
    | _ => none
  | .fraction value _ => some value.toFloat32
  | _ => none

def toOptionalInt (node : Yaml) : Option (Option Int64) :=
  if node.isNullNode then some none else some <$> node.toInt 0

/-- The items of a list, without those that are null. -/
def toItems : Yaml → Option (List Yaml)
  | .sequence items => some (items.filter fun item => !item.isNullNode)
  | node => if node.isNullNode then some [] else none

def toList (convert : Yaml → Option α) (node : Yaml) : Option (List α) := do
  (← node.toItems).mapM convert

/-- Fills the fields of a record from the entries of a mapping, in order. Keys that are null, or that
`field` does not know, are passed over; a key must be a scalar. -/
def foldFields (field : String → Yaml → α → Option α) : List (Yaml × Yaml) → α → Option α
  | [], record => some record
  | (key, value) :: rest, record =>
    match key with
    | .scalar plain text =>
      if plain && isNull text then foldFields field rest record
      else (field text value record).bind (foldFields field rest)
    | _ => none

def toRecord (field : String → Yaml → α → Option α) (record : α) : Yaml → Option α
  | .mapping entries => if keysDiffer entries then foldFields field entries record else none
  | node => if node.isNullNode then some record else none

def toOptionalRecord (field : String → Yaml → α → Option α) (initial : α) (node : Yaml) : Option (Option α) :=
  if node.isNullNode then some none else some <$> node.toRecord field initial

end Lineside.Yaml
