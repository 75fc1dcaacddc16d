import Lineside.Number.Integer
import Lineside.Text.Base64
import Lineside.Yaml.Basic
import Lineside.Yaml.Scalar
import Lineside.Yaml.Timestamp

/-!
Types given to nodes. Handles stand for the beginning of a type's name. A type decides what a scalar stands for, quoted
or not, and is refused where the text does not fit it; the types of collections are not looked at.
-/

namespace Lineside.Yaml

abbrev Handles := List (String × Name)

def Handles.usual : Handles := [("!", "!"), ("!!", "tag:yaml.org,2002:")]

/-- The beginning that the types of the language share, for which two marks can stand. -/
def shortened (tag : Name) : Name :=
  let long := Name.ofText "tag:yaml.org,2002:"
  if long.bytes.isPrefixOf tag.bytes then ⟨(Name.ofText "!!").bytes ++ tag.bytes.drop long.bytes.length⟩ else tag

def Tag.resolve (handles : Handles) (tag : Tag) : Option Name :=
  if tag.handle = "" then some (shortened tag.suffix)
  else ((handles ++ Handles.usual).lookup tag.handle).map fun start => shortened ⟨start.bytes ++ tag.suffix.bytes⟩

def scalarOf (tag : Name) (plain : Bool) (text : String) : Yaml :=
  let kept (fits : Bool) : Yaml := if fits then .scalar true text else .unfit
  if tag = "!" then .scalar plain text
  else if tag = "!!str" then .scalar false text
  else if tag = "!!binary" then ((Base64.decode text).map fun bytes => .binary ⟨bytes⟩).getD .unfit
  else if tag = "!!timestamp" then if isTimestamp text then .scalar false text else .unfit
  else if tag = "!!merge" then kept (text == "<<")
  else
    match Scalar.ofPlain text with
    | .null => kept (tag == "!!null")
    | .bool _ => kept (tag == "!!bool")
    | .float _ => kept (tag == "!!float")
    | .int value =>
      if tag = "!!float" ∧ (Integer.ofInt? value).isSome then .fraction (Float.ofInt value) text
      else kept (tag == "!!int")
    | .text => .unfit

def typed (tag : Name) : Yaml → Yaml
  | .scalar plain text => scalarOf tag plain text
  | node => node

end Lineside.Yaml
