import Lineside.Document.Draft
import Lineside.Json.Reader
import Lineside.Number.Decimal

/-!
Script documents read from stored JSON text. Keys match in any letter case, and unknown ones are ignored.
A key that is repeated is read into what was there: records and the items of lists are refined, and null
leaves plain values as they were.
-/

namespace Lineside.Document

/-- A key without regard to letter case. The long s and the Kelvin sign count as letters of the
alphabet. -/
def foldKey (key : String) : String :=
  key.map fun c =>
    if c.toNat = 0x17F then 's' else if c.toNat = 0x212A then 'k' else c.toLower

def textOf (current : String) : Json → Option String
  | .null => some current
  | .string text => some text
  | _ => none

def boolOf (current : Bool) : Json → Option Bool
  | .null => some current
  | .bool value => some value
  | _ => none

def integerOf? (text : String) : Option Int64 :=
  let (negative, digits) := Decimal.sign text.toList
  match Decimal.natural? 10 digits with
  | none => none
  | some magnitude => (Decimal.signed negative magnitude).toOption

def intOf (current : Int64) : Json → Option Int64
  | .null => some current
  | .number text => integerOf? text
  | _ => none

def optionalIntOf : Json → Option (Option Int64)
  | .null => some none
  | .number text => some <$> integerOf? text
  | _ => none

/-- Reads items, each into the one that stood in its place. -/
def itemsInto (read : Json → α → Option α) (initial : α) : List Json → List α → Option (List α)
  | [], _ => some []
  | item :: rest, current => do
    return (← read item (current.headD initial)) :: (← itemsInto read initial rest current.tail)

def slotsInto (read : Json → α → Option α) (initial : α) (current : Slots α) : Json → Option (Slots α)
  | .null => some {}
  | .array items => current.refill <$> itemsInto read initial items current.all
  | _ => none

def recordInto (field : String → Json → α → Option α) : Json → α → Option α
  | .null, record => some record
  | .object members, record =>
    members.foldlM (fun record (key, value) => field (foldKey key) value record) record
  | _, _ => none

def optionalInto (field : String → Json → α → Option α) (initial : α) (current : Option α) :
    Json → Option (Option α)
  | .null => some none
  | value => some <$> recordInto field value (current.getD initial)

namespace Param

def jsonField (key : String) (value : Json) (param : Param) : Option Param :=
  match key with
  | "constant" => return { param with constant := ← optionalIntOf value }
  | "name" => return { param with name := ← textOf param.name value }
  | "local" => return { param with localVar := ← optionalIntOf value }
  | "external" => return { param with slot := ← textOf param.slot value }
  | "minus" => return { param with minus := ← boolOf param.minus value }
  | _ => some param

end Param

namespace Target

def jsonField (key : String) (value : Json) (target : Target) : Option Target :=
  match key with
  | "local" => return { target with localVar := ← optionalIntOf value }
  | "external" => return { target with slot := ← textOf target.slot value }
  | _ => some target

end Target

namespace Draft

namespace Term

def jsonField (key : String) (value : Json) (term : Term) : Option Term :=
  match key with
  | "function" => return { term with function := ← textOf term.function value }
  | "params" => return { term with params := ← slotsInto (recordInto Param.jsonField) {} term.params value }
  | "op" => return { term with operator := ← textOf term.operator value }
  | "negate" => return { term with negate := ← boolOf term.negate value }
  | "minus" => return { term with minus := ← boolOf term.minus value }
  | "sublevel" => return { term with sublevel := ← intOf term.sublevel value }
  | "sublevel2" => return { term with sublevel2 := ← intOf term.sublevel2 value }
  | _ => some term

end Term

namespace Condition

def jsonField (key : String) (value : Json) (condition : Condition) : Option Condition :=
  match key with
  | "kind" => return { condition with kind := ← textOf condition.kind value }
  | "term1" => return { condition with term1 := ← optionalInto Term.jsonField {} condition.term1 value }
  | "term2" => return { condition with term2 := ← optionalInto Term.jsonField {} condition.term2 value }
  | "compare" => return { condition with compare := ← textOf condition.compare value }
  | "negate" => return { condition with negate := ← boolOf condition.negate value }
  | _ => some condition

end Condition

mutual

def conditionInto : Json → Condition → Option Condition
  | .null, condition => some condition
  | .object members, condition => conditionMembers members condition
  | _, _ => none

def conditionMembers : List (String × Json) → Condition → Option Condition
  | [], condition => some condition
  | (key, value) :: rest, condition =>
    if foldKey key = "group" then
      (conditionsInto value condition.group).bind fun group => conditionMembers rest { condition with group }
    else (Condition.jsonField (foldKey key) value condition).bind fun condition =>
      conditionMembers rest condition

def conditionsInto : Json → Slots Condition → Option (Slots Condition)
  | .null, _ => some {}
  | .array items, current => current.refill <$> conditionItemsInto items current.all
  | _, _ => none

def conditionItemsInto : List Json → List Condition → Option (List Condition)
  | [], _ => some []
  | item :: rest, current => do
    return (← conditionInto item (current.headD {})) :: (← conditionItemsInto rest current.tail)

end

namespace Node

def jsonField (key : String) (value : Json) (node : Node) : Option Node :=
  match key with
  | "kind" => return { node with kind := ← textOf node.kind value }
  | "target" => return { node with target := ← optionalInto Target.jsonField {} node.target value }
  | "terms" => return { node with terms := ← slotsInto (recordInto Term.jsonField) {} node.terms value }
  | "conditions" => return { node with conditions := ← conditionsInto value node.conditions }
  | _ => some node

end Node

mutual

def nodeInto : Json → Node → Option Node
  | .null, node => some node
  | .object members, node => nodeMembers members node
  | _, _ => none

def nodeMembers : List (String × Json) → Node → Option Node
  | [], node => some node
  | (key, value) :: rest, node =>
    if foldKey key = "then" then
      (nodesInto value node.body).bind fun body => nodeMembers rest { node with body }
    else if foldKey key = "elseif" then
      (armsInto value node.elseIf).bind fun elseIf => nodeMembers rest { node with elseIf }
    else if foldKey key = "else" then
      (nodesInto value node.otherwise).bind fun otherwise => nodeMembers rest { node with otherwise }
    else (Node.jsonField (foldKey key) value node).bind fun node => nodeMembers rest node

def nodesInto : Json → Slots Node → Option (Slots Node)
  | .null, _ => some {}
  | .array items, current => current.refill <$> nodeItemsInto items current.all
  | _, _ => none

def nodeItemsInto : List Json → List Node → Option (List Node)
  | [], _ => some []
  | item :: rest, current => do
    return (← nodeInto item (current.headD {})) :: (← nodeItemsInto rest current.tail)

def armInto : Json → Arm Node → Option (Arm Node)
  | .null, arm => some arm
  | .object members, arm => armMembers members arm
  | _, _ => none

def armMembers : List (String × Json) → Arm Node → Option (Arm Node)
  | [], arm => some arm
  | (key, value) :: rest, arm =>
    if foldKey key = "conditions" then
      (conditionsInto value arm.conditions).bind fun conditions => armMembers rest { arm with conditions }
    else if foldKey key = "then" then
      (nodesInto value arm.body).bind fun body => armMembers rest { arm with body }
    else armMembers rest arm

def armsInto : Json → Slots (Arm Node) → Option (Slots (Arm Node))
  | .null, _ => some {}
  | .array items, current => current.refill <$> armItemsInto items current.all
  | _, _ => none

def armItemsInto : List Json → List (Arm Node) → Option (List (Arm Node))
  | [], _ => some []
  | item :: rest, current => do
    return (← armInto item (current.headD {})) :: (← armItemsInto rest current.tail)

end

namespace Script

def jsonField (key : String) (value : Json) (script : Script) : Option Script :=
  match key with
  | "name" => return { script with name := ← textOf script.name value }
  | "locals" => return { script with localCount := ← intOf script.localCount value }
  | "statements" => return { script with statements := ← nodesInto value script.statements }
  | _ => some script

end Script

end Draft

def Script.ofStored (text : String) : Option Script := do
  return (← recordInto Draft.Script.jsonField (← Json.parse text) {}).document

end Lineside.Document
