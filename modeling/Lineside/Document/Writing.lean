import Lineside.Document.Basic
import Lineside.Json.Basic
import Lineside.Script.Basic

/-!
From scripts to documents, and the compact JSON text under which a document is stored. What a document
cannot express is left out: missing nodes and elements, and words outside the language. A missing term,
parameter, arm or script cannot be left out.
-/

namespace Lineside.Document

namespace Param

def ofOperand (minus : Bool) : Operand → Param
  | .constant value => { constant := some value, minus }
  | .localVar index => { localVar := some index, minus }
  | .slot slot => { slot := slot.name, minus }
  | .blank => { minus }

def ofParameter : Option Parameter → Except Fault Param
  | none => .error .missingParameter
  | some parameter => .ok (ofOperand parameter.minus parameter.operand)

end Param

namespace Term

def ofTerm (term : Lineside.Term) : Except Fault Term := do
  return {
    function := if term.function = .none then "" else term.function.name
    params := ← term.params.mapM Param.ofParameter
    operator := if term.operator = .none then "" else term.operator.name
    negate := term.negate, minus := term.minus
    sublevel := term.sublevel, sublevel2 := term.sublevel2 }

def ofEntry : Option Lineside.Term → Except Fault Term
  | none => .error .missingTerm
  | some term => ofTerm term

def ofOptional : Option Lineside.Term → Except Fault (Option Term)
  | none => .ok none
  | some term => some <$> ofTerm term

end Term

namespace Target

def ofTarget : Lineside.Target → Option Target
  | .none => none
  | .localVar index => some { localVar := some index }
  | .slot slot => some { slot := slot.name }

end Target

namespace Condition

def ofCondition (condition : Lineside.Condition) : Except Fault Condition := do
  return {
    kind := "condition"
    term1 := ← Term.ofOptional condition.first
    term2 := ← Term.ofOptional condition.second
    compare := if condition.comparator = .none then "" else condition.comparator.name
    negate := condition.negate }

/-- Every marker but `or` is written as `and`. -/
def ofElements : List Element → Except Fault (List Condition)
  | [] => .ok []
  | .absent :: rest => ofElements rest
  | .combinator marker :: rest => do
    return { kind := if marker = .or then "or" else "and" } :: (← ofElements rest)
  | .negation :: rest => do return { kind := "not" } :: (← ofElements rest)
  | .condition condition :: rest => do return (← ofCondition condition) :: (← ofElements rest)
  | .group elements :: rest => do
    return { kind := "group", group := ← ofElements elements } :: (← ofElements rest)

end Condition

namespace Node

def ofStatement (statement : Statement) : Except Fault Node := do
  if ← statement.returns then return { kind := "return" }
  return {
    kind := "assign", target := Target.ofTarget statement.target
    terms := ← statement.terms.mapM Term.ofEntry }

mutual

def ofNodes : List Lineside.Node → Except Fault (List Node)
  | [] => .ok []
  | .absent :: rest => ofNodes rest
  | .statement statement :: rest => do return (← ofStatement statement) :: (← ofNodes rest)
  | .branch conditions body arms otherwise :: rest => do
    let node : Node := {
      kind := "if", conditions := ← Condition.ofElements conditions
      body := ← ofNodes body, otherwise := ← ofNodes otherwise, elseIf := ← ofArms arms }
    return node :: (← ofNodes rest)

def ofArms : List Lineside.Arm → Except Fault (List (Arm Node))
  | [] => .ok []
  | .absent :: _ => .error .missingArm
  | .arm conditions body :: rest => do
    return ⟨← Condition.ofElements conditions, ← ofNodes body⟩ :: (← ofArms rest)

end

end Node

def Script.ofScript : Option Lineside.Script → Except Fault Script
  | none => .error .missingScript
  | some script => do
    let statements ← Node.ofNodes script.nodes
    return {
      name := script.name, localCount := script.localCount
      statements := if script.nodes.isEmpty then none else some statements }

def member (key : String) (given : Bool) (value : Json) : List (String × Json) :=
  if given then [(key, value)] else []

def textMember (key text : String) : List (String × Json) := member key (text != "") (.string text)

def boolMember (key : String) (value : Bool) : List (String × Json) := member key value (.bool true)

def intMember (key : String) (value : Int64) : List (String × Json) := member key (value != 0) (.ofInt value)

def indexMember (key : String) : Option Int64 → List (String × Json)
  | none => []
  | some value => [(key, .ofInt value)]

def listMember (key : String) (items : List Json) : List (String × Json) :=
  member key (!items.isEmpty) (.array items)

namespace Param

def json (param : Param) : Json :=
  .object (indexMember "constant" param.constant ++ textMember "name" param.name ++
    indexMember "local" param.localVar ++ textMember "external" param.slot ++
    boolMember "minus" param.minus)

end Param

namespace Term

def json (term : Term) : Json :=
  .object (textMember "function" term.function ++ listMember "params" (term.params.map Param.json) ++
    textMember "op" term.operator ++ boolMember "negate" term.negate ++ boolMember "minus" term.minus ++
    intMember "sublevel" term.sublevel ++ intMember "sublevel2" term.sublevel2)

def optionalMember (key : String) : Option Term → List (String × Json)
  | none => []
  | some term => [(key, term.json)]

end Term

namespace Target

def member : Option Target → List (String × Json)
  | none => []
  | some target =>
    [("target", .object (indexMember "local" target.localVar ++ textMember "external" target.slot))]

end Target

mutual

def conditionJson : Condition → Json
  | ⟨kind, term1, term2, compare, negate, group⟩ =>
    .object (("kind", .string kind) :: Term.optionalMember "term1" term1 ++
      Term.optionalMember "term2" term2 ++ textMember "compare" compare ++ boolMember "negate" negate ++
      listMember "group" (conditionsJson group))

def conditionsJson : List Condition → List Json
  | [] => []
  | first :: rest => conditionJson first :: conditionsJson rest

end

mutual

def nodeJson : Node → Json
  | ⟨kind, target, terms, conditions, body, elseIf, otherwise⟩ =>
    .object (("kind", .string kind) :: Target.member target ++ listMember "terms" (terms.map Term.json) ++
      listMember "conditions" (conditionsJson conditions) ++ listMember "then" (nodesJson body) ++
      listMember "elseif" (armsJson elseIf) ++ listMember "else" (nodesJson otherwise))

def nodesJson : List Node → List Json
  | [] => []
  | first :: rest => nodeJson first :: nodesJson rest

def armsJson : List (Arm Node) → List Json
  | [] => []
  | ⟨conditions, body⟩ :: rest =>
    .object (("conditions", .array (conditionsJson conditions)) :: listMember "then" (nodesJson body)) ::
      armsJson rest

end

namespace Script

def statementsJson : Option (List Node) → Json
  | none => .null
  | some statements => .array (nodesJson statements)

def members (document : Script) : List (String × Json) :=
  intMember "locals" document.localCount ++ [("statements", statementsJson document.statements)]

def json (document : Script) : Json := .object (("name", .string document.name.text) :: document.members)

/-- The text under which a document is stored. In the name, a byte that belongs to no character is written as an
escape of what replaces it. -/
def text (document : Script) : String :=
  String.ofList ('\x7b' :: Json.renderString "name" ++ ':' :: Json.renderName document.name ++
    ',' :: Json.renderMembers document.members)

end Script

end Lineside.Document
