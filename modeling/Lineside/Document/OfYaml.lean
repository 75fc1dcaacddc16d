import Lineside.Document.Basic
import Lineside.Yaml.Conversion

/-!
Script documents read from YAML. Unknown keys are ignored, keys are case sensitive, and a key may be
given once.
-/

namespace Lineside.Document

open Yaml

namespace Param

def yamlField (key : String) (node : Yaml) (param : Param) : Option Param :=
  match key with
  | "constant" => return { param with constant := ← node.toOptionalInt }
  | "name" => return { param with name := ← node.toText param.name }
  | "local" => return { param with localVar := ← node.toOptionalInt }
  | "external" => return { param with slot := ← node.toText param.slot }
  | "minus" => return { param with minus := ← node.toBool param.minus }
  | _ => some param

end Param

namespace Term

def yamlField (key : String) (node : Yaml) (term : Term) : Option Term :=
  match key with
  | "function" => return { term with function := ← node.toText term.function }
  | "params" => return { term with params := ← node.toList (toRecord Param.yamlField {}) }
  | "op" => return { term with operator := ← node.toText term.operator }
  | "negate" => return { term with negate := ← node.toBool term.negate }
  | "minus" => return { term with minus := ← node.toBool term.minus }
  | "sublevel" => return { term with sublevel := ← node.toInt term.sublevel }
  | "sublevel2" => return { term with sublevel2 := ← node.toInt term.sublevel2 }
  | _ => some term

end Term

namespace Target

def yamlField (key : String) (node : Yaml) (target : Target) : Option Target :=
  match key with
  | "local" => return { target with localVar := ← node.toOptionalInt }
  | "external" => return { target with slot := ← node.toText target.slot }
  | _ => some target

end Target

namespace Condition

def yamlField (key : String) (node : Yaml) (condition : Condition) : Option Condition :=
  match key with
  | "kind" => return { condition with kind := ← node.toText condition.kind }
  | "term1" => return { condition with term1 := ← node.toOptionalRecord Term.yamlField {} }
  | "term2" => return { condition with term2 := ← node.toOptionalRecord Term.yamlField {} }
  | "compare" => return { condition with compare := ← node.toText condition.compare }
  | "negate" => return { condition with negate := ← node.toBool condition.negate }
  | _ => some condition

end Condition

mutual

def conditionOfYaml : Yaml → Option Condition
  | .mapping entries => if keysDiffer entries then conditionOfEntries entries {} else none
  | _ => none

def conditionOfEntries : List (Yaml × Yaml) → Condition → Option Condition
  | [], condition => some condition
  | (.scalar plain key, node) :: rest, condition =>
    if plain && isNull key then conditionOfEntries rest condition
    else if key = "group" then
      (conditionsOfYaml node).bind fun group => conditionOfEntries rest { condition with group }
    else (Condition.yamlField key node condition).bind fun condition => conditionOfEntries rest condition
  | _ :: _, _ => none

def conditionsOfYaml : Yaml → Option (List Condition)
  | .sequence items => conditionsOfItems items
  | .scalar plain text => if plain && isNull text then some [] else none
  | _ => none

def conditionsOfItems : List Yaml → Option (List Condition)
  | [] => some []
  | item :: rest =>
    if item.isNullNode then conditionsOfItems rest
    else do return (← conditionOfYaml item) :: (← conditionsOfItems rest)

end

namespace Node

def yamlField (key : String) (value : Yaml) (node : Node) : Option Node :=
  match key with
  | "kind" => return { node with kind := ← value.toText node.kind }
  | "target" => return { node with target := ← value.toOptionalRecord Target.yamlField {} }
  | "terms" => return { node with terms := ← value.toList (toRecord Term.yamlField {}) }
  | "conditions" => return { node with conditions := ← conditionsOfYaml value }
  | _ => some node

end Node

mutual

def nodeOfYaml : Yaml → Option Node
  | .mapping entries => if keysDiffer entries then nodeOfEntries entries {} else none
  | _ => none

def nodeOfEntries : List (Yaml × Yaml) → Node → Option Node
  | [], node => some node
  | (.scalar plain key, value) :: rest, node =>
    if plain && isNull key then nodeOfEntries rest node
    else if key = "then" then
      (nodesOfYaml value).bind fun body => nodeOfEntries rest { node with body }
    else if key = "elseif" then
      (armsOfYaml value).bind fun elseIf => nodeOfEntries rest { node with elseIf }
    else if key = "else" then
      (nodesOfYaml value).bind fun otherwise => nodeOfEntries rest { node with otherwise }
    else (Node.yamlField key value node).bind fun node => nodeOfEntries rest node
  | _ :: _, _ => none

def nodesOfYaml : Yaml → Option (List Node)
  | .sequence items => nodesOfItems items
  | .scalar plain text => if plain && isNull text then some [] else none
  | _ => none

def nodesOfItems : List Yaml → Option (List Node)
  | [] => some []
  | item :: rest =>
    if item.isNullNode then nodesOfItems rest
    else do return (← nodeOfYaml item) :: (← nodesOfItems rest)

def armOfYaml : Yaml → Option (Arm Node)
  | .mapping entries => if keysDiffer entries then armOfEntries entries {} else none
  | _ => none

def armOfEntries : List (Yaml × Yaml) → Arm Node → Option (Arm Node)
  | [], arm => some arm
  | (.scalar plain key, value) :: rest, arm =>
    if plain && isNull key then armOfEntries rest arm
    else if key = "conditions" then
      (conditionsOfYaml value).bind fun conditions => armOfEntries rest { arm with conditions }
    else if key = "then" then (nodesOfYaml value).bind fun body => armOfEntries rest { arm with body }
    else armOfEntries rest arm
  | _ :: _, _ => none

def armsOfYaml : Yaml → Option (List (Arm Node))
  | .sequence items => armsOfItems items
  | .scalar plain text => if plain && isNull text then some [] else none
  | _ => none

def armsOfItems : List Yaml → Option (List (Arm Node))
  | [] => some []
  | item :: rest =>
    if item.isNullNode then armsOfItems rest
    else do return (← armOfYaml item) :: (← armsOfItems rest)

end

namespace Script

def yamlField (key : String) (node : Yaml) (document : Script) : Option Script :=
  match key with
  | "name" => return { document with name := ← node.toName document.name }
  | "locals" => return { document with localCount := ← node.toInt document.localCount }
  | "statements" => return { document with statements := some (← nodesOfYaml node) }
  | _ => some document

end Script

end Lineside.Document
