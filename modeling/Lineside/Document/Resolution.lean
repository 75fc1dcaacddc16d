import Lineside.Document.Basic
import Lineside.Script.Basic
import Lineside.Text.Quoted

/-!
From documents to scripts. Only the parts that the kind of an entry uses are looked at, and the first
fault found is reported with the places that lead to it.
-/

namespace Lineside.Document

inductive Place where
  | statement (index : Nat)
  | term (index : Nat)
  | parameter (index : Nat)
  | condition (index : Nat)
  | group (index : Nat)
  | elseIf (index : Nat)
  | body
  | otherwise
  deriving DecidableEq, Repr

namespace Place

def text : Place → String
  | .statement index => "statement " ++ index.repr
  | .term index => "term " ++ index.repr
  | .parameter index => "parameter " ++ index.repr
  | .condition index => "condition " ++ index.repr
  | .group index => "group " ++ index.repr
  | .elseIf index => "elseif " ++ index.repr
  | .body => "then"
  | .otherwise => "else"

end Place

inductive Defect where
  | unknownName (name : String)
  | unknownNodeKind (kind : String)
  | unknownConditionKind (kind : String)
  | emptyParameter
  | noFirstTerm
  deriving DecidableEq, Repr

namespace Defect

def message : Defect → String
  | .unknownName name => "unknown identifier: " ++ name
  | .unknownNodeKind kind => "unknown node kind " ++ Text.quoted kind
  | .unknownConditionKind kind => "unknown condition kind " ++ Text.quoted kind
  | .emptyParameter => "empty parameter"
  | .noFirstTerm => "condition without term1"

end Defect

/-- A defect and the places that lead to it, outermost first. -/
structure Misfit where
  path : List Place := []
  defect : Defect
  deriving DecidableEq, Repr

abbrev Resolved := Except Misfit

def within (place : Place) : Resolved α → Resolved α
  | .ok value => .ok value
  | .error misfit => .error { misfit with path := place :: misfit.path }

def fail (defect : Defect) : Resolved α := .error { defect }

def named : Except UnknownName α → Resolved α
  | .ok value => .ok value
  | .error unknown => fail (.unknownName unknown.name)

/-- Resolves entries in order, naming the first that fails by its position. -/
def each (place : Nat → Place) (resolve : α → Resolved β) : Nat → List α → Resolved (List β)
  | _, [] => .ok []
  | index, first :: rest => do
    let value ← within (place index) (resolve first)
    return value :: (← each place resolve (index + 1) rest)

namespace Param

def operand (param : Param) : Resolved Operand :=
  match param.constant with
  | some value => .ok (.constant value)
  | none =>
    if param.name ≠ "" then
      match Constant.value? param.name with
      | some value => .ok (.constant value)
      | none => fail (.unknownName param.name)
    else match param.localVar with
      | some index => .ok (.localVar index)
      | none =>
        if param.slot ≠ "" then return .slot (.known (← named (Slot.ofName param.slot)))
        else fail .emptyParameter

def resolve (param : Param) : Resolved (Option Parameter) := do
  return some { operand := ← param.operand, minus := param.minus }

end Param

namespace Term

def callee (term : Term) : Resolved Callee :=
  if term.function = "" then .ok .none else named (Callee.ofName term.function)

def resolve (term : Term) : Resolved Lineside.Term := do
  let function ← term.callee
  let operator ← named (Operator.ofName term.operator)
  let params ← each .parameter Param.resolve 0 term.params
  return {
    function, params, operator
    negate := term.negate, minus := term.minus
    sublevel := term.sublevel, sublevel2 := term.sublevel2 }

def resolveOptional : Option Term → Resolved (Option Lineside.Term)
  | none => .ok none
  | some term => some <$> term.resolve

end Term

namespace Target

def resolve (target : Target) : Resolved Lineside.Target :=
  match target.localVar with
  | some index => .ok (.localVar index)
  | none =>
    if target.slot ≠ "" then return .slot (.known (← named (Slot.ofName target.slot)))
    else .ok .none

def resolveOptional : Option Target → Resolved Lineside.Target
  | none => .ok .none
  | some target => target.resolve

end Target

namespace Condition

def test (condition : Condition) : Resolved Lineside.Condition :=
  match condition.term1 with
  | none => fail .noFirstTerm
  | some term1 => do
    let first ← term1.resolve
    let second ← Term.resolveOptional condition.term2
    let comparator ← named (Comparator.ofName condition.compare)
    return { first := some first, second, comparator, negate := condition.negate }

end Condition

mutual

def resolveConditions : Nat → List Condition → Resolved (List Element)
  | _, [] => .ok []
  | index, first :: rest => do
    let element ← resolveCondition index first
    return element :: (← resolveConditions (index + 1) rest)

def resolveCondition (index : Nat) : Condition → Resolved Element
  | ⟨kind, term1, term2, compare, negate, group⟩ =>
    if kind = "and" then .ok (.combinator .and)
    else if kind = "or" then .ok (.combinator .or)
    else if kind = "not" then .ok .negation
    else if kind = "group" then .group <$> within (.group index) (resolveConditions 0 group)
    else if kind = "condition" ∨ kind = "" then
      .condition <$> within (.condition index) (Condition.test ⟨kind, term1, term2, compare, negate, group⟩)
    else fail (.unknownConditionKind kind)

end

mutual

def resolveNodes : Nat → List Node → Resolved (List Lineside.Node)
  | _, [] => .ok []
  | index, first :: rest => do
    let node ← within (.statement index) (resolveNode first)
    return node :: (← resolveNodes (index + 1) rest)

def resolveNode : Node → Resolved Lineside.Node
  | ⟨kind, target, terms, conditions, body, elseIf, otherwise⟩ =>
    if kind = "return" then .ok (.statement .leave)
    else if kind = "assign" ∨ kind = "" then do
      let target ← Target.resolveOptional target
      let terms ← each .term (fun term => some <$> Term.resolve term) 0 terms
      return .statement { target, terms }
    else if kind = "if" then do
      let elements ← resolveConditions 0 conditions
      let nodes ← within .body (resolveNodes 0 body)
      let arms ← resolveArms 0 elseIf
      let others ← within .otherwise (resolveNodes 0 otherwise)
      return .branch elements nodes arms others
    else fail (.unknownNodeKind kind)

def resolveArms : Nat → List (Arm Node) → Resolved (List Lineside.Arm)
  | _, [] => .ok []
  | index, ⟨conditions, body⟩ :: rest => do
    let arm ← within (.elseIf index) do
      let elements ← resolveConditions 0 conditions
      return .arm elements (← within .body (resolveNodes 0 body))
    return arm :: (← resolveArms (index + 1) rest)

end

def Script.resolve (document : Script) : Resolved Lineside.Script := do
  return {
    name := document.name, localCount := document.localCount
    nodes := ← resolveNodes 0 (document.statements.getD []) }

end Lineside.Document
