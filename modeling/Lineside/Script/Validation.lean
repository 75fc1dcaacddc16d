import Lineside.Script.Basic

/-!
The check a script passes before it is stored. All violations are collected, in the order in which the
script is read; a statement that ends the script is not looked into.
-/

namespace Lineside

inductive Violation where
  | noName
  | negativeLocalCount (count : Int64)
  | missingNode
  | noTerms
  | unknownTarget (code : Int64)
  | missingTerm
  | negativeSublevel (level : Int64)
  | leafParameters (count : Nat)
  | unknownFunction (code : Int64)
  | parameterCount (function : Builtin) (given : Nat)
  | missingParameter
  | unknownSlot (code : Int64)
  | localRange (index count : Int64)
  | noConditions
  | noArmConditions
  | noFirstTerm
  | noComparator
  | emptyGroup
  | missingElement
  deriving DecidableEq, Repr

namespace Violation

def message : Violation → String
  | .noName => "script has no signal type name"
  | .negativeLocalCount count => "negative local count " ++ count.toInt.repr
  | .missingNode => "nil node"
  | .noTerms => "statement without terms"
  | .unknownTarget code => "unknown assignment target " ++ code.toInt.repr
  | .missingTerm => "nil term"
  | .negativeSublevel level => "negative sublevel " ++ level.toInt.repr
  | .leafParameters count => "leaf term with " ++ count.repr ++ " parameters"
  | .unknownFunction code => "unknown function " ++ code.toInt.repr
  | .parameterCount function given =>
    function.name ++ ": expected " ++ function.arity.repr ++ " parameters, got " ++ given.repr
  | .missingParameter => "nil parameter"
  | .unknownSlot code => "unknown external float " ++ code.toInt.repr
  | .localRange index count =>
    "local variable " ++ index.toInt.repr ++ " out of range [0," ++ count.toInt.repr ++ ")"
  | .noConditions => "condition block without conditions"
  | .noArmConditions => "else-if without conditions"
  | .noFirstTerm => "condition without first term"
  | .noComparator => "condition with two terms and no comparator"
  | .emptyGroup => "empty nested condition"
  | .missingElement => "unknown condition element <nil>"

end Violation

namespace Validation

def demand (met : Bool) (violation : Violation) : List Violation := if met then [] else [violation]

variable (count : Int64)

def localIndex (index : Int64) : List Violation :=
  demand (decide (0 ≤ index ∧ index < count)) (.localRange index count)

def parameter : Option Parameter → List Violation
  | none => [.missingParameter]
  | some parameter =>
    match parameter.operand with
    | .localVar index => localIndex count index
    | .slot (.unknown code) => [.unknownSlot code]
    | _ => []

def callee (term : Term) : List Violation :=
  match term.function with
  | .none | .returning => demand (term.params.length ≤ 1) (.leafParameters term.params.length)
  | .builtin function =>
    demand (term.params.length == function.arity) (.parameterCount function term.params.length)
  | .unknown code => [.unknownFunction code]

def term (term : Term) : List Violation :=
  demand (decide (0 ≤ term.sublevel)) (.negativeSublevel term.sublevel) ++ callee term ++
    term.params.flatMap (parameter count)

def termEntry : Option Term → List Violation
  | none => [.missingTerm]
  | some entry => term count entry

def target : Target → List Violation
  | .none => []
  | .localVar index => localIndex count index
  | .slot (.known _) => []
  | .slot (.unknown code) => [.unknownTarget code]

def statement (statement : Statement) : Except Fault (List Violation) := do
  if ← statement.returns then return []
  return demand (!statement.terms.isEmpty) .noTerms ++ target count statement.target ++
    statement.terms.flatMap (termEntry count)

def condition (condition : Condition) : List Violation :=
  match condition.first with
  | none => [.noFirstTerm]
  | some first =>
    term count first ++
      match condition.second with
      | none => []
      | some second => term count second ++ demand (condition.comparator != .none) .noComparator

def elements : List Element → List Violation
  | [] => []
  | .absent :: rest => .missingElement :: elements rest
  | .combinator _ :: rest => elements rest
  | .negation :: rest => elements rest
  | .condition entry :: rest => condition count entry ++ elements rest
  | .group entries :: rest =>
    demand (!entries.isEmpty) .emptyGroup ++ elements entries ++ elements rest

mutual

def nodes : List Node → Except Fault (List Violation)
  | [] => return []
  | first :: rest => do return (← node first) ++ (← nodes rest)

def node : Node → Except Fault (List Violation)
  | .absent => return [.missingNode]
  | .statement entry => statement count entry
  | .branch conditions body others otherwise => do
    return demand (!conditions.isEmpty) .noConditions ++ elements count conditions ++ (← nodes body) ++
      (← arms others) ++ (← nodes otherwise)

def arms : List Arm → Except Fault (List Violation)
  | [] => return []
  | .absent :: rest => do return .noArmConditions :: (← arms rest)
  | .arm conditions body :: rest => do
    if conditions.isEmpty then return .noArmConditions :: (← arms rest)
    else return elements count conditions ++ (← nodes body) ++ (← arms rest)

end

end Validation

/-- A script that does not pass, or no script at all. -/
inductive InvalidScript where
  | missing
  | violations (name : Name) (violations : List Violation)
  deriving DecidableEq, Repr

namespace InvalidScript

def message : InvalidScript → String
  | .missing => "nil script: invalid signal script"
  | .violations name found =>
    name.text ++ ": " ++ "; ".intercalate (found.map Violation.message) ++ ": invalid signal script"

end InvalidScript

namespace Script

def violations (script : Script) : Except Fault (List Violation) := do
  return Validation.demand (script.name != "") .noName ++
    Validation.demand (decide (0 ≤ script.localCount)) (.negativeLocalCount script.localCount) ++
    (← Validation.nodes script.localCount script.nodes)

def validate (script : Option Script) : Except Fault (Option InvalidScript) :=
  match script with
  | none => .ok (some .missing)
  | some script => do
    match ← script.violations with
    | [] => return none
    | found => return some (.violations script.name found)

end Script

end Lineside
