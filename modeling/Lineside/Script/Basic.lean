import Lineside.Text.Name
import Lineside.Vocabulary.Builtin
import Lineside.Vocabulary.Word

/-!
Signal scripts as trees. A tree may be incomplete, since scripts are also built in memory: a missing
node, arm, condition element, term or parameter is written down as such, and what each part of the
library makes of it is that part's decision.
-/

namespace Lineside

inductive SlotRef where
  | known (slot : Slot)
  | unknown (code : Int64)
  deriving DecidableEq, Repr

namespace SlotRef

def ofCode (code : Int64) : SlotRef :=
  match Slot.ofCode? code with
  | some slot => .known slot
  | none => .unknown code

def code : SlotRef → Int64
  | .known slot => slot.code
  | .unknown code => code

def name : SlotRef → String
  | .known slot => slot.name
  | .unknown _ => "NONE"

end SlotRef

/-- Where a parameter takes its value from. A blank operand is worth zero. -/
inductive Operand where
  | constant (value : Int64)
  | localVar (index : Int64)
  | slot (slot : SlotRef)
  | blank
  deriving DecidableEq, Repr

structure Parameter where
  operand : Operand
  minus : Bool := false
  deriving DecidableEq, Repr

/-- One operand of a flat arithmetic expression. Parentheses are written as levels: a term without
function and parameters whose `sublevel2` exceeds its `sublevel` stands for the value of all terms one
level deeper in the same list. -/
structure Term where
  function : Callee := .none
  params : List (Option Parameter) := []
  operator : Operator := .none
  negate : Bool := false
  /-- Negates the value, before `negate`. -/
  minus : Bool := false
  sublevel : Int64 := 0
  sublevel2 : Int64 := 0
  deriving DecidableEq, Repr

namespace Term

def returns (term : Term) : Bool := term.function == .returning

def opens (term : Term) : Bool :=
  term.function == .none && term.params.isEmpty && decide (term.sublevel < term.sublevel2)

end Term

structure Condition where
  first : Option Term
  second : Option Term := none
  comparator : Comparator := .none
  negate : Bool := false
  deriving DecidableEq, Repr

/-- An entry of a condition list. A combinator or negation applies to the next condition or group. -/
inductive Element where
  | absent
  | combinator (marker : Combinator)
  | negation
  | condition (condition : Condition)
  | group (elements : List Element)
  deriving Repr

inductive Target where
  | none
  | localVar (index : Int64)
  | slot (slot : SlotRef)
  deriving DecidableEq, Repr

structure Statement where
  target : Target := .none
  terms : List (Option Term)
  deriving DecidableEq, Repr

mutual

inductive Node where
  | absent
  | statement (statement : Statement)
  | branch (conditions : List Element) (body : List Node) (arms : List Arm) (otherwise : List Node)
  deriving Repr

inductive Arm where
  | absent
  | arm (conditions : List Element) (body : List Node)
  deriving Repr

end

structure Script where
  name : Name
  localCount : Int64 := 0
  nodes : List Node
  deriving Repr

/-- Why work on an incomplete tree, on a head that stands nowhere or with a train before no signal cannot go on. -/
inductive Fault where
  | missingTerm
  | missingParameter
  | missingArm
  | missingScript
  | localCount
  | looseHead
  | lostTrain
  deriving DecidableEq, Repr

namespace Statement

def leave : Statement := { terms := [some { function := .returning }] }

/-- A statement ends the script when its first term is the return marker. -/
def returns (statement : Statement) : Except Fault Bool :=
  match statement.terms with
  | [] => .ok false
  | none :: _ => .error .missingTerm
  | some term :: _ => .ok term.returns

end Statement

end Lineside
