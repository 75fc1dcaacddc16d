import Lineside.Vocabulary.Code

/-!
The closed words of the script language: the slots a head exposes, the operators that join terms, the
comparators of a condition, and the symbolic constants.
-/

namespace Lineside

inductive Slot where
  | state
  | drawState
  | enabled
  | blockState
  | approachPosition
  | approachSpeed
  deriving DecidableEq, Repr

namespace Slot

def all : List Slot := [.state, .drawState, .enabled, .blockState, .approachPosition, .approachSpeed]

def name : Slot → String
  | .state => "STATE"
  | .drawState => "DRAW_STATE"
  | .enabled => "ENABLED"
  | .blockState => "BLOCK_STATE"
  | .approachPosition => "APPROACH_CONTROL_REQ_POSITION"
  | .approachSpeed => "APPROACH_CONTROL_REQ_SPEED"

def code : Slot → Int64
  | .state => 1
  | .drawState => 2
  | .enabled => 3
  | .blockState => 4
  | .approachPosition => 5
  | .approachSpeed => 6

def ofCode? (code : Int64) : Option Slot := all.find? (·.code == code)

def writable : Slot → Bool
  | .state | .drawState => true
  | _ => false

def table : NameTable where
  lead := ""
  entries := all.map fun slot => (slot.name, slot.code)
  otherwise := "NONE"

def ofName (text : String) : Except UnknownName Slot :=
  match all.find? (·.name == text) with
  | some slot => .ok slot
  | none => .error ⟨text⟩

end Slot

/-- How a term joins the running value of its level. `none` replaces it. -/
inductive Operator where
  | none
  | multiply
  | plus
  | minus
  | divide
  | modulo
  deriving DecidableEq, Repr

namespace Operator

def all : List Operator := [.none, .multiply, .plus, .minus, .divide, .modulo]

def name : Operator → String
  | .none => "NONE"
  | .multiply => "MULTIPLY"
  | .plus => "PLUS"
  | .minus => "MINUS"
  | .divide => "DIVIDE"
  | .modulo => "MODULO"

def code : Operator → Int64
  | .none => 0
  | .multiply => 1
  | .plus => 2
  | .minus => 3
  | .divide => 4
  | .modulo => 5

/-- A code outside the language replaces the running value like no operator does. -/
def ofCode (code : Int64) : Operator := (all.find? (·.code == code)).getD .none

def table : NameTable where
  lead := ""
  entries := all.map fun operator => (operator.name, operator.code)
  otherwise := ""

def ofName (text : String) : Except UnknownName Operator :=
  if text = "" then .ok .none else
  match all.find? (·.name == text) with
  | some operator => .ok operator
  | Option.none => .error ⟨text⟩

/-- Division truncates, and dividing by zero gives zero. -/
def apply (operator : Operator) (total value : Int64) : Int64 :=
  match operator with
  | .none => value
  | .multiply => total * value
  | .plus => total + value
  | .minus => total - value
  | .divide => if value = 0 then 0 else total / value
  | .modulo => if value = 0 then 0 else total % value

end Operator

/-- How the two terms of a condition are related. A comparator outside the language is kept apart from
the missing one: it is never satisfied. -/
inductive Comparator where
  | none
  | gt
  | ge
  | lt
  | le
  | eq
  | ne
  | unknown
  deriving DecidableEq, Repr

namespace Comparator

def all : List Comparator := [.none, .gt, .ge, .lt, .le, .eq, .ne]

def name : Comparator → String
  | .none => "NONE"
  | .gt => "GT"
  | .ge => "GE"
  | .lt => "LT"
  | .le => "LE"
  | .eq => "EQ"
  | .ne => "NE"
  | .unknown => ""

def code : Comparator → Int64
  | .none => 0
  | .gt => 1
  | .ge => 2
  | .lt => 3
  | .le => 4
  | .eq => 5
  | .ne => 6
  | .unknown => 7

def ofCode (code : Int64) : Comparator :=
  (all.find? (·.code == code)).getD .unknown

def table : NameTable where
  lead := ""
  entries := all.map fun comparator => (comparator.name, comparator.code)
  otherwise := ""

def ofName (text : String) : Except UnknownName Comparator :=
  if text = "" then .ok .none else
  match all.find? (·.name == text) with
  | some comparator => .ok comparator
  | Option.none => .error ⟨text⟩

def holds (comparator : Comparator) (a b : Int64) : Bool :=
  match comparator with
  | .gt => b < a
  | .ge => b ≤ a
  | .lt => a < b
  | .le => a ≤ b
  | .eq => a == b
  | .ne => a != b
  | .none | .unknown => false

end Comparator

/-- The marker that joins the next condition to those before it. `none` starts over. -/
inductive Combinator where
  | none
  | and
  | or
  deriving DecidableEq, Repr

namespace Combinator

def ofCode : Int64 → Combinator
  | 1 => .and
  | 2 => .or
  | _ => .none

def code : Combinator → Int64
  | .none => 0
  | .and => 1
  | .or => 2

def name : Combinator → String
  | .none => "NONE"
  | .and => "AND"
  | .or => "OR"

def apply (combinator : Combinator) (sofar value : Bool) : Bool :=
  match combinator with
  | .none => value
  | .and => sofar && value
  | .or => sofar || value

end Combinator

namespace Constant

def entries : List (String × Int64) :=
  [Aspect.table, Block.table, Role.table].flatMap fun table =>
    table.entries.map fun (name, code) => (table.lead ++ name, code)

def value? (name : String) : Option Int64 := entries.lookup name

def sorted : List (String × Int64) := entries.mergeSort fun a b => decide (a.1 ≤ b.1)

end Constant

end Lineside
