import Lineside.Text.Name

/-!
Script documents: the written form of a script, in which functions, operators, slots and constants are
names. Empty text stands for a name that is not given.
-/

namespace Lineside.Document

/-- A leaf operand. Of the constant, the symbolic name, the local and the slot, the first one given
counts. -/
structure Param where
  constant : Option Int64 := none
  name : String := ""
  localVar : Option Int64 := none
  slot : String := ""
  minus : Bool := false
  deriving DecidableEq, Repr

structure Term where
  function : String := ""
  params : List Param := []
  operator : String := ""
  negate : Bool := false
  minus : Bool := false
  sublevel : Int64 := 0
  sublevel2 : Int64 := 0
  deriving DecidableEq, Repr

/-- Of the local and the slot, the first one given counts. -/
structure Target where
  localVar : Option Int64 := none
  slot : String := ""
  deriving DecidableEq, Repr

structure Condition where
  kind : String := ""
  term1 : Option Term := none
  term2 : Option Term := none
  compare : String := ""
  negate : Bool := false
  group : List Condition := []
  deriving Repr

structure Arm (α : Type) where
  conditions : List Condition := []
  body : List α := []
  deriving Repr

structure Node where
  kind : String := ""
  target : Option Target := none
  terms : List Term := []
  conditions : List Condition := []
  body : List Node := []
  elseIf : List (Arm Node) := []
  otherwise : List Node := []
  deriving Repr

structure Script where
  name : Name := ""
  localCount : Int64 := 0
  /-- No statements at all are written differently from an empty list of them. -/
  statements : Option (List Node) := none
  deriving Repr

end Lineside.Document
