import Lineside.Document.Basic

/-!
Script documents while their text is read. A list may be given several times, and each time it is read
into the items that it had: those that a shorter list leaves out stay in reserve, and show again when a
longer one follows.
-/

namespace Lineside.Document

structure Slots (α : Type) where
  items : List α := []
  /-- The items in reserve, which earlier lists had behind these. -/
  spare : List α := []
  deriving Repr

namespace Slots

def all (slots : Slots α) : List α := slots.items ++ slots.spare

/-- Puts items in front of those that earlier lists had further on. No items at all leave nothing in
reserve. -/
def refill (slots : Slots α) : List α → Slots α
  | [] => {}
  | items => { items, spare := slots.all.drop items.length }

end Slots

namespace Draft

structure Term where
  function : String := ""
  params : Slots Param := {}
  operator : String := ""
  negate : Bool := false
  minus : Bool := false
  sublevel : Int64 := 0
  sublevel2 : Int64 := 0
  deriving Repr

structure Condition where
  kind : String := ""
  term1 : Option Term := none
  term2 : Option Term := none
  compare : String := ""
  negate : Bool := false
  group : Slots Condition := {}

structure Arm (α : Type) where
  conditions : Slots Condition := {}
  body : Slots α := {}

structure Node where
  kind : String := ""
  target : Option Target := none
  terms : Slots Term := {}
  conditions : Slots Condition := {}
  body : Slots Node := {}
  elseIf : Slots (Arm Node) := {}
  otherwise : Slots Node := {}

structure Script where
  name : String := ""
  localCount : Int64 := 0
  statements : Slots Node := {}

namespace Term

def document (term : Term) : Document.Term where
  function := term.function
  params := term.params.items
  operator := term.operator
  negate := term.negate
  minus := term.minus
  sublevel := term.sublevel
  sublevel2 := term.sublevel2

end Term

mutual

def Condition.document : Condition → Document.Condition
  | { kind, term1, term2, compare, negate, group } =>
    { kind, term1 := term1.map Term.document, term2 := term2.map Term.document, compare, negate,
      group := conditionSlots group }

def conditionSlots : Slots Condition → List Document.Condition
  | { items, .. } => conditionItems items

def conditionItems : List Condition → List Document.Condition
  | [] => []
  | item :: rest => item.document :: conditionItems rest

end

mutual

def Node.document : Node → Document.Node
  | { kind, target, terms, conditions, body, elseIf, otherwise } =>
    { kind, target
      terms := terms.items.map Term.document
      conditions := conditionSlots conditions
      body := nodeSlots body
      elseIf := armSlots elseIf
      otherwise := nodeSlots otherwise }

def nodeSlots : Slots Node → List Document.Node
  | { items, .. } => nodeItems items

def nodeItems : List Node → List Document.Node
  | [] => []
  | item :: rest => item.document :: nodeItems rest

def armDocument : Arm Node → Document.Arm Document.Node
  | { conditions, body } => { conditions := conditionSlots conditions, body := nodeSlots body }

def armSlots : Slots (Arm Node) → List (Document.Arm Document.Node)
  | { items, .. } => armItems items

def armItems : List (Arm Node) → List (Document.Arm Document.Node)
  | [] => []
  | item :: rest => armDocument item :: armItems rest

end

namespace Script

def document (script : Script) : Document.Script where
  name := script.name
  localCount := script.localCount
  statements := some (nodeSlots script.statements)

end Script

end Draft

end Lineside.Document
