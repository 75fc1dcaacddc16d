import Lineside.Script.Locals
import Lineside.Track.Query

/-!
Running a script against its head. Terms fold level by level, conditions are read strictly from left to
right and all of them are evaluated, and a block runs until it is exhausted or a return is reached. What
was written before a fault stays written.
-/

namespace Lineside

inductive Deed where
  | readLocal (index : Int64)
  | setLocal (index : Int64)
  | readSlot (slot : SlotRef)
  | setSlot (slot : SlotRef)
  /-- A call, with the number of parameters that the term gives and the values of the first two. -/
  | call (callee : Callee) (given : Nat) (p1 p2 : Int64)
  /-- Going on where a node, a condition element or a first term is missing. -/
  | passOver
  deriving DecidableEq, Repr

structure Invocation where
  scene : Scene
  locals : Locals
  debug : Bool := false
  log : List LogLine := []
  /-- What was done so far, the latest first. No script can see it. -/
  deeds : List Deed := []

abbrev Eval := ExceptT Fault (StateM Invocation)

namespace Eval

def liftFault : Except Fault α → Eval α
  | .ok value => pure value
  | .error fault => throw fault

def ask (question : Scene → α) : Eval α := do
  return question (← get).scene

def act (action : Scene → α × Scene) : Eval α := do
  let before ← get
  let (answer, scene) := action before.scene
  set { before with scene }
  return answer

def record (deed : Deed) : Eval Unit :=
  modify fun before => { before with deeds := deed :: before.deeds }

def note (line : Scene → String) : Eval Unit :=
  modify fun before =>
    if before.debug then { before with log := before.log ++ [⟨.debug, line before.scene⟩] } else before

end Eval

def ofBool (b : Bool) : Int64 := if b then 1 else 0

open Eval in
/-- Calls a function with its parameters resolved; those it does not take are ignored. -/
def Builtin.call (function : Builtin) (p1 p2 : Int64) : Eval Int64 :=
  match function with
  | .blockState => ask fun scene => scene.block.code
  | .routeSet => ask fun scene => ofBool scene.routeSet
  | .nextSignalLeast => ask fun scene => (scene.nextLeast ⟨p1⟩ 1).code
  | .nextSignalMost => ask fun scene => (scene.nextMost ⟨p1⟩).code
  | .thisSignalLeast => ask fun scene => ((scene.thisLeast ⟨p1⟩).map (·.code)).getD (-1)
  | .thisSignalMost => ask fun scene => ((scene.thisMost ⟨p1⟩).map (·.code)).getD (-1)
  | .oppositeSignalLeast => ask fun scene => (scene.oppositeLeast ⟨p1⟩).code
  | .oppositeSignalMost => ask fun scene => (scene.oppositeMost ⟨p1⟩).code
  | .nextNthSignalLeast => ask fun scene => (scene.nextLeast ⟨p1⟩ p2).code
  | .distantMultiMost => ask fun scene => (scene.distantMost ⟨p1⟩ ⟨p2⟩).code
  | .signalFeature => ask fun scene => ofBool (scene.feature p1)
  | .approachControlPosition => ofBool <$> act (·.requestPosition p1)
  | .approachControlSpeed => ofBool <$> act (·.requestSpeed p1 p2)
  | .trainHasCallOn => ask fun scene => ofBool (scene.callOn false)
  | .trainHasCallOnRestricted => ask fun scene => ofBool (scene.callOn true)
  | .hasHead => ask fun scene => ofBool (scene.hasHead p1)
  | .defaultDrawState => ask fun scene => scene.defaultDrawState ⟨p1⟩
  | .debugHeader => do
    note fun scene => "signal type " ++ scene.kind.text ++ ": state=" ++ scene.state.name ++
      " draw_state=" ++ scene.drawState.toInt.repr
    return 0
  | .debugOut => do
    note fun scene => "signal type " ++ scene.kind.text ++ ": debug value " ++ p1.toInt.repr
    return 0
  | .allowClearToPartialRoute => act fun scene => (0, scene.allowPartialRoute (p1 != 0))

namespace Callee

/-- A function outside the table is worth zero. -/
def call (callee : Callee) (p1 p2 : Int64) : Eval Int64 :=
  match callee with
  | .builtin function => function.call p1 p2
  | _ => pure 0

end Callee

namespace Operand

def value : Operand → Eval Int64
  | .constant value => pure value
  | .localVar index => do
    Eval.record (.readLocal index)
    return (← get).locals.get index
  | .slot which => do
    Eval.record (.readSlot which)
    match which with
    | .known known => Eval.liftFault ((← get).scene.slotValue known)
    | .unknown _ => return 0
  | .blank => pure 0

end Operand

def parameterValue : Option Parameter → Eval Int64
  | none => throw .missingParameter
  | some parameter => do
    let value ← parameter.operand.value
    return if parameter.minus then -value else value

def parameterValueAt (params : List (Option Parameter)) (index : Nat) : Eval Int64 :=
  match params[index]? with
  | some parameter => parameterValue parameter
  | none => pure 0

namespace Term

/-- The value of a term without its signs, where `deeper` computes the level below it. -/
def unsigned (deeper : Eval Int64) (term : Term) : Eval Int64 :=
  if term.function ≠ .none then do
    let p1 ← parameterValueAt term.params 0
    let p2 ← parameterValueAt term.params 1
    Eval.record (.call term.function term.params.length p1 p2)
    term.function.call p1 p2
  else if term.opens then deeper
  else parameterValueAt term.params 0

/-- Applies the signs of a term to a value, the minus before the logical opposite. -/
def signed (term : Term) (value : Int64) : Int64 :=
  let value := if term.minus then -value else value
  if term.negate then ofBool (value == 0) else value

def value (deeper : Eval Int64) (term : Term) : Eval Int64 := term.signed <$> term.unsigned deeper

end Term

def foldLevel (deeper : Eval Int64) (level : Int64) : List (Option Term) → Int64 → Eval Int64
  | [], total => pure total
  | none :: _, _ => throw .missingTerm
  | some term :: rest, total =>
    if term.returns then pure total
    else if term.sublevel ≠ level then foldLevel deeper level rest total
    else do
      let value ← term.value deeper
      foldLevel deeper level rest (term.operator.apply total value)

def opensAt (terms : List (Option Term)) (level : Int64) : Bool :=
  terms.any fun
    | some term => term.sublevel == level && term.opens
    | none => false

def depthFrom (terms : List (Option Term)) (level : Int64) : Nat :=
  terms.countP fun
    | some term => decide (level ≤ term.sublevel)
    | none => false

private theorem countP_lt {α : Type} {p q : α → Bool} {list : List α} (weaker : ∀ a ∈ list, p a → q a)
    {a : α} (member : a ∈ list) (holds : q a) (fails : p a = false) : list.countP p < list.countP q := by
  induction list with
  | nil => cases member
  | cons head tail ih =>
    have rest : tail.countP p ≤ tail.countP q :=
      List.countP_mono_left fun b inside => weaker b (List.mem_cons_of_mem _ inside)
    rcases List.mem_cons.mp member with rfl | inside
    · simp only [List.countP_cons, holds, fails, if_true]
      simp
      omega
    · have strict := ih (fun b inside => weaker b (List.mem_cons_of_mem _ inside)) inside
      have step := weaker head List.mem_cons_self
      grind

/-- An opener keeps the level below it from wrapping around. -/
theorem level_lt_succ {level bound : Int64} (below : level < bound) : level < level + 1 := by
  rw [Int64.lt_iff_toInt_lt] at *
  have upper := bound.toInt_lt
  have lower := level.le_toInt
  rw [Int64.toInt_add]
  simp only [Int64.toInt_one]
  rw [Int.bmod_eq_of_le (by omega) (by omega)]
  omega

theorem depthFrom_succ_lt {terms : List (Option Term)} {level : Int64} (opened : opensAt terms level) :
    depthFrom terms (level + 1) < depthFrom terms level := by
  simp only [opensAt, List.any_eq_true] at opened
  obtain ⟨entry, member, opened⟩ := opened
  cases entry with
  | none => cases opened
  | some term =>
    simp only [Term.opens, Bool.and_eq_true, beq_iff_eq, decide_eq_true_eq] at opened
    obtain ⟨here, _, below⟩ := opened
    rw [here] at below
    have step := level_lt_succ below
    refine countP_lt ?_ member ?_ ?_
    · intro entry _ deep
      cases entry with
      | none => cases deep
      | some other =>
        simp only [decide_eq_true_eq, Int64.le_iff_toInt_le, Int64.lt_iff_toInt_lt] at *
        omega
    · simp [here]
    · simp only [decide_eq_false_iff_not, Int64.le_iff_toInt_le, Int64.lt_iff_toInt_lt, here] at *
      omega

def evalTerms (terms : List (Option Term)) (level : Int64) : Eval Int64 :=
  foldLevel (if opensAt terms level then evalTerms terms (level + 1) else pure 0) level terms 0
termination_by depthFrom terms level
decreasing_by exact depthFrom_succ_lt ‹_›

namespace Condition

def eval (condition : Condition) : Eval Bool :=
  match condition.first with
  | none => do
    Eval.record .passOver
    return false
  | some first => do
    let a ← evalTerms [some first] first.sublevel
    match condition.second with
    | none => return (a != 0) != condition.negate
    | some second =>
      let b ← evalTerms [some second] second.sublevel
      return condition.comparator.holds a b

end Condition

/-- Reads a condition list from left to right, given what was found so far and the markers that wait
for the next condition. -/
def evalElements : List Element → Bool → Combinator → Bool → Eval Bool
  | [], sofar, _, _ => pure sofar
  | .absent :: rest, sofar, marker, negated => do
    Eval.record .passOver
    evalElements rest sofar marker negated
  | .combinator next :: rest, sofar, _, negated => evalElements rest sofar next negated
  | .negation :: rest, sofar, marker, _ => evalElements rest sofar marker true
  | .condition condition :: rest, sofar, marker, negated => do
    let value ← condition.eval
    evalElements rest (marker.apply sofar (value != negated)) .none false
  | .group elements :: rest, sofar, marker, negated => do
    let value ← evalElements elements true .none false
    evalElements rest (marker.apply sofar (value != negated)) .none false

def evalConditions (elements : List Element) : Eval Bool := evalElements elements true .none false

/-- Stores a value. Slots that are not writable, and locals out of range, ignore it. -/
def Target.store (target : Target) (value : Int64) : Eval Unit :=
  match target with
  | .none => pure ()
  | .localVar index => do
    Eval.record (.setLocal index)
    modify fun before => { before with locals := before.locals.set index value }
  | .slot which => do
    Eval.record (.setSlot which)
    match which with
    | .known .state => modify fun before => { before with scene := before.scene.setState ⟨value⟩ }
    | .known .drawState =>
      modify fun before => { before with scene := before.scene.setDrawState value }
    | _ => return

mutual

/-- Runs a block. The answer is false once a return was reached, here or in a nested block. -/
def runNodes : List Node → Eval Bool
  | [] => pure true
  | node :: rest => do
    if ← runNode node then runNodes rest else return false

def runNode : Node → Eval Bool
  | .absent => do
    Eval.record .passOver
    return true
  | .statement statement => do
    if ← Eval.liftFault statement.returns then return false
    let value ← evalTerms statement.terms 0
    statement.target.store value
    return true
  | .branch conditions body arms otherwise => do
    if ← evalConditions conditions then runNodes body
    else match ← runArms arms with
      | some continued => return continued
      | none => runNodes otherwise

def runArms : List Arm → Eval (Option Bool)
  | [] => pure none
  | .absent :: _ => throw .missingArm
  | .arm conditions body :: rest => do
    if ← evalConditions conditions then return some (← runNodes body)
    else runArms rest

end

end Lineside
