import Lineside.Proofs.EvaluationLogic

/-! The single steps of an evaluation, and all that each of them can do: which deed it leaves, and how it
changes the scene. Whatever is said about runs rests on this. -/

namespace Lineside

/-- One thing an evaluation does. -/
inductive Step where
  | stop (fault : Fault)
  | passOver
  | readLocal (index : Int64)
  | readSlot (slot : SlotRef)
  | call (callee : Callee) (given : Nat) (p1 p2 : Int64)
  | setLocal (index value : Int64)
  | setSlot (slot : SlotRef) (value : Int64)

namespace Step

/-- What a step answers. One that stops never does. -/
def Answer : Step → Type
  | .stop _ => Empty
  | .readLocal _ | .readSlot _ | .call .. => Int64
  | .passOver | .setLocal .. | .setSlot .. => Unit

def run : (step : Step) → Eval step.Answer
  | .stop fault => throw fault
  | .passOver => Eval.record .passOver
  | .readLocal index => (Operand.localVar index).value
  | .readSlot slot => (Operand.slot slot).value
  | .call callee given p1 p2 => do
    Eval.record (.call callee given p1 p2)
    callee.call p1 p2
  | .setLocal index value => (Target.localVar index).store value
  | .setSlot slot value => (Target.slot slot).store value

/-- What is on record after a step. -/
def deeds : Step → List Deed
  | .stop _ => []
  | .passOver => [.passOver]
  | .readLocal index => [.readLocal index]
  | .readSlot slot => [.readSlot slot]
  | .call callee given p1 p2 => [.call callee given p1 p2]
  | .setLocal index _ => [.setLocal index]
  | .setSlot slot _ => [.setSlot slot]

/-- How a step can change the scene. Only two slots can be written, and only three functions change anything. -/
inductive Changes : Step → Scene → Scene → Prop where
  | nothing (step : Step) (scene : Scene) : Changes step scene scene
  | state (value : Int64) (scene : Scene) : Changes (.setSlot (.known .state) value) scene (scene.setState ⟨value⟩)
  | drawState (value : Int64) (scene : Scene) :
      Changes (.setSlot (.known .drawState) value) scene (scene.setDrawState value)
  | position (given : Nat) (p1 p2 : Int64) (scene : Scene) :
      Changes (.call (.builtin .approachControlPosition) given p1 p2) scene (scene.requestPosition p1).2
  | speed (given : Nat) (p1 p2 : Int64) (scene : Scene) :
      Changes (.call (.builtin .approachControlSpeed) given p1 p2) scene (scene.requestSpeed p1 p2).2
  | partialRoute (given : Nat) (p1 p2 : Int64) (scene : Scene) :
      Changes (.call (.builtin .allowClearToPartialRoute) given p1 p2) scene (scene.allowPartialRoute (p1 != 0))

end Step

namespace Eval

theorem run_liftFault {α : Type} (outcome : Except Fault α) (before : Invocation) :
    (liftFault outcome).run.run before = (outcome, before) := by
  cases outcome <;> rfl

theorem run_note (line : Scene → String) (before : Invocation) :
    ∃ log, (note line).run.run before = (.ok (), { before with log }) := by
  by_cases debug : before.debug = true
  · exact ⟨_, congrArg (Prod.mk _) (if_pos debug)⟩
  · exact ⟨before.log, congrArg (Prod.mk _) (if_neg debug)⟩

end Eval

/-- A function of the table always answers, and changes nothing but the scene and the log. -/
theorem Builtin.call_cases (function : Builtin) (given : Nat) (p1 p2 : Int64) (before : Invocation) :
    ∃ value scene log, (function.call p1 p2).run.run before = (.ok value, { before with scene, log }) ∧
      (Step.call (.builtin function) given p1 p2).Changes before.scene scene := by
  have noted (line : Scene → String) : ∃ log,
      (do Eval.note line; return (0 : Int64) : Eval Int64).run.run before = (.ok 0, { before with log }) := by
    obtain ⟨log, ran⟩ := Eval.run_note line before
    exact ⟨log, by rw [Eval.run_bind, ran]; rfl⟩
  cases function
  case approachControlPosition => exact ⟨_, _, before.log, rfl, .position given p1 p2 before.scene⟩
  case approachControlSpeed => exact ⟨_, _, before.log, rfl, .speed given p1 p2 before.scene⟩
  case allowClearToPartialRoute => exact ⟨_, _, before.log, rfl, .partialRoute given p1 p2 before.scene⟩
  case debugHeader =>
    obtain ⟨log, ran⟩ := noted _
    exact ⟨0, before.scene, log, ran, .nothing _ _⟩
  case debugOut =>
    obtain ⟨log, ran⟩ := noted _
    exact ⟨0, before.scene, log, ran, .nothing _ _⟩
  all_goals exact ⟨_, before.scene, before.log, rfl, .nothing _ _⟩

namespace Step

/-- All that a step does. -/
theorem run_cases (step : Step) (before : Invocation) :
    ∃ outcome scene locals log,
      step.run.run.run before = (outcome, { before with scene, locals, log, deeds := step.deeds ++ before.deeds }) ∧
        step.Changes before.scene scene := by
  cases step with
  | stop fault => exact ⟨_, _, _, _, rfl, .nothing _ _⟩
  | passOver => exact ⟨_, _, _, _, rfl, .nothing _ _⟩
  | readLocal index => exact ⟨_, _, _, _, rfl, .nothing _ _⟩
  | readSlot slot =>
    cases slot with
    | known slot =>
      exact ⟨before.scene.slotValue slot, _, _, _, Eval.run_liftFault (before.scene.slotValue slot) _, .nothing _ _⟩
    | unknown code => exact ⟨_, _, _, _, rfl, .nothing _ _⟩
  | call callee given p1 p2 =>
    cases callee with
    | builtin function =>
      obtain ⟨value, scene, log, ran, changed⟩ :=
        function.call_cases given p1 p2 { before with deeds := .call (.builtin function) given p1 p2 :: before.deeds }
      exact ⟨.ok value, scene, before.locals, log, ran, changed⟩
    | none | returning | unknown => exact ⟨_, _, _, _, rfl, .nothing _ _⟩
  | setLocal index value => exact ⟨_, _, _, _, rfl, .nothing _ _⟩
  | setSlot slot value =>
    rcases slot with slot | code
    · cases slot
      case state => exact ⟨_, _, _, _, rfl, .state value _⟩
      case drawState => exact ⟨_, _, _, _, rfl, .drawState value _⟩
      all_goals exact ⟨_, _, _, _, rfl, .nothing _ _⟩
    · exact ⟨_, _, _, _, rfl, .nothing _ _⟩

end Step

end Lineside
