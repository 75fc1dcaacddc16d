import Lineside.Engine
import Lineside.Proofs.Attachment
import Lineside.Proofs.EvaluationLogic
import Lineside.Proofs.WellFormed

/-! A script that passes the validator runs to its end for every attached head, and nothing it does on
the way is one of the things the evaluator merely tolerates. -/

namespace Lineside

/-- Nothing had to be tolerated: the local is one of the invocation's, the slot is known, the function
stands in the table and has all its parameters, and nothing is missing. -/
def Deed.Sound (locals : Locals) : Deed → Prop
  | .readLocal index | .setLocal index => locals.InRange index
  | .readSlot slot | .setSlot slot => slot.Known
  | .call callee given _ _ => ∃ function, callee = .builtin function ∧ given = function.arity
  | .passOver => False

/-- The state of a run that started with `locals`. -/
structure Invocation.Sound (locals : Locals) (invocation : Invocation) : Prop where
  attached : invocation.scene.Attached
  size : invocation.locals.size = locals.size
  deeds : ∀ deed ∈ invocation.deeds, deed.Sound locals

namespace Locals

@[simp] theorem set_size (locals : Locals) (index value : Int64) :
    (locals.set index value).size = locals.size := by
  unfold set
  split <;> rfl

theorem fresh_ok {count : Int64} (positive : 0 ≤ count) (room : count ≤ capacity) :
    fresh count = .ok { size := count.toInt.toNat } := by
  rw [fresh, if_neg]
  simp only [Int64.lt_iff_toInt_lt, Int64.le_iff_toInt_le] at *
  omega

/-- The indices that are valid for a count are those of its fresh locals. -/
theorem inRange_of_fresh {count index : Int64} {locals : Locals} (fresh : fresh count = .ok locals)
    (valid : LocalIndex count index) : locals.InRange index := by
  unfold Locals.fresh at fresh
  split at fresh
  · cases fresh
  · cases fresh
    obtain ⟨lower, upper⟩ := valid
    simp only [InRange, Int64.lt_iff_toInt_lt, Int64.le_iff_toInt_le, Int64.toInt_zero] at *
    omega

end Locals

section Run

open Eval

variable {count : Int64} {locals : Locals}

private theorem record_answers (deed : Deed) (sound : deed.Sound locals) :
    Answers (Invocation.Sound locals) (record deed) :=
  .modify fun _ before => ⟨before.attached, before.size, List.forall_mem_cons.mpr ⟨sound, before.deeds⟩⟩

private theorem act_answers {α : Type} {action : Scene → α × Scene}
    (keeps : ∀ scene : Scene, scene.Attached → (action scene).2.Attached) :
    Answers (Invocation.Sound locals) (act action) :=
  .act fun _ before => ⟨keeps _ before.attached, before.size, before.deeds⟩

private theorem note_answers (line : Scene → String) : Answers (Invocation.Sound locals) (note line) :=
  .note fun _ _ before => ⟨before.attached, before.size, before.deeds⟩

theorem Builtin.call_answers (function : Builtin) (p1 p2 : Int64) :
    Answers (Invocation.Sound locals) (function.call p1 p2) := by
  cases function <;> rw [Builtin.call]
  case approachControlPosition => exact (act_answers fun _ attached => attached.requestPosition p1).map _
  case approachControlSpeed => exact (act_answers fun _ attached => attached.requestSpeed p1 p2).map _
  case allowClearToPartialRoute => exact act_answers fun _ attached => attached.allowPartialRoute (p1 != 0)
  case debugHeader => exact (note_answers _).bind fun _ => .pure _
  case debugOut => exact (note_answers _).bind fun _ => .pure _
  all_goals exact .ask _

theorem Operand.value_answers (fresh : Locals.fresh count = .ok locals) {operand : Operand}
    (valid : operand.WellFormed count) : Answers (Invocation.Sound locals) operand.value := by
  cases operand with
  | constant value => exact .pure _
  | localVar index =>
    refine (record_answers (.readLocal index) (Locals.inRange_of_fresh fresh valid)).bind fun _ => ?_
    exact .get_bind fun _ _ => .pure _
  | slot which =>
    refine (record_answers (.readSlot which) valid).bind fun _ => ?_
    cases which with
    | known slot => exact .get_bind fun now sound => .liftFault (now.scene.slotValue_ok sound.attached slot)
    | unknown code => exact valid.elim
  | blank => exact .pure _

/-- A parameter is read where there is one; the guard for a missing one is not needed. -/
theorem parameterValueAt_answers (fresh : Locals.fresh count = .ok locals)
    {params : List (Option Parameter)}
    (valid : ∀ entry ∈ params, ∃ parameter, entry = some parameter ∧ parameter.operand.WellFormed count)
    (index : Nat) : Answers (Invocation.Sound locals) (parameterValueAt params index) := by
  unfold parameterValueAt
  split
  next entry found =>
    obtain ⟨parameter, rfl, valid⟩ := valid entry (List.mem_of_getElem? found)
    exact (Operand.value_answers fresh valid).bind fun _ => .pure _
  next => exact .pure _

theorem Term.value_answers (fresh : Locals.fresh count = .ok locals) {term : Term}
    (valid : term.WellFormed count) (calls : term.returns = false) {deeper : Eval Int64}
    (below : Answers (Invocation.Sound locals) deeper) :
    Answers (Invocation.Sound locals) (term.value deeper) := by
  have parameter := parameterValueAt_answers fresh valid.params
  refine Answers.map (.ite (fun called => ?_) fun _ => .ite (fun _ => below) fun _ => parameter 0) _
  refine (parameter 0).bind fun p1 => (parameter 1).bind fun p2 => ?_
  -- Only a function of the table is left: the return marker ends a list before it is evaluated.
  have callable := valid.callable
  unfold Term.Callable at callable
  cases function : term.function with
  | none => exact absurd function called
  | returning => simp [returns, function] at calls
  | builtin builtin =>
    rw [function] at callable
    exact (record_answers (.call _ _ p1 p2) ⟨builtin, rfl, callable⟩).bind fun _ => builtin.call_answers p1 p2
  | unknown code => simp [function] at callable

variable {terms : List (Option Term)}

theorem foldLevel_answers (fresh : Locals.fresh count = .ok locals)
    (valid : ∀ entry ∈ terms, ∃ term, entry = some term ∧ term.WellFormed count) {deeper : Eval Int64}
    (below : Answers (Invocation.Sound locals) deeper) (level total : Int64) :
    Answers (Invocation.Sound locals) (foldLevel deeper level terms total) := by
  induction terms generalizing total with
  | nil => exact .pure total
  | cons entry rest ih =>
    obtain ⟨⟨term, rfl, here⟩, others⟩ := List.forall_mem_cons.mp valid
    rw [foldLevel]
    refine .ite (fun _ => .pure total) fun calls => .ite (fun _ => ih others total) fun _ => ?_
    exact (Term.value_answers fresh here (by simpa using calls) below).bind fun _ => ih others _

theorem evalTerms_answers (fresh : Locals.fresh count = .ok locals)
    (valid : ∀ entry ∈ terms, ∃ term, entry = some term ∧ term.WellFormed count) (level : Int64) :
    Answers (Invocation.Sound locals) (evalTerms terms level) := by
  rw [evalTerms]
  refine foldLevel_answers fresh valid (.ite (fun _ => ?_) fun _ => .pure 0) level 0
  exact evalTerms_answers fresh valid (level + 1)
termination_by depthFrom terms level
decreasing_by exact depthFrom_succ_lt ‹_›

theorem Condition.eval_answers (fresh : Locals.fresh count = .ok locals) {condition : Condition}
    (valid : condition.WellFormed count) : Answers (Invocation.Sound locals) condition.eval := by
  have single {term : Term} (valid : term.WellFormed count) :
      Answers (Invocation.Sound locals) (evalTerms [some term] term.sublevel) :=
    evalTerms_answers fresh (by simpa using valid) _
  obtain ⟨first, given, one⟩ := valid.first
  rw [Condition.eval, given]
  refine (single one).bind fun _ => ?_
  split
  · exact .pure _
  next second found => exact (single (valid.second second found).1).bind fun _ => .pure _

theorem evalElements_answers (fresh : Locals.fresh count = .ok locals) :
    (elements : List Element) → (∀ element ∈ elements, element.WellFormed count) →
      (sofar : Bool) → (marker : Combinator) → (negated : Bool) →
        Answers (Invocation.Sound locals) (evalElements elements sofar marker negated)
  | [], _, sofar, _, _ => by
    rw [evalElements]
    exact .pure sofar
  | element :: rest, valid, sofar, marker, negated => by
    obtain ⟨here, others⟩ := List.forall_mem_cons.mp valid
    cases here with
    | combinator next =>
      rw [evalElements]
      exact evalElements_answers fresh rest others sofar next negated
    | negation =>
      rw [evalElements]
      exact evalElements_answers fresh rest others sofar marker true
    | condition test =>
      rw [evalElements]
      exact (Condition.eval_answers fresh test).bind fun _ => evalElements_answers fresh rest others _ _ _
    | @group elements _ members =>
      rw [evalElements]
      exact (evalElements_answers fresh elements members true .none false).bind fun _ =>
        evalElements_answers fresh rest others _ _ _

theorem Target.store_answers (fresh : Locals.fresh count = .ok locals) {target : Target}
    (valid : target.WellFormed count) (value : Int64) :
    Answers (Invocation.Sound locals) (target.store value) := by
  cases target with
  | none => exact .pure ()
  | localVar index =>
    refine (record_answers (.setLocal index) (Locals.inRange_of_fresh fresh valid)).bind fun _ => ?_
    exact .modify fun _ before => ⟨before.attached, by simp [before.size], before.deeds⟩
  | slot which =>
    refine (record_answers (.setSlot which) valid).bind fun _ => ?_
    split
    · exact .modify fun _ before => ⟨before.attached.setState _, before.size, before.deeds⟩
    · exact .modify fun _ before => ⟨before.attached.setDrawState _, before.size, before.deeds⟩
    · exact .pure ()

mutual

theorem runNodes_answers (fresh : Locals.fresh count = .ok locals) :
    (nodes : List Node) → (∀ node ∈ nodes, node.WellFormed count) →
      Answers (Invocation.Sound locals) (runNodes nodes)
  | [], _ => .pure true
  | node :: rest, valid => by
    obtain ⟨here, others⟩ := List.forall_mem_cons.mp valid
    rw [runNodes]
    refine (runNode_answers fresh node here).bind fun _ => ?_
    exact .ite (fun _ => runNodes_answers fresh rest others) fun _ => .pure false

theorem runNode_answers (fresh : Locals.fresh count = .ok locals) :
    (node : Node) → node.WellFormed count → Answers (Invocation.Sound locals) (runNode node)
  | .absent, valid => by cases valid
  | .statement statement, valid => by
    rw [runNode]
    cases valid with
    | leave returns =>
      rw [returns]
      exact .pure false
    | assign valid =>
      refine (Answers.liftFault valid.returns_total).bind fun _ => .ite (fun _ => .pure false) fun _ => ?_
      refine (evalTerms_answers fresh valid.terms 0).bind fun value => ?_
      exact (Target.store_answers fresh valid.target value).bind fun _ => .pure true
  | .branch conditions body arms otherwise, valid => by
    cases valid with
    | branch test inside tried left =>
      rw [runNode]
      refine (evalElements_answers fresh conditions test.members true .none false).bind fun _ => ?_
      refine .ite (fun _ => runNodes_answers fresh body inside) fun _ => ?_
      refine (runArms_answers fresh arms tried).bind fun chosen => ?_
      cases chosen with
      | some continued => exact .pure continued
      | none => exact runNodes_answers fresh otherwise left

theorem runArms_answers (fresh : Locals.fresh count = .ok locals) :
    (arms : List Arm) → (∀ arm ∈ arms, arm.WellFormed count) →
      Answers (Invocation.Sound locals) (runArms arms)
  | [], _ => .pure none
  | .absent :: rest, valid => by cases valid .absent (by simp)
  | .arm conditions body :: rest, valid => by
    obtain ⟨here, others⟩ := List.forall_mem_cons.mp valid
    cases here with
    | arm test inside =>
      rw [runArms]
      refine (evalElements_answers fresh conditions test.members true .none false).bind fun _ => ?_
      refine .ite (fun _ => ?_) fun _ => runArms_answers fresh rest others
      exact (runNodes_answers fresh body inside).bind fun _ => .pure _

end

end Run

namespace Engine

/-- The run of a script ends without a fault where its nodes answer from fresh locals. -/
private theorem runScript_of_answers (engine : Engine) (subject : Subject) {script : Script} {locals : Locals}
    {invariant : Invocation → Prop} (fresh : Locals.fresh script.localCount = .ok locals)
    (answers : Eval.Answers invariant (runNodes script.nodes))
    (start : invariant { scene := { network := engine.network, subject }, locals, debug := engine.debug }) :
    ∃ final, invariant final ∧ (engine.runScript subject script).fault = none ∧
      (engine.runScript subject script).deeds = final.deeds := by
  obtain ⟨continued, final, ran, holds⟩ := answers _ start
  refine ⟨final, holds, ?_⟩
  rw [runScript, fresh]
  dsimp only
  rw [ran]
  cases continued <;> exact ⟨rfl, rfl⟩

/-- Evaluating a valid script for an attached head ends without a fault, provided its locals can be
allocated. All locals it touches are among them, all slots are known, all calls go to the function table
with as many parameters as the function takes, and nothing that it meets is missing. -/
theorem evaluate_sound (engine : Engine) (subject : Subject) (script : Script)
    (valid : Script.validate (some script) = .ok none)
    (attached : Scene.Attached { network := engine.network, subject })
    (room : script.localCount ≤ Locals.capacity) :
    ∃ locals, Locals.fresh script.localCount = .ok locals ∧
      (engine.evaluate subject (some script)).fault = none ∧
      ∀ deed ∈ (engine.evaluate subject (some script)).deeds, deed.Sound locals := by
  have wellFormed := Script.validate_eq_none.mp valid
  have fresh := Locals.fresh_ok wellFormed.localCount room
  obtain ⟨final, sound, faultless, done⟩ := runScript_of_answers engine subject fresh
    (runNodes_answers fresh script.nodes wellFormed.nodes) ⟨attached, rfl, by simp⟩
  refine ⟨_, fresh, faultless, ?_⟩
  rw [evaluate, done]
  exact sound.deeds

end Engine

/-- A script with a call, a local, a slot, a group and an else-if arm. Behind a return nothing counts. -/
private def crossing : Script where
  name := "crossing"
  localCount := 1
  nodes := [
    .statement {
      target := .localVar 0
      terms := [some { function := .builtin .hasHead, params := [some { operand := .constant 1 }] }] },
    .branch [.negation, .group [.condition { first := some { params := [some { operand := .localVar 0 }] } }]]
      [.statement { target := .slot (.known .state), terms := [some { function := .builtin .blockState }] }]
      [.arm [.condition { first := some { params := [some { operand := .slot (.known .enabled) }] } }]
        [.statement { terms := [some { function := .returning }, none] }]]
      []]

private def junction : Network := .holding [{ id := "S", heads := [{ number := 1, kind := "crossing" }] }] none

theorem evaluate_sound_crossing :
    Script.validate (some crossing) = .ok none ∧
    ∃ locals, Locals.fresh 1 = .ok locals ∧
      (Engine.evaluate { network := junction } (.mounted ⟨0, 0⟩) (some crossing)).fault = none ∧
      ∀ deed ∈ (Engine.evaluate { network := junction } (.mounted ⟨0, 0⟩) (some crossing)).deeds,
        deed.Sound locals := by
  have valid : Script.validate (some crossing) = .ok none :=
    Script.validate_eq_none_iff.mpr ⟨by simp [crossing], by decide, by dsimp only [crossing]; cbv⟩
  exact ⟨valid, Engine.evaluate_sound _ _ crossing valid rfl (by decide)⟩

end Lineside
