import Lineside.Engine
import Lineside.Proofs.StoredMeaning

/-! Else-if arms are an abbreviation. A branch with arms does the same as one without, in whose else block
every arm has become a branch of its own, nested in the else block of the one before it; and the one is valid
where the other is. -/

namespace Lineside

/-- The else block that takes the place of arms and an else block. A missing arm is passed over. -/
def chained : List Arm → List Node → List Node
  | [], otherwise => otherwise
  | .absent :: rest, otherwise => chained rest otherwise
  | .arm conditions body :: rest, otherwise => [.branch conditions body [] (chained rest otherwise)]

mutual

/-- The node without arms at any depth. -/
def Node.nested : Node → Node
  | .absent => .absent
  | .statement statement => .statement statement
  | .branch conditions body arms otherwise =>
    .branch conditions (nestedNodes body) [] (chained (nestedArms arms) (nestedNodes otherwise))

def nestedNodes : List Node → List Node
  | [] => []
  | node :: rest => node.nested :: nestedNodes rest

def nestedArms : List Arm → List Arm
  | [] => []
  | .absent :: rest => .absent :: nestedArms rest
  | .arm conditions body :: rest => .arm conditions (nestedNodes body) :: nestedArms rest

end

def Script.nested (script : Script) : Script := { script with nodes := nestedNodes script.nodes }

mutual

/-- No arm is missing, at any depth. -/
def Node.armed : Node → Bool
  | .absent | .statement _ => true
  | .branch _ body arms otherwise => nodesArmed body && armsArmed arms && nodesArmed otherwise

def nodesArmed : List Node → Bool
  | [] => true
  | node :: rest => node.armed && nodesArmed rest

def armsArmed : List Arm → Bool
  | [] => true
  | .absent :: _ => false
  | .arm _ body :: rest => nodesArmed body && armsArmed rest

end

theorem absent_notMem_nestedArms : (arms : List Arm) → armsArmed arms = true → .absent ∉ nestedArms arms
  | [], _ => by simp [nestedArms]
  | .absent :: rest, armed => by simp [armsArmed] at armed
  | .arm conditions body :: rest, armed => by
    simp only [armsArmed, Bool.and_eq_true] at armed
    simp [nestedArms, absent_notMem_nestedArms rest armed.2]

/-! What the branches do. -/

theorem runNodes_singleton (node : Node) : runNodes [node] = runNode node := by
  have same : (fun continued : Bool => if continued then pure true else pure false) = (pure : Bool → Eval Bool) := by
    funext continued
    cases continued <;> rfl
  simp only [runNodes, same, bind_pure]

/-- The arms are tried in the order in which the branches are nested, and no condition is looked at twice. -/
theorem runNodes_chained {arms : List Arm} (present : .absent ∉ arms) (otherwise : List Node) :
    runNodes (chained arms otherwise) = (do
      match ← runArms arms with
      | some continued => return continued
      | none => runNodes otherwise) := by
  induction arms with
  | nil => simp [chained, runArms]
  | cons arm rest ih =>
    cases arm with
    | absent => simp at present
    | arm conditions body =>
      simp only [List.mem_cons, reduceCtorEq, false_or] at present
      simp only [chained, runNodes_singleton, runNode, runArms, ih present, pure_bind, bind_assoc]
      congr 1
      funext holds
      cases holds <;> simp

theorem runNode_chained {arms : List Arm} (present : .absent ∉ arms) (conditions : List Element)
    (body otherwise : List Node) :
    runNode (.branch conditions body [] (chained arms otherwise)) =
      runNode (.branch conditions body arms otherwise) := by
  simp only [runNode, runArms, pure_bind]
  congr 1
  funext holds
  cases holds with
  | true => rfl
  | false => exact runNodes_chained present otherwise

mutual

theorem runNodes_nested : (nodes : List Node) → nodesArmed nodes = true → runNodes (nestedNodes nodes) = runNodes nodes
  | [], _ => by rw [nestedNodes]
  | node :: rest, armed => by
    simp only [nodesArmed, Bool.and_eq_true] at armed
    simp only [nestedNodes, runNodes, runNode_nested node armed.1, runNodes_nested rest armed.2]

theorem runNode_nested : (node : Node) → node.armed = true → runNode node.nested = runNode node
  | .absent, _ => by rw [Node.nested]
  | .statement statement, _ => by rw [Node.nested]
  | .branch conditions body arms otherwise, armed => by
    simp only [Node.armed, Bool.and_eq_true] at armed
    obtain ⟨⟨inside, tried⟩, left⟩ := armed
    rw [Node.nested, runNode_chained (absent_notMem_nestedArms arms tried)]
    simp only [runNode, runNodes_nested body inside, runArms_nested arms tried, runNodes_nested otherwise left]

theorem runArms_nested : (arms : List Arm) → armsArmed arms = true → runArms (nestedArms arms) = runArms arms
  | [], _ => by rw [nestedArms]
  | .absent :: rest, _ => by simp only [nestedArms, runArms]
  | .arm conditions body :: rest, armed => by
    simp only [armsArmed, Bool.and_eq_true] at armed
    simp only [nestedArms, runArms, runNodes_nested body armed.1, runArms_nested rest armed.2]

end

/-! When the branches are valid. -/

section Validity

variable {count : Int64}

theorem chained_wellFormed {arms : List Arm} (present : .absent ∉ arms) (otherwise : List Node) :
    (∀ node ∈ chained arms otherwise, node.WellFormed count) ↔
      (∀ arm ∈ arms, arm.WellFormed count) ∧ ∀ node ∈ otherwise, node.WellFormed count := by
  induction arms with
  | nil => simp [chained]
  | cons arm rest ih =>
    cases arm with
    | absent => simp at present
    | arm conditions body =>
      simp only [List.mem_cons, reduceCtorEq, false_or] at present
      simp only [chained, List.forall_mem_singleton, List.forall_mem_cons, Node.wellFormed_branch, Arm.wellFormed_arm,
        ih present, List.not_mem_nil, false_imp_iff, implies_true, true_and, and_assoc]

mutual

theorem nestedNodes_wellFormed : (nodes : List Node) → nodesArmed nodes = true →
    ((∀ node ∈ nestedNodes nodes, node.WellFormed count) ↔ ∀ node ∈ nodes, node.WellFormed count)
  | [], _ => by simp [nestedNodes]
  | node :: rest, armed => by
    simp only [nodesArmed, Bool.and_eq_true] at armed
    rw [nestedNodes, List.forall_mem_cons, List.forall_mem_cons, nested_wellFormed node armed.1,
      nestedNodes_wellFormed rest armed.2]

theorem nested_wellFormed : (node : Node) → node.armed = true → (node.nested.WellFormed count ↔ node.WellFormed count)
  | .absent, _ => by rw [Node.nested]
  | .statement statement, _ => by rw [Node.nested]
  | .branch conditions body arms otherwise, armed => by
    simp only [Node.armed, Bool.and_eq_true] at armed
    obtain ⟨⟨inside, tried⟩, left⟩ := armed
    rw [Node.nested, Node.wellFormed_branch, Node.wellFormed_branch, nestedNodes_wellFormed body inside,
      chained_wellFormed (absent_notMem_nestedArms arms tried), nestedArms_wellFormed arms tried,
      nestedNodes_wellFormed otherwise left]
    simp

theorem nestedArms_wellFormed : (arms : List Arm) → armsArmed arms = true →
    ((∀ arm ∈ nestedArms arms, arm.WellFormed count) ↔ ∀ arm ∈ arms, arm.WellFormed count)
  | [], _ => by simp [nestedArms]
  | .absent :: rest, armed => by simp [armsArmed] at armed
  | .arm conditions body :: rest, armed => by
    simp only [armsArmed, Bool.and_eq_true] at armed
    rw [nestedArms, List.forall_mem_cons, List.forall_mem_cons, Arm.wellFormed_arm, Arm.wellFormed_arm,
      nestedNodes_wellFormed body armed.1, nestedArms_wellFormed rest armed.2]

end

end Validity

namespace Script

theorem validate_nested {script : Script} (armed : nodesArmed script.nodes = true) :
    validate (some script.nested) = .ok none ↔ validate (some script) = .ok none := by
  rw [validate_eq_none, validate_eq_none]
  have nodes : (∀ node ∈ nestedNodes script.nodes, node.WellFormed script.localCount) ↔
      ∀ node ∈ script.nodes, node.WellFormed script.localCount :=
    nestedNodes_wellFormed script.nodes armed
  exact ⟨fun ⟨name, localCount, valid⟩ => ⟨name, localCount, nodes.mp valid⟩,
    fun ⟨name, localCount, valid⟩ => ⟨name, localCount, nodes.mpr valid⟩⟩

/-- A branch whose arms are all there runs as the one in which they are nested, and so does a script in which
this is done at every depth: its nodes do the same to every invocation, the engine does the same with it, and it
is valid exactly if it was valid before. -/
theorem nested_same {script : Script} (armed : nodesArmed script.nodes = true) :
    (∀ conditions body arms otherwise, .absent ∉ arms → ∀ before,
      (runNode (.branch conditions body [] (chained arms otherwise))).run.run before =
        (runNode (.branch conditions body arms otherwise)).run.run before) ∧
    (∀ before, (runNodes script.nested.nodes).run.run before = (runNodes script.nodes).run.run before) ∧
    (∀ (engine : Engine) subject,
      engine.evaluate subject (some script.nested) = engine.evaluate subject (some script)) ∧
    (validate (some script.nested) = .ok none ↔ validate (some script) = .ok none) := by
  have runs : runNodes script.nested.nodes = runNodes script.nodes := runNodes_nested script.nodes armed
  refine ⟨?_, fun before => by rw [runs], fun engine subject => engine.evaluate_congr subject rfl runs,
    validate_nested armed⟩
  intro conditions body arms otherwise present before
  rw [runNode_chained present]

end Script

/-- Two arms, the second of which holds a branch with an arm that returns. The first condition asks for approach
control. -/
private def approach : Script where
  name := "approach"
  localCount := 1
  nodes := [.branch
    [.condition { first := some {
      function := .builtin .approachControlPosition, params := [some { operand := .constant 50 }] } }]
    [.statement { target := .slot (.known .state), terms := [some { params := [some { operand := .constant 1 }] }] }]
    [.arm [.condition { first := some { function := .builtin .routeSet } }] [],
      .arm [.negation, .condition { first := some { params := [some { operand := .localVar 0 }] } }]
        [.branch [.condition { first := some { function := .builtin .blockState } }] []
          [.arm [.condition { first := some { function := .builtin .trainHasCallOn } }] [.statement .leave]] []]]
    [.statement .leave]]

theorem nested_same_approach :
    nodesArmed approach.nodes = true ∧ Script.validate (some approach) = .ok none ∧
      Script.validate (some approach.nested) = .ok none ∧
      ∀ (engine : Engine) subject,
        engine.evaluate subject (some approach.nested) = engine.evaluate subject (some approach) := by
  have armed : nodesArmed approach.nodes = true := by decide +kernel
  have valid : Script.validate (some approach) = .ok none :=
    Script.validate_eq_none_iff.mpr ⟨by simp [approach], by decide, by dsimp only [approach]; cbv⟩
  obtain ⟨_, _, runs, validity⟩ := Script.nested_same armed
  exact ⟨armed, valid, validity.mpr valid, runs⟩

end Lineside
