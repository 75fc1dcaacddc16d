import Lineside.Engine
import Lineside.Proofs.WrittenScript
import Mathlib

/-! Storing a valid script keeps its meaning, apart from the words that a document lacks: whether what was
stored is valid, and whether it does the same. -/

namespace Lineside

/-! What the script does. -/

mutual

theorem runNodes_bared : (nodes : List Node) → runNodes (baredNodes nodes) = runNodes nodes
  | [] => by rw [baredNodes]
  | node :: rest => by
    simp only [baredNodes, runNodes, runNode_bared node, runNodes_bared rest]

theorem runNode_bared : (node : Node) → runNode node.bared = runNode node
  | .absent => by rw [Node.bared]
  | .statement statement => by
    rw [Node.bared, Statement.bared]
    split
    next returns => simp [runNode, returns, Eval.liftFault]
    next => rfl
  | .branch conditions body arms otherwise => by
    simp only [Node.bared, runNode, runNodes_bared body, runArms_bared arms, runNodes_bared otherwise]

theorem runArms_bared : (arms : List Arm) → runArms (baredArms arms) = runArms arms
  | [] => by rw [baredArms]
  | .absent :: rest => by simp only [baredArms, runArms]
  | .arm conditions body :: rest => by
    simp only [baredArms, runArms, runNodes_bared body, runArms_bared rest]

end

/-- A condition or group behind the first one is joined by the marker that starts over. `later` says that
there was a condition or group before, and `waiting` that such a marker waits for the next one. -/
def restarts (later waiting : Bool) : List Element → Bool
  | [] => false
  | .absent :: rest | .negation :: rest => restarts later waiting rest
  | .combinator marker :: rest => restarts later (marker == .none) rest
  | .condition _ :: rest | .group _ :: rest => later && waiting || restarts true false rest

theorem Condition.eval_written (condition : Condition) : condition.written.eval = condition.eval := by
  have same (a b : Int64) : condition.comparator.written.holds a b = condition.comparator.holds a b := by
    cases condition.comparator <;> rfl
  simp only [Condition.eval, Condition.written, same]

/-- In front of the first condition, where everything holds so far, `and` starts over as well. -/
theorem Combinator.apply_written {later waiting sofar : Bool} {marker : Combinator} (kept : (later && waiting) = false)
    (first : later = false → sofar = true) (waits : waiting = true → marker = .none) (value : Bool) :
    (if waiting then Combinator.and else marker).apply sofar value = marker.apply sofar value := by
  cases waiting with
  | false => rfl
  | true =>
    rw [Bool.and_true] at kept
    simp [waits rfl, first kept, Combinator.apply]

theorem evalElements_written : (elements : List Element) → (later waiting : Bool) →
    restarts later waiting elements = false → (∀ list ∈ innerLists elements, restarts false false list = false) →
    (sofar : Bool) → (marker : Combinator) → (negated : Bool) →
    (later = false → sofar = true) → (waiting = true → marker = .none) →
      evalElements (writtenElements elements) sofar (if waiting then .and else marker) negated =
        evalElements elements sofar marker negated
  | [], _, _, _, _, _, _, _, _, _ => by simp only [writtenElements, evalElements]
  | .absent :: rest, later, waiting, kept, inner, sofar, marker, negated, first, waits => by
    rw [restarts] at kept
    simp only [innerLists] at inner
    simp only [writtenElements, evalElements,
      evalElements_written rest later waiting kept inner sofar marker negated first waits]
  | .combinator next :: rest, later, waiting, kept, inner, sofar, marker, negated, first, waits => by
    -- A marker that starts over was written as `and`, and waits for the next condition.
    rw [restarts] at kept
    simp only [innerLists] at inner
    have read := evalElements_written rest later (next == .none) kept inner sofar next negated first (by simp)
    have same : (if (next == .none) = true then Combinator.and else next) = next.written := by cases next <;> rfl
    rw [same] at read
    simp only [writtenElements, evalElements, read]
  | .negation :: rest, later, waiting, kept, inner, sofar, marker, negated, first, waits => by
    rw [restarts] at kept
    simp only [innerLists] at inner
    simp only [writtenElements, evalElements,
      evalElements_written rest later waiting kept inner sofar marker true first waits]
  | .condition condition :: rest, later, waiting, kept, inner, sofar, marker, negated, first, waits => by
    rw [restarts, Bool.or_eq_false_iff] at kept
    simp only [innerLists] at inner
    have read sofar := evalElements_written rest true false kept.2 inner sofar .none false (by simp) (by simp)
    simp only [Bool.false_eq_true, if_false] at read
    simp only [writtenElements, evalElements, Condition.eval_written, Combinator.apply_written kept.1 first waits, read]
  | .group elements :: rest, later, waiting, kept, inner, sofar, marker, negated, first, waits => by
    rw [restarts, Bool.or_eq_false_iff] at kept
    simp only [innerLists] at inner
    have read sofar := evalElements_written rest true false kept.2
      (fun list member => inner list (by simp [member])) sofar .none false (by simp) (by simp)
    have group := evalElements_written elements false false (inner elements (by simp))
      (fun list member => inner list (by simp [member])) true .none false (by simp) (by simp)
    simp only [Bool.false_eq_true, if_false] at read group
    simp only [writtenElements, evalElements, group, Combinator.apply_written kept.1 first waits, read]

theorem evalConditions_written {elements : List Element}
    (kept : ∀ list ∈ elements :: innerLists elements, restarts false false list = false) :
    evalConditions (writtenElements elements) = evalConditions elements := by
  obtain ⟨here, inner⟩ := List.forall_mem_cons.mp kept
  exact evalElements_written elements false false here inner true .none false (by simp) (by simp)

mutual

theorem runNodes_written : (nodes : List Node) →
    (∀ list ∈ nodesConditionLists nodes, restarts false false list = false) →
    runNodes (writtenNodes nodes) = runNodes nodes
  | [], _ => by rw [writtenNodes]
  | node :: rest, kept => by
    rw [nodesConditionLists, List.forall_mem_append] at kept
    simp only [writtenNodes, runNodes, runNode_written node kept.1, runNodes_written rest kept.2]

theorem runNode_written : (node : Node) → (∀ list ∈ node.conditionLists, restarts false false list = false) →
    runNode node.written = runNode node
  | .absent, _ => by rw [Node.written]
  | .statement statement, _ => by rw [Node.written]
  | .branch conditions body arms otherwise, kept => by
    simp only [Node.conditionLists, List.forall_mem_append] at kept
    obtain ⟨⟨⟨test, inside⟩, tried⟩, left⟩ := kept
    simp only [Node.written, runNode, evalConditions_written test, runNodes_written body inside,
      runArms_written arms tried, runNodes_written otherwise left]

theorem runArms_written : (arms : List Arm) → (∀ list ∈ armsConditionLists arms, restarts false false list = false) →
    runArms (writtenArms arms) = runArms arms
  | [], _ => by rw [writtenArms]
  | .absent :: rest, _ => by simp only [writtenArms, runArms]
  | .arm conditions body :: rest, kept => by
    simp only [armsConditionLists, List.forall_mem_append] at kept
    obtain ⟨⟨test, inside⟩, others⟩ := kept
    simp only [writtenArms, runArms, evalConditions_written test, runNodes_written body inside,
      runArms_written rest others]

end

theorem Engine.evaluate_congr (engine : Engine) (subject : Subject) {script other : Script}
    (locals : other.localCount = script.localCount) (runs : runNodes other.nodes = runNodes script.nodes) :
    engine.evaluate subject (some other) = engine.evaluate subject (some script) := by
  simp only [evaluate, runScript, locals, runs]

/-! Whether what was stored is valid. -/

section Validity

variable {count : Int64}

mutual

theorem baredNodes_wellFormed : (nodes : List Node) →
    ((∀ node ∈ baredNodes nodes, node.WellFormed count) ↔ ∀ node ∈ nodes, node.WellFormed count)
  | [] => by simp [baredNodes]
  | node :: rest => by
    rw [baredNodes, List.forall_mem_cons, List.forall_mem_cons, bared_wellFormed node, baredNodes_wellFormed rest]

theorem bared_wellFormed : (node : Node) → (node.bared.WellFormed count ↔ node.WellFormed count)
  | .absent => by rw [Node.bared]
  | .statement statement => by
    rw [Node.bared, Statement.bared]
    split
    next returns => simp [Node.wellFormed_statement, returns]
    next => rfl
  | .branch conditions body arms otherwise => by
    rw [Node.bared, Node.wellFormed_branch, Node.wellFormed_branch, baredNodes_wellFormed body,
      baredArms_wellFormed arms, baredNodes_wellFormed otherwise]

theorem baredArms_wellFormed : (arms : List Arm) →
    ((∀ arm ∈ baredArms arms, arm.WellFormed count) ↔ ∀ arm ∈ arms, arm.WellFormed count)
  | [] => by simp [baredArms]
  | .absent :: rest => by
    rw [baredArms, List.forall_mem_cons, List.forall_mem_cons, baredArms_wellFormed rest]
  | .arm conditions body :: rest => by
    rw [baredArms, List.forall_mem_cons, List.forall_mem_cons, Arm.wellFormed_arm, Arm.wellFormed_arm,
      baredNodes_wellFormed body, baredArms_wellFormed rest]

end

/-- Two terms are compared in a way that the language knows. -/
def Condition.Compared (condition : Condition) : Prop :=
  condition.second.isSome → condition.comparator ≠ .unknown

theorem Comparator.written_ne_none {comparator : Comparator} :
    comparator.written ≠ .none ↔ comparator ≠ .none ∧ comparator ≠ .unknown := by
  cases comparator <;> simp [written]

theorem Condition.written_wellFormed {condition : Condition} :
    condition.written.WellFormed count ↔ condition.WellFormed count ∧ condition.Compared := by
  constructor
  · rintro ⟨one, two⟩
    refine ⟨⟨one, fun term given => ?_⟩, fun given => ?_⟩
    · obtain ⟨valid, compared⟩ := two term given
      exact ⟨valid, (Comparator.written_ne_none.mp compared).1⟩
    · obtain ⟨term, given⟩ := Option.isSome_iff_exists.mp given
      exact (Comparator.written_ne_none.mp (two term given).2).2
  · rintro ⟨⟨one, two⟩, compared⟩
    refine ⟨one, fun term given => ?_⟩
    obtain ⟨valid, present⟩ := two term given
    exact ⟨valid, Comparator.written_ne_none.mpr ⟨present, compared (Option.isSome_of_eq_some given)⟩⟩

theorem writtenElements_eq_nil {elements : List Element} : writtenElements elements = [] ↔ elements = [] := by
  rcases elements with _ | ⟨_ | _ | _ | _ | _, rest⟩ <;> simp [writtenElements]

theorem writtenElements_wellFormed : (elements : List Element) →
    ((∀ element ∈ writtenElements elements, element.WellFormed count) ↔
      (∀ element ∈ elements, element.WellFormed count) ∧
        ∀ list ∈ elements :: innerLists elements, ∀ condition ∈ listed list, condition.Compared)
  | [] => by simp [writtenElements, innerLists, listed]
  | .absent :: rest => by
    have never : ¬ Element.WellFormed count .absent := fun valid => by cases valid
    simp [writtenElements, never]
  | .combinator marker :: rest => by
    have others := writtenElements_wellFormed rest
    have valid (marker : Combinator) : Element.WellFormed count (.combinator marker) := .combinator marker
    simp only [List.forall_mem_cons] at others
    simp [writtenElements, others, innerLists, valid, listed, Element.condition?]
  | .negation :: rest => by
    have others := writtenElements_wellFormed rest
    have valid : Element.WellFormed count .negation := .negation
    simp only [List.forall_mem_cons] at others
    simp [writtenElements, others, innerLists, valid, listed, Element.condition?]
  | .condition condition :: rest => by
    have others := writtenElements_wellFormed rest
    simp only [List.forall_mem_cons] at others
    simp only [writtenElements, List.forall_mem_cons, others, Element.wellFormed_condition,
      Condition.written_wellFormed, innerLists, listed, Element.condition?, List.filterMap_cons]
    constructor
    · rintro ⟨⟨here, known⟩, valid, listed, inner⟩
      exact ⟨⟨here, valid⟩, ⟨known, listed⟩, inner⟩
    · rintro ⟨⟨here, valid⟩, ⟨known, listed⟩, inner⟩
      exact ⟨⟨here, known⟩, valid, listed, inner⟩
  | .group elements :: rest => by
    have others := writtenElements_wellFormed rest
    have inner := writtenElements_wellFormed elements
    simp only [List.forall_mem_cons] at others inner
    simp only [writtenElements, List.forall_mem_cons, others, inner, Element.wellFormed_group, ne_eq,
      writtenElements_eq_nil, innerLists, listed, Element.condition?, List.filterMap_cons, List.cons_append,
      List.forall_mem_append]
    constructor
    · rintro ⟨⟨present, here, direct, nested⟩, valid, listed, others⟩
      exact ⟨⟨⟨present, here⟩, valid⟩, listed, direct, nested, others⟩
    · rintro ⟨⟨⟨present, here⟩, valid⟩, listed, direct, nested, others⟩
      exact ⟨⟨present, here, direct, nested⟩, valid, listed, others⟩

theorem written_conditions {elements : List Element} :
    Conditions count (writtenElements elements) ↔ Conditions count elements ∧
      ∀ list ∈ elements :: innerLists elements, ∀ condition ∈ listed list, condition.Compared := by
  constructor
  · rintro ⟨present, members⟩
    obtain ⟨members, known⟩ := (writtenElements_wellFormed elements).mp members
    exact ⟨⟨fun empty => present (writtenElements_eq_nil.mpr empty), members⟩, known⟩
  · rintro ⟨⟨present, members⟩, known⟩
    exact ⟨fun empty => present (writtenElements_eq_nil.mp empty),
      (writtenElements_wellFormed elements).mpr ⟨members, known⟩⟩

mutual

theorem writtenNodes_wellFormed : (nodes : List Node) →
    ((∀ node ∈ writtenNodes nodes, node.WellFormed count) ↔ (∀ node ∈ nodes, node.WellFormed count) ∧
      ∀ list ∈ nodesConditionLists nodes, ∀ condition ∈ listed list, condition.Compared)
  | [] => by simp [writtenNodes, nodesConditionLists]
  | node :: rest => by
    rw [writtenNodes, nodesConditionLists, List.forall_mem_cons, List.forall_mem_cons, List.forall_mem_append,
      written_wellFormed node, writtenNodes_wellFormed rest, and_and_and_comm]

theorem written_wellFormed : (node : Node) → (node.written.WellFormed count ↔ node.WellFormed count ∧
    ∀ list ∈ node.conditionLists, ∀ condition ∈ listed list, condition.Compared)
  | .absent => by simp [Node.written, Node.conditionLists]
  | .statement statement => by simp [Node.written, Node.conditionLists]
  | .branch conditions body arms otherwise => by
    rw [Node.written, Node.conditionLists, Node.wellFormed_branch, Node.wellFormed_branch, written_conditions,
      writtenNodes_wellFormed body, writtenArms_wellFormed arms, writtenNodes_wellFormed otherwise,
      List.forall_mem_append, List.forall_mem_append, List.forall_mem_append]
    constructor
    · rintro ⟨⟨test, one⟩, ⟨inside, two⟩, ⟨tried, three⟩, left, four⟩
      exact ⟨⟨test, inside, tried, left⟩, ⟨⟨one, two⟩, three⟩, four⟩
    · rintro ⟨⟨test, inside, tried, left⟩, ⟨⟨one, two⟩, three⟩, four⟩
      exact ⟨⟨test, one⟩, ⟨inside, two⟩, ⟨tried, three⟩, left, four⟩

theorem writtenArms_wellFormed : (arms : List Arm) →
    ((∀ arm ∈ writtenArms arms, arm.WellFormed count) ↔ (∀ arm ∈ arms, arm.WellFormed count) ∧
      ∀ list ∈ armsConditionLists arms, ∀ condition ∈ listed list, condition.Compared)
  | [] => by simp [writtenArms, armsConditionLists]
  | .absent :: rest => by
    rw [writtenArms, armsConditionLists, List.forall_mem_cons, List.forall_mem_cons, writtenArms_wellFormed rest,
      and_assoc]
  | .arm conditions body :: rest => by
    rw [writtenArms, armsConditionLists, List.forall_mem_cons, List.forall_mem_cons, Arm.wellFormed_arm,
      Arm.wellFormed_arm, written_conditions, writtenNodes_wellFormed body, writtenArms_wellFormed rest,
      List.forall_mem_append, List.forall_mem_append]
    constructor
    · rintro ⟨⟨⟨test, one⟩, inside, two⟩, others, three⟩
      exact ⟨⟨⟨test, inside⟩, others⟩, ⟨one, two⟩, three⟩
    · rintro ⟨⟨⟨test, inside⟩, others⟩, ⟨one, two⟩, three⟩
      exact ⟨⟨⟨test, one⟩, inside, two⟩, others, three⟩

end

theorem Script.validate_stored {script : Script} (valid : validate (some script) = .ok none) :
    validate (some script.written.stored) = .ok none ↔ ∀ condition ∈ script.conditions, condition.Compared := by
  rw [validate_eq_none] at valid ⊢
  have nodes : (∀ node ∈ script.written.stored.nodes, node.WellFormed script.localCount) ↔
      ∀ condition ∈ script.conditions, condition.Compared := by
    rw [stored, bared, baredNodes_wellFormed, written, writtenNodes_wellFormed, conditions, List.forall_mem_flatMap]
    exact and_iff_right valid.nodes
  rw [← nodes]
  exact ⟨fun stored => stored.nodes,
    fun stored => ⟨mt Name.repaired_eq_empty.mp valid.name, valid.localCount, stored⟩⟩

end Validity

namespace Script

/-- Storing a valid script. It is always written. As far as the nesting of the text can be read, it can be
read back exactly where no operand is blank, what is read is valid exactly where terms are compared in a
way that the language knows, and it does the same for every head in every network unless a condition is
joined by a marker that starts over. -/
theorem decode_encode_valid {script : Script} (valid : validate (some script) = .ok none) :
    ∃ written, Document.Script.ofScript (some script) = .ok written ∧
      script.encode = .ok written.text.toUTF8 ∧
      (written.json.depth ≤ Json.maxDepth → ∀ kind,
        ((∃ stored, decode kind written.text.toUTF8 = .ok stored) ↔ .blank ∉ script.operands) ∧
        ∀ stored, decode kind written.text.toUTF8 = .ok stored →
          (validate (some stored) = .ok none ↔ ∀ condition ∈ script.conditions, condition.Compared) ∧
          ((∀ list ∈ script.conditionLists, restarts false false list = false) →
            ∀ (engine : Engine) (subject : Subject),
              engine.evaluate subject (some stored) = engine.evaluate subject (some script))) := by
  have wellFormed := validate_eq_none.mp valid
  obtain ⟨written, wrote⟩ := Document.Script.ofScript_total wellFormed
  refine ⟨written, wrote, by simp [encode, wrote], fun shallow kind => ⟨?_, fun stored read => ?_⟩⟩
  · constructor
    · rintro ⟨stored, read⟩
      exact ((decode_written wellFormed wrote shallow).mp read).1
    · intro given
      exact ⟨_, (decode_written wellFormed wrote shallow).mpr ⟨given, rfl⟩⟩
  · obtain ⟨_, rfl⟩ := (decode_written wellFormed wrote shallow).mp read
    refine ⟨validate_stored valid, fun kept engine subject => Engine.evaluate_congr engine subject rfl ?_⟩
    exact (runNodes_bared _).trans (runNodes_written script.nodes kept)

end Script

private def valued (value : Int64) : Term := { params := [some { operand := .constant value }] }

/-- No document describes this script: it has a marker that starts over, a comparator outside the language
and a missing term, each where it does no harm. -/
private def shunting : Script where
  name := "shunting"
  nodes := [
    .branch [.combinator .none, .condition { first := some (valued 1), comparator := .unknown }]
      [.statement { target := .slot (.known .state), terms := [some (valued 2)] },
        .statement { terms := [some { function := .returning }, none] }] [] []]

theorem decode_encode_shunting :
    Script.validate (some shunting) = .ok none ∧ ∃ blob stored, shunting.encode = .ok blob ∧
      Script.decode "shunting" blob = .ok stored ∧ Script.validate (some stored) = .ok none ∧
      ∀ (engine : Engine) (subject : Subject),
        engine.evaluate subject (some stored) = engine.evaluate subject (some shunting) := by
  have valid : Script.validate (some shunting) = .ok none :=
    Script.validate_eq_none_iff.mpr ⟨by simp [shunting], by decide, by dsimp only [shunting]; cbv⟩
  have depth : (Document.Node.ofNodes shunting.nodes).toOption.map
      (fun nodes => Json.itemsDepth (Document.nodesJson nodes)) = some 7 := by cbv
  have operands : shunting.operands = [.constant 2, .constant 1] := by cbv
  have conditions : shunting.conditions = [{ first := some (valued 1), comparator := .unknown }] := by cbv
  have lists : shunting.conditionLists.any (restarts false false) = false := by cbv
  obtain ⟨written, wrote, encoded, decoded⟩ := Script.decode_encode_valid valid
  have shallow : written.json.depth ≤ Json.maxDepth :=
    Nat.le_trans (Document.Script.depth_of_measured wrote depth) (by decide)
  obtain ⟨⟨_, readable⟩, same⟩ := decoded shallow "shunting"
  obtain ⟨stored, read⟩ := readable (by simp [operands])
  obtain ⟨⟨_, passes⟩, runs⟩ := same stored read
  exact ⟨valid, _, stored, encoded, read, passes (by simp [conditions, Condition.Compared]), runs (by simpa using lists)⟩

/-- The second condition is joined by a marker that starts over. -/
private def restarting : Script where
  name := "restarting"
  nodes := [.branch
    [.condition { first := some (valued 0) }, .combinator .none, .condition { first := some (valued 1) }]
    [.statement .leave] [] []]

private def blank : Script where
  name := "blank"
  nodes := [.statement { terms := [some { params := [some { operand := .blank }] }] }]

private def incomparable : Script where
  name := "incomparable"
  nodes := [.branch [.condition { first := some (valued 0), second := some (valued 0), comparator := .unknown }] [] [] []]

private theorem Script.stored_of_depth {script : Script} (valid : validate (some script) = .ok none) (depth : Nat)
    (measured : (Document.Node.ofNodes script.nodes).toOption.map
      (fun nodes => Json.itemsDepth (Document.nodesJson nodes)) = some depth)
    (bound : depth + 2 ≤ Json.maxDepth) :
    ∃ blob, script.encode = .ok blob ∧ ∀ kind stored,
      decode kind blob = .ok stored ↔ .blank ∉ script.operands ∧ stored = script.written.stored := by
  have wellFormed := validate_eq_none.mp valid
  obtain ⟨written, wrote⟩ := Document.Script.ofScript_total wellFormed
  have shallow : written.json.depth ≤ Json.maxDepth := Nat.le_trans (Document.Script.depth_of_measured wrote measured) bound
  exact ⟨_, by simp [encode, wrote], fun _ _ => decode_written wellFormed wrote shallow⟩

/-- Each of the three exceptions is needed. -/
theorem decode_encode_exceptions :
    (Script.validate (some restarting) = .ok none ∧ ∃ blob stored, restarting.encode = .ok blob ∧
      Script.decode "restarting" blob = .ok stored ∧
      (Engine.evaluate {} (.mounted ⟨0, 0⟩) (some stored)).engine.counters.returns = 0 ∧
      (Engine.evaluate {} (.mounted ⟨0, 0⟩) (some restarting)).engine.counters.returns = 1) ∧
    (Script.validate (some blank) = .ok none ∧ ∃ blob, blank.encode = .ok blob ∧
      ∀ stored, Script.decode "blank" blob ≠ .ok stored) ∧
    (Script.validate (some incomparable) = .ok none ∧ ∃ blob stored, incomparable.encode = .ok blob ∧
      Script.decode "incomparable" blob = .ok stored ∧ Script.validate (some stored) ≠ .ok none) := by
  have valid₁ : Script.validate (some restarting) = .ok none :=
    Script.validate_eq_none_iff.mpr ⟨by simp [restarting], by decide, by dsimp only [restarting]; cbv⟩
  have valid₂ : Script.validate (some blank) = .ok none :=
    Script.validate_eq_none_iff.mpr ⟨by simp [blank], by decide, by dsimp only [blank]; cbv⟩
  have valid₃ : Script.validate (some incomparable) = .ok none :=
    Script.validate_eq_none_iff.mpr ⟨by simp [incomparable], by decide, by dsimp only [incomparable]; cbv⟩
  refine ⟨⟨valid₁, ?_⟩, ⟨valid₂, ?_⟩, ⟨valid₃, ?_⟩⟩
  · obtain ⟨blob, encoded, decoded⟩ := Script.stored_of_depth valid₁ 6 (by cbv) (by decide)
    have operands : restarting.operands = [.constant 0, .constant 1] := by cbv
    exact ⟨blob, _, encoded, (decoded _ _).mpr ⟨by simp [operands], rfl⟩, by cbv, by cbv⟩
  · obtain ⟨blob, encoded, decoded⟩ := Script.stored_of_depth valid₂ 5 (by cbv) (by decide)
    have operands : blank.operands = [.blank] := by cbv
    refine ⟨blob, encoded, fun stored read => ((decoded _ _).mp read).1 ?_⟩
    simp [operands]
  · obtain ⟨blob, encoded, decoded⟩ := Script.stored_of_depth valid₃ 6 (by cbv) (by decide)
    have operands : incomparable.operands = [.constant 0, .constant 0] := by cbv
    refine ⟨blob, _, encoded, (decoded _ _).mpr ⟨by simp [operands], rfl⟩, ?_⟩
    have conditions : incomparable.conditions =
        [{ first := some (valued 0), second := some (valued 0), comparator := .unknown }] := by cbv
    rw [ne_eq, Script.validate_stored valid₃, conditions]
    simp [Condition.Compared]

end Lineside
