import Lineside.Proofs.EvaluationSteps

/-! The steps that a script can take. Besides sequencing and choosing there is nothing else in a run, so a
property of programs that sequencing keeps holds of the whole run as soon as it holds of these steps. -/

namespace Lineside

namespace Operand

def Takes : Operand → Step → Prop
  | .localVar index, step => step = .readLocal index
  | .slot which, step => step = .readSlot which
  | .constant _, _ | .blank, _ => False

end Operand

def parameterTakes : Option Parameter → Step → Prop
  | none, step => step = .stop .missingParameter
  | some parameter, step => parameter.operand.Takes step

def termTakes : Option Term → Step → Prop
  | none, step => step = .stop .missingTerm
  | some term, step =>
    (∃ entry ∈ term.params, parameterTakes entry step) ∨
      term.function ≠ .none ∧ ∃ p1 p2, step = .call term.function term.params.length p1 p2

/-- The terms in front of the first return marker. -/
def unreturned (terms : List (Option Term)) : List (Option Term) :=
  terms.takeWhile fun
    | some term => !term.returns
    | none => true

def termsTake (terms : List (Option Term)) (step : Step) : Prop := ∃ entry ∈ unreturned terms, termTakes entry step

namespace Condition

def Takes (condition : Condition) (step : Step) : Prop :=
  match condition.first with
  | none => step = .passOver
  | some first => termsTake [some first] step ∨ ∃ second, condition.second = some second ∧ termsTake [some second] step

end Condition

def elementsTake : List Element → Step → Prop
  | [], _ => False
  | .absent :: rest, step => step = .passOver ∨ elementsTake rest step
  | .combinator _ :: rest, step | .negation :: rest, step => elementsTake rest step
  | .condition condition :: rest, step => condition.Takes step ∨ elementsTake rest step
  | .group elements :: rest, step => elementsTake elements step ∨ elementsTake rest step

namespace Target

def Takes : Target → Step → Prop
  | .none, _ => False
  | .localVar index, step => ∃ value, step = .setLocal index value
  | .slot which, step => ∃ value, step = .setSlot which value

end Target

namespace Statement

/-- A statement that ends the script takes no step. -/
def Takes (statement : Statement) (step : Step) : Prop :=
  termsTake statement.terms step ∨ statement.returns = .ok false ∧ statement.target.Takes step

end Statement

mutual

def nodesTake : List Node → Step → Prop
  | [], _ => False
  | node :: rest, step => nodeTakes node step ∨ nodesTake rest step

def nodeTakes : Node → Step → Prop
  | .absent, step => step = .passOver
  | .statement statement, step => statement.Takes step
  | .branch conditions body arms otherwise, step =>
    elementsTake conditions step ∨ nodesTake body step ∨ armsTake arms step ∨ nodesTake otherwise step

def armsTake : List Arm → Step → Prop
  | [], _ => False
  | .absent :: _, step => step = .stop .missingArm
  | .arm conditions body :: rest, step => elementsTake conditions step ∨ nodesTake body step ∨ armsTake rest step

end

namespace Eval

/-- A property of programs that holds of every answer and of programs that follow one another. -/
structure Sequential (holds : (α : Type) → Eval α → Prop) : Prop where
  pure {α : Type} (answer : α) : holds α (Pure.pure answer)
  bind {α β : Type} {program : Eval α} {next : α → Eval β} (first : holds α program)
    (rest : ∀ answer, holds β (next answer)) : holds β (program >>= next)

theorem answers_sequential (invariant : Invocation → Prop) : Sequential fun _ program => Answers invariant program where
  pure := .pure
  bind := .bind

theorem keeps_sequential (invariant : Invocation → Prop) : Sequential fun _ program => Keeps invariant program where
  pure := .pure
  bind := .bind

theorem holds_ite {holds : (α : Type) → Eval α → Prop} {α : Type} {condition : Prop} [Decidable condition]
    {program other : Eval α} (first : condition → holds α program) (second : ¬ condition → holds α other) :
    holds α (if condition then program else other) := by
  by_cases chosen : condition
  · rw [if_pos chosen]
    exact first chosen
  · rw [if_neg chosen]
    exact second chosen

namespace Sequential

variable {holds : (α : Type) → Eval α → Prop} (sequential : Sequential holds)

include sequential

theorem map_holds {α β : Type} {program : Eval α} (first : holds α program) (f : α → β) : holds β (f <$> program) := by
  rw [map_eq_pure_bind]
  exact sequential.bind first fun _ => sequential.pure _

/-- What stops a program of one type stops one of any type. -/
theorem throw_holds {α : Type} {fault : Fault} (stops : holds _ (Step.stop fault).run) :
    holds α (throw fault) := by
  have never : ∀ answer : Empty, holds α (Empty.elim answer) := fun answer => answer.elim
  exact sequential.bind stops never

theorem operandValue_holds {operand : Operand} (steps : ∀ step, operand.Takes step → holds _ step.run) :
    holds Int64 operand.value := by
  cases operand with
  | constant value => exact sequential.pure value
  | localVar index => exact steps (.readLocal index) rfl
  | slot which => exact steps (.readSlot which) rfl
  | blank => exact sequential.pure 0

theorem parameterValue_holds {entry : Option Parameter} (steps : ∀ step, parameterTakes entry step → holds _ step.run) :
    holds Int64 (parameterValue entry) := by
  cases entry with
  | none => exact sequential.throw_holds (steps (.stop .missingParameter) rfl)
  | some parameter => exact sequential.bind (sequential.operandValue_holds steps) fun _ => sequential.pure _

theorem termValue_holds {term : Term} (steps : ∀ step, termTakes (some term) step → holds _ step.run)
    {deeper : Eval Int64} (below : holds Int64 deeper) : holds Int64 (term.value deeper) := by
  have parameter (index : Nat) : holds Int64 (parameterValueAt term.params index) := by
    unfold parameterValueAt
    split
    next entry found =>
      have member := List.mem_of_getElem? found
      exact sequential.parameterValue_holds fun step taken => steps step (.inl ⟨entry, member, taken⟩)
    next => exact sequential.pure 0
  refine sequential.map_holds (holds_ite (fun called => ?_) fun _ => holds_ite (fun _ => below) fun _ => parameter 0) _
  refine sequential.bind (parameter 0) fun p1 => sequential.bind (parameter 1) fun p2 => ?_
  exact steps (.call term.function term.params.length p1 p2) (.inr ⟨called, p1, p2, rfl⟩)

theorem foldLevel_holds {terms : List (Option Term)} (steps : ∀ step, termsTake terms step → holds _ step.run)
    {deeper : Eval Int64} (below : holds Int64 deeper) (level total : Int64) :
    holds Int64 (foldLevel deeper level terms total) := by
  induction terms generalizing total with
  | nil => exact sequential.pure total
  | cons entry rest ih =>
    cases entry with
    | none => exact sequential.throw_holds (steps (.stop .missingTerm) ⟨none, by simp [unreturned], rfl⟩)
    | some term =>
      rw [foldLevel]
      refine holds_ite (fun _ => sequential.pure total) fun goes => ?_
      -- The term is no return marker, so it and what follows it can be reached.
      have reached : unreturned (some term :: rest) = some term :: unreturned rest := by simp [unreturned, goes]
      have others := ih fun step ⟨entry, member, taken⟩ => steps step ⟨entry, by simp [reached, member], taken⟩
      refine holds_ite (fun _ => others total) fun _ => ?_
      refine sequential.bind (sequential.termValue_holds (fun step taken => ?_) below) fun _ => others _
      exact steps step ⟨some term, by simp [reached], taken⟩

theorem evalTerms_holds {terms : List (Option Term)} (steps : ∀ step, termsTake terms step → holds _ step.run)
    (level : Int64) : holds Int64 (evalTerms terms level) := by
  rw [evalTerms]
  refine sequential.foldLevel_holds steps (holds_ite (fun _ => ?_) fun _ => sequential.pure 0) level 0
  exact evalTerms_holds steps (level + 1)
termination_by depthFrom terms level
decreasing_by exact depthFrom_succ_lt ‹_›

theorem conditionEval_holds {condition : Condition} (steps : ∀ step, condition.Takes step → holds _ step.run) :
    holds Bool condition.eval := by
  unfold Condition.Takes at steps
  unfold Condition.eval
  cases given : condition.first with
  | none =>
    rw [given] at steps
    exact sequential.bind (steps .passOver rfl) fun _ => sequential.pure false
  | some first =>
    rw [given] at steps
    refine sequential.bind (sequential.evalTerms_holds (fun step taken => steps step (.inl taken)) _) fun _ => ?_
    cases other : condition.second with
    | none => exact sequential.pure _
    | some second =>
      refine sequential.bind (sequential.evalTerms_holds (fun step taken => ?_) _) fun _ => sequential.pure _
      exact steps step (.inr ⟨second, other, taken⟩)

theorem evalElements_holds : (elements : List Element) → (∀ step, elementsTake elements step → holds _ step.run) →
    (sofar : Bool) → (marker : Combinator) → (negated : Bool) → holds Bool (evalElements elements sofar marker negated)
  | [], _, sofar, _, _ => by
    rw [evalElements]
    exact sequential.pure sofar
  | .absent :: rest, steps, sofar, marker, negated => by
    simp only [elementsTake] at steps
    rw [evalElements]
    refine sequential.bind (steps .passOver (.inl rfl)) fun _ => ?_
    exact evalElements_holds rest (fun step taken => steps step (.inr taken)) sofar marker negated
  | .combinator next :: rest, steps, sofar, _, negated => by
    simp only [elementsTake] at steps
    rw [evalElements]
    exact evalElements_holds rest steps sofar next negated
  | .negation :: rest, steps, sofar, marker, _ => by
    simp only [elementsTake] at steps
    rw [evalElements]
    exact evalElements_holds rest steps sofar marker true
  | .condition test :: rest, steps, sofar, marker, negated => by
    simp only [elementsTake] at steps
    rw [evalElements]
    refine sequential.bind (sequential.conditionEval_holds fun step taken => steps step (.inl taken)) fun _ => ?_
    exact evalElements_holds rest (fun step taken => steps step (.inr taken)) _ _ _
  | .group members :: rest, steps, sofar, marker, negated => by
    simp only [elementsTake] at steps
    rw [evalElements]
    refine sequential.bind (evalElements_holds members (fun step taken => steps step (.inl taken)) _ _ _) fun _ => ?_
    exact evalElements_holds rest (fun step taken => steps step (.inr taken)) _ _ _

theorem store_holds {target : Target} (steps : ∀ step, target.Takes step → holds _ step.run) (value : Int64) :
    holds Unit (target.store value) := by
  cases target with
  | none => exact sequential.pure ()
  | localVar index => exact steps (.setLocal index value) ⟨value, rfl⟩
  | slot which => exact steps (.setSlot which value) ⟨value, rfl⟩

theorem runStatement_holds {statement : Statement} (steps : ∀ step, statement.Takes step → holds _ step.run) :
    holds Bool (runNode (.statement statement)) := by
  rw [runNode]
  cases returns : statement.returns with
  | error fault =>
    have missing : termsTake statement.terms (.stop fault) := by
      unfold Statement.returns at returns
      split at returns
      next => cases returns
      next given =>
        cases returns
        exact ⟨none, by simp [unreturned, given], rfl⟩
      next => cases returns
    exact sequential.throw_holds (steps (.stop fault) (.inl missing))
  | ok ends =>
    cases ends with
    | true => exact sequential.pure false
    | false =>
      have value := sequential.evalTerms_holds (fun step taken => steps step (.inl taken)) 0
      have stored := sequential.store_holds fun step taken => steps step (.inr ⟨returns, taken⟩)
      have assigned := sequential.bind value fun value => sequential.bind (stored value) fun _ => sequential.pure true
      exact assigned

mutual

/-- What holds of the steps of a block holds of its run. -/
theorem runNodes_holds : (nodes : List Node) → (∀ step, nodesTake nodes step → holds _ step.run) →
    holds Bool (runNodes nodes)
  | [], _ => by
    rw [runNodes]
    exact sequential.pure true
  | node :: rest, steps => by
    simp only [nodesTake] at steps
    rw [runNodes]
    refine sequential.bind (runNode_holds node fun step taken => steps step (.inl taken)) fun _ => ?_
    exact holds_ite (fun _ => runNodes_holds rest fun step taken => steps step (.inr taken)) fun _ => sequential.pure false

theorem runNode_holds : (node : Node) → (∀ step, nodeTakes node step → holds _ step.run) → holds Bool (runNode node)
  | .absent, steps => by
    simp only [nodeTakes] at steps
    rw [runNode]
    exact sequential.bind (steps .passOver rfl) fun _ => sequential.pure true
  | .statement statement, steps => by
    simp only [nodeTakes] at steps
    exact sequential.runStatement_holds steps
  | .branch conditions body arms otherwise, steps => by
    simp only [nodeTakes] at steps
    rw [runNode]
    have test := sequential.evalElements_holds conditions (fun step taken => steps step (.inl taken)) true .none false
    refine sequential.bind test fun _ => holds_ite (fun _ => ?_) fun _ => ?_
    · exact runNodes_holds body fun step taken => steps step (.inr (.inl taken))
    · refine sequential.bind (runArms_holds arms fun step taken => steps step (.inr (.inr (.inl taken)))) fun chosen => ?_
      cases chosen with
      | some continued => exact sequential.pure continued
      | none => exact runNodes_holds otherwise fun step taken => steps step (.inr (.inr (.inr taken)))

theorem runArms_holds : (arms : List Arm) → (∀ step, armsTake arms step → holds _ step.run) →
    holds (Option Bool) (runArms arms)
  | [], _ => by
    rw [runArms]
    exact sequential.pure none
  | .absent :: rest, steps => by
    simp only [armsTake] at steps
    rw [runArms]
    exact sequential.throw_holds (steps (.stop .missingArm) rfl)
  | .arm conditions body :: rest, steps => by
    simp only [armsTake] at steps
    rw [runArms]
    have test := sequential.evalElements_holds conditions (fun step taken => steps step (.inl taken)) true .none false
    refine sequential.bind test fun _ => holds_ite (fun _ => ?_) fun _ => ?_
    · refine sequential.bind (runNodes_holds body fun step taken => steps step (.inr (.inl taken))) fun _ => ?_
      exact sequential.pure _
    · exact runArms_holds rest fun step taken => steps step (.inr (.inr taken))

end

end Sequential

end Eval

end Lineside
