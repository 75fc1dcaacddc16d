import Lineside.Script.Validation

/-! What it means that a script is well formed, said without the validator. The validator finds nothing
to complain about exactly where every node is well formed. -/

namespace Lineside

namespace SlotRef

def Known : SlotRef → Prop
  | .known _ => True
  | .unknown _ => False

end SlotRef

/-- An index of one of `count` locals. -/
def LocalIndex (count index : Int64) : Prop := 0 ≤ index ∧ index < count

namespace Operand

def WellFormed (count : Int64) : Operand → Prop
  | .localVar index => LocalIndex count index
  | .slot which => which.Known
  | .constant _ | .blank => True

end Operand

namespace Term

/-- A function of the table has all its parameters, and a term that calls none has at most one. -/
def Callable (term : Term) : Prop :=
  match term.function with
  | .none | .returning => term.params.length ≤ 1
  | .builtin function => term.params.length = function.arity
  | .unknown _ => False

structure WellFormed (count : Int64) (term : Term) : Prop where
  level : 0 ≤ term.sublevel
  callable : term.Callable
  params : ∀ entry ∈ term.params, ∃ parameter, entry = some parameter ∧ parameter.operand.WellFormed count

end Term

structure Condition.WellFormed (count : Int64) (condition : Condition) : Prop where
  first : ∃ term, condition.first = some term ∧ term.WellFormed count
  second : ∀ term, condition.second = some term → term.WellFormed count ∧ condition.comparator ≠ .none

inductive Element.WellFormed (count : Int64) : Element → Prop where
  | combinator (marker : Combinator) : WellFormed count (.combinator marker)
  | negation : WellFormed count .negation
  | condition {condition : Condition} (test : condition.WellFormed count) :
      WellFormed count (.condition condition)
  | group {elements : List Element} (present : elements ≠ [])
      (members : ∀ element ∈ elements, WellFormed count element) : WellFormed count (.group elements)

/-- The conditions of a branch or an arm: there are some, and they are well formed. -/
structure Conditions (count : Int64) (elements : List Element) : Prop where
  present : elements ≠ []
  members : ∀ element ∈ elements, element.WellFormed count

namespace Target

def WellFormed (count : Int64) : Target → Prop
  | .none => True
  | .localVar index => LocalIndex count index
  | .slot which => which.Known

end Target

structure Statement.WellFormed (count : Int64) (statement : Statement) : Prop where
  present : statement.terms ≠ []
  target : statement.target.WellFormed count
  terms : ∀ entry ∈ statement.terms, ∃ term, entry = some term ∧ term.WellFormed count

/-- Whether a well-formed statement returns can be told. -/
theorem Statement.WellFormed.returns_total {count : Int64} {statement : Statement}
    (valid : statement.WellFormed count) : ∃ returns, statement.returns = .ok returns := by
  obtain ⟨target, terms⟩ := statement
  rcases terms with _ | ⟨entry, rest⟩
  · exact ⟨_, rfl⟩
  · obtain ⟨term, rfl, _⟩ := valid.terms entry (by simp)
    exact ⟨_, rfl⟩

mutual

/-- Nothing is asked of a statement that ends the script. -/
inductive Node.WellFormed (count : Int64) : Node → Prop where
  | leave {statement : Statement} (returns : statement.returns = .ok true) :
      Node.WellFormed count (.statement statement)
  | assign {statement : Statement} (valid : statement.WellFormed count) :
      Node.WellFormed count (.statement statement)
  | branch {conditions : List Element} {body otherwise : List Node} {arms : List Arm}
      (test : Conditions count conditions)
      (inside : ∀ node ∈ body, Node.WellFormed count node)
      (tried : ∀ arm ∈ arms, Arm.WellFormed count arm)
      (left : ∀ node ∈ otherwise, Node.WellFormed count node) :
      Node.WellFormed count (.branch conditions body arms otherwise)

inductive Arm.WellFormed (count : Int64) : Arm → Prop where
  | arm {conditions : List Element} {body : List Node} (test : Conditions count conditions)
      (inside : ∀ node ∈ body, Node.WellFormed count node) : Arm.WellFormed count (.arm conditions body)

end

section

variable {count : Int64}

theorem Element.wellFormed_condition {condition : Condition} :
    Element.WellFormed count (.condition condition) ↔ condition.WellFormed count := by
  constructor
  · intro valid
    cases valid
    assumption
  · exact .condition

theorem Element.wellFormed_group {elements : List Element} :
    Element.WellFormed count (.group elements) ↔
      elements ≠ [] ∧ ∀ element ∈ elements, element.WellFormed count := by
  constructor
  · intro valid
    cases valid
    exact ⟨by assumption, by assumption⟩
  · exact fun ⟨present, members⟩ => .group present members

theorem Node.wellFormed_statement {statement : Statement} :
    Node.WellFormed count (.statement statement) ↔
      statement.returns = .ok true ∨ statement.WellFormed count := by
  constructor
  · intro valid
    cases valid with
    | leave returns => exact .inl returns
    | assign valid => exact .inr valid
  · rintro (returns | valid)
    · exact .leave returns
    · exact .assign valid

theorem Node.wellFormed_branch {conditions : List Element} {body otherwise : List Node} {arms : List Arm} :
    Node.WellFormed count (.branch conditions body arms otherwise) ↔
      Conditions count conditions ∧ (∀ node ∈ body, node.WellFormed count) ∧
        (∀ arm ∈ arms, arm.WellFormed count) ∧ ∀ node ∈ otherwise, node.WellFormed count := by
  constructor
  · intro valid
    cases valid with
    | branch test inside tried left => exact ⟨test, inside, tried, left⟩
  · exact fun ⟨test, inside, tried, left⟩ => .branch test inside tried left

theorem Arm.wellFormed_arm {conditions : List Element} {body : List Node} :
    Arm.WellFormed count (.arm conditions body) ↔
      Conditions count conditions ∧ ∀ node ∈ body, node.WellFormed count := by
  constructor
  · intro valid
    cases valid with
    | arm test inside => exact ⟨test, inside⟩
  · exact fun ⟨test, inside⟩ => .arm test inside

end

structure Script.WellFormed (script : Script) : Prop where
  name : script.name ≠ ""
  localCount : 0 ≤ script.localCount
  nodes : ∀ node ∈ script.nodes, node.WellFormed script.localCount

namespace Validation

@[simp] theorem demand_eq_nil {met : Bool} {violation : Violation} :
    demand met violation = [] ↔ met = true := by
  cases met <;> simp [demand]

variable {count : Int64}

theorem parameter_eq_nil {entry : Option Parameter} :
    parameter count entry = [] ↔ ∃ given, entry = some given ∧ given.operand.WellFormed count := by
  rcases entry with _ | ⟨operand, minus⟩
  · simp [parameter]
  · rcases operand with value | index | ⟨slot | code⟩ | _ <;>
      simp [parameter, localIndex, Operand.WellFormed, LocalIndex, SlotRef.Known]

theorem callee_eq_nil {term : Term} : callee term = [] ↔ term.Callable := by
  cases function : term.function <;> simp [callee, Term.Callable, function]

theorem term_eq_nil {entry : Term} : term count entry = [] ↔ entry.WellFormed count := by
  simp only [term, List.append_eq_nil_iff, demand_eq_nil, decide_eq_true_eq, callee_eq_nil,
    List.flatMap_eq_nil_iff, parameter_eq_nil]
  exact ⟨fun ⟨⟨level, callable⟩, params⟩ => ⟨level, callable, params⟩,
    fun ⟨level, callable, params⟩ => ⟨⟨level, callable⟩, params⟩⟩

theorem termEntry_eq_nil {entry : Option Term} :
    termEntry count entry = [] ↔ ∃ term, entry = some term ∧ term.WellFormed count := by
  cases entry <;> simp [termEntry, term_eq_nil]

theorem target_eq_nil {entry : Target} : target count entry = [] ↔ entry.WellFormed count := by
  rcases entry with _ | index | ⟨slot | code⟩ <;>
    simp [target, localIndex, Target.WellFormed, LocalIndex, SlotRef.Known]

/-- A statement whose first term is missing is not well formed either way. -/
theorem statement_eq_nil {entry : Statement} :
    statement count entry = .ok [] ↔ entry.returns = .ok true ∨ entry.WellFormed count := by
  cases returns : entry.returns with
  | error fault =>
    have broken : ¬ entry.WellFormed count := by
      intro valid
      obtain ⟨_, told⟩ := valid.returns_total
      cases returns.symm.trans told
    simp [statement, returns, broken, bind, Except.bind]
  | ok ends =>
    cases ends with
    | true => simp [statement, returns, bind, Except.bind, pure, Except.pure]
    | false =>
      simp only [statement, returns, bind, Except.bind, pure, Except.pure, Bool.false_eq_true, if_false,
        Except.ok.injEq, List.append_eq_nil_iff, demand_eq_nil, target_eq_nil, List.flatMap_eq_nil_iff,
        termEntry_eq_nil, Bool.not_eq_true', List.isEmpty_eq_false_iff, false_or]
      exact ⟨fun ⟨⟨present, target⟩, terms⟩ => ⟨present, target, terms⟩,
        fun ⟨present, target, terms⟩ => ⟨⟨present, target⟩, terms⟩⟩

theorem condition_eq_nil {entry : Condition} :
    condition count entry = [] ↔ entry.WellFormed count := by
  rcases entry with ⟨_ | first, _ | second, comparator, negate⟩
  · simp only [condition, List.cons_ne_nil, false_iff]
    rintro ⟨⟨_, impossible, _⟩, _⟩
    cases impossible
  · simp only [condition, List.cons_ne_nil, false_iff]
    rintro ⟨⟨_, impossible, _⟩, _⟩
    cases impossible
  · simp only [condition, List.append_nil, term_eq_nil]
    exact ⟨fun valid => ⟨⟨first, rfl, valid⟩, fun _ impossible => by cases impossible⟩,
      fun ⟨⟨_, same, valid⟩, _⟩ => by cases same; exact valid⟩
  · simp only [condition, List.append_eq_nil_iff, term_eq_nil, demand_eq_nil, bne_iff_ne]
    refine ⟨fun ⟨one, two, compared⟩ => ⟨⟨first, rfl, one⟩, ?_⟩, ?_⟩
    · intro _ same
      cases same
      exact ⟨two, compared⟩
    · rintro ⟨⟨_, same, one⟩, rest⟩
      cases same
      exact ⟨one, rest second rfl⟩

theorem elements_eq_nil :
    (entries : List Element) → (elements count entries = [] ↔ ∀ entry ∈ entries, entry.WellFormed count)
  | [] => by simp [elements]
  | .absent :: rest => by
    simp only [elements, List.cons_ne_nil, false_iff]
    intro valid
    cases valid .absent (by simp)
  | .combinator marker :: rest => by
    simp [elements, elements_eq_nil rest, Element.WellFormed.combinator]
  | .negation :: rest => by simp [elements, elements_eq_nil rest, Element.WellFormed.negation]
  | .condition test :: rest => by
    simp [elements, elements_eq_nil rest, condition_eq_nil, Element.wellFormed_condition]
  | .group inner :: rest => by
    simp [elements, elements_eq_nil rest, elements_eq_nil inner, Element.wellFormed_group, and_assoc]

theorem conditions_iff {entries : List Element} :
    (!entries.isEmpty) = true ∧ elements count entries = [] ↔ Conditions count entries := by
  rw [elements_eq_nil]
  exact ⟨fun ⟨present, members⟩ => ⟨by simpa using present, members⟩,
    fun ⟨present, members⟩ => ⟨by simpa using present, members⟩⟩

/-- Two readings that both find nothing. -/
private theorem append_eq_ok_nil {first second : Except Fault (List Violation)} :
    (do return (← first) ++ (← second)) = Except.ok [] ↔ first = .ok [] ∧ second = .ok [] := by
  rcases first with _ | _ <;> rcases second with _ | _ <;>
    simp [bind, Except.bind, pure, Except.pure]

mutual

theorem nodes_eq_nil :
    (entries : List Node) → (nodes count entries = .ok [] ↔ ∀ entry ∈ entries, entry.WellFormed count)
  | [] => by simp [nodes, pure, Except.pure]
  | first :: rest => by
    rw [nodes, append_eq_ok_nil, node_eq_nil first, nodes_eq_nil rest, List.forall_mem_cons]

theorem node_eq_nil : (entry : Node) → (node count entry = .ok [] ↔ entry.WellFormed count)
  | .absent => by
    simp only [node, pure, Except.pure, Except.ok.injEq, List.cons_ne_nil, false_iff]
    intro valid
    cases valid
  | .statement entry => by
    rw [node, statement_eq_nil, Node.wellFormed_statement]
  | .branch conditions body others otherwise => by
    have parts : node count (.branch conditions body others otherwise) = .ok [] ↔
        Conditions count conditions ∧ nodes count body = .ok [] ∧ arms count others = .ok [] ∧
          nodes count otherwise = .ok [] := by
      rw [← conditions_iff]
      rcases first : nodes count body with _ | _ <;> rcases second : arms count others with _ | _ <;>
        rcases third : nodes count otherwise with _ | _ <;>
        simp [node, first, second, third, bind, Except.bind, pure, Except.pure, and_assoc]
    rw [parts, nodes_eq_nil body, arms_eq_nil others, nodes_eq_nil otherwise, Node.wellFormed_branch]

theorem arms_eq_nil :
    (entries : List Arm) → (arms count entries = .ok [] ↔ ∀ entry ∈ entries, entry.WellFormed count)
  | [] => by simp [arms, pure, Except.pure]
  | .absent :: rest => by
    rw [List.forall_mem_cons]
    constructor
    · intro found
      rcases others : arms count rest with _ | _ <;>
        simp [arms, others, bind, Except.bind, pure, Except.pure] at found
    · rintro ⟨valid, _⟩
      cases valid
  | .arm conditions body :: rest => by
    have parts : arms count (.arm conditions body :: rest) = .ok [] ↔
        Conditions count conditions ∧ nodes count body = .ok [] ∧ arms count rest = .ok [] := by
      rw [← conditions_iff]
      cases conditions <;> rcases first : nodes count body with _ | _ <;>
        rcases second : arms count rest with _ | _ <;>
        simp [arms, first, second, bind, Except.bind, pure, Except.pure]
    rw [parts, nodes_eq_nil body, arms_eq_nil rest, List.forall_mem_cons, Arm.wellFormed_arm, and_assoc]

end

end Validation

namespace Script

theorem validate_eq_none_iff {script : Script} : validate (some script) = .ok none ↔
    script.name ≠ "" ∧ 0 ≤ script.localCount ∧ Validation.nodes script.localCount script.nodes = .ok [] := by
  rcases found : Validation.nodes script.localCount script.nodes with _ | _
  · simp [validate, violations, found, bind, Except.bind]
  · by_cases named : script.name = "" <;> by_cases counted : 0 ≤ script.localCount <;>
      simp [validate, violations, found, named, counted, Validation.demand, bind, Except.bind, pure, Except.pure]
    split <;> simp_all

/-- The validator passes exactly the well-formed scripts. -/
theorem validate_eq_none {script : Script} : validate (some script) = .ok none ↔ script.WellFormed := by
  rw [validate_eq_none_iff, Validation.nodes_eq_nil]
  exact ⟨fun ⟨name, localCount, nodes⟩ => ⟨name, localCount, nodes⟩,
    fun ⟨name, localCount, nodes⟩ => ⟨name, localCount, nodes⟩⟩

end Script

end Lineside
