import Lineside.Proofs.DocumentRoundTrip

/-! What a document keeps of a valid script. It has no word for the marker that starts over, for a comparator
outside the language and for a blank operand. The first becomes `and`, the second is dropped, and with a
blank operand the script cannot be read back. -/

namespace Lineside

/-! The parts of a script that are written. -/

/-- The condition lists of the groups in a list, at any depth. -/
def innerLists : List Element → List (List Element)
  | [] => []
  | .group elements :: rest => elements :: innerLists elements ++ innerLists rest
  | _ :: rest => innerLists rest

mutual

def Node.conditionLists : Node → List (List Element)
  | .branch conditions body arms otherwise =>
    conditions :: innerLists conditions ++ nodesConditionLists body ++ armsConditionLists arms ++
      nodesConditionLists otherwise
  | _ => []

def nodesConditionLists : List Node → List (List Element)
  | [] => []
  | node :: rest => node.conditionLists ++ nodesConditionLists rest

def armsConditionLists : List Arm → List (List Element)
  | [] => []
  | .absent :: rest => armsConditionLists rest
  | .arm conditions body :: rest =>
    conditions :: innerLists conditions ++ nodesConditionLists body ++ armsConditionLists rest

end

mutual

def Node.statements : Node → List Statement
  | .absent => []
  | .statement statement => [statement]
  | .branch _ body arms otherwise => nodesStatements body ++ armsStatements arms ++ nodesStatements otherwise

def nodesStatements : List Node → List Statement
  | [] => []
  | node :: rest => node.statements ++ nodesStatements rest

def armsStatements : List Arm → List Statement
  | [] => []
  | .absent :: rest => armsStatements rest
  | .arm _ body :: rest => nodesStatements body ++ armsStatements rest

end

def Element.condition? : Element → Option Condition
  | .condition test => some test
  | _ => none

/-- The conditions of a list, without those in its groups. -/
def listed (elements : List Element) : List Condition := elements.filterMap Element.condition?

namespace Condition

def terms (condition : Condition) : List Term := condition.first.toList ++ condition.second.toList

end Condition

namespace Statement

/-- A statement that returns has no terms that are written. -/
def writtenTerms (statement : Statement) : List Term :=
  match statement.returns with
  | .ok true => []
  | _ => statement.terms.filterMap id

end Statement

namespace Term

def operands (term : Term) : List Operand := term.params.filterMap (·.map (·.operand))

end Term

namespace Script

/-- All condition lists of a script, also those of groups. -/
def conditionLists (script : Script) : List (List Element) := nodesConditionLists script.nodes

def conditions (script : Script) : List Condition := script.conditionLists.flatMap listed

/-- The operands that are written. -/
def operands (script : Script) : List Operand :=
  ((nodesStatements script.nodes).flatMap Statement.writtenTerms ++ script.conditions.flatMap Condition.terms).flatMap
    Term.operands

end Script

/-! What a document makes of the words that it lacks. -/

namespace Combinator

def written : Combinator → Combinator
  | .or => .or
  | _ => .and

end Combinator

namespace Comparator

def written : Comparator → Comparator
  | .unknown => .none
  | comparator => comparator

end Comparator

namespace Condition

def written (condition : Condition) : Condition := { condition with comparator := condition.comparator.written }

end Condition

def writtenElements : List Element → List Element
  | [] => []
  | .absent :: rest => .absent :: writtenElements rest
  | .combinator marker :: rest => .combinator marker.written :: writtenElements rest
  | .negation :: rest => .negation :: writtenElements rest
  | .condition condition :: rest => .condition condition.written :: writtenElements rest
  | .group elements :: rest => .group (writtenElements elements) :: writtenElements rest

mutual

def Node.written : Node → Node
  | .absent => .absent
  | .statement statement => .statement statement
  | .branch conditions body arms otherwise =>
    .branch (writtenElements conditions) (writtenNodes body) (writtenArms arms) (writtenNodes otherwise)

def writtenNodes : List Node → List Node
  | [] => []
  | node :: rest => node.written :: writtenNodes rest

def writtenArms : List Arm → List Arm
  | [] => []
  | .absent :: rest => .absent :: writtenArms rest
  | .arm conditions body :: rest => .arm (writtenElements conditions) (writtenNodes body) :: writtenArms rest

end

def Script.written (script : Script) : Script := { script with nodes := writtenNodes script.nodes }

namespace Document

theorem Condition.ofCondition_written (condition : Lineside.Condition) :
    Condition.ofCondition condition.written = Condition.ofCondition condition := by
  obtain ⟨first, second, comparator, negate⟩ := condition
  cases comparator <;> rfl

theorem ofElements_written : (elements : List Element) →
    Condition.ofElements (writtenElements elements) = Condition.ofElements elements
  | [] => by rw [writtenElements]
  | .absent :: rest => by simp [writtenElements, Condition.ofElements, ofElements_written rest]
  | .combinator marker :: rest => by
    have same : marker.written = .or ↔ marker = .or := by cases marker <;> simp [Combinator.written]
    simp [writtenElements, Condition.ofElements, ofElements_written rest, same]
  | .negation :: rest => by simp [writtenElements, Condition.ofElements, ofElements_written rest]
  | .condition condition :: rest => by
    simp [writtenElements, Condition.ofElements, Condition.ofCondition_written, ofElements_written rest]
  | .group elements :: rest => by
    simp [writtenElements, Condition.ofElements, ofElements_written elements, ofElements_written rest]

mutual

theorem ofNodes_written : (nodes : List Lineside.Node) → Node.ofNodes (writtenNodes nodes) = Node.ofNodes nodes
  | [] => by rw [writtenNodes]
  | .absent :: rest => by simp [writtenNodes, Node.written, Node.ofNodes, ofNodes_written rest]
  | .statement statement :: rest => by simp [writtenNodes, Node.written, Node.ofNodes, ofNodes_written rest]
  | .branch conditions body arms otherwise :: rest => by
    simp [writtenNodes, Node.written, Node.ofNodes, ofElements_written conditions, ofNodes_written body,
      ofArms_written arms, ofNodes_written otherwise, ofNodes_written rest]

theorem ofArms_written : (arms : List Lineside.Arm) → Node.ofArms (writtenArms arms) = Node.ofArms arms
  | [] => by rw [writtenArms]
  | .absent :: rest => by simp [writtenArms, Node.ofArms]
  | .arm conditions body :: rest => by
    simp [writtenArms, Node.ofArms, ofElements_written conditions, ofNodes_written body, ofArms_written rest]

end

theorem Script.ofScript_written (script : Lineside.Script) :
    Script.ofScript (some script.written) = Script.ofScript (some script) := by
  have empty : (writtenNodes script.nodes).isEmpty = script.nodes.isEmpty := by
    cases script.nodes <;> simp [writtenNodes]
  simp [Script.ofScript, Lineside.Script.written, ofNodes_written, empty]

end Document

/-! A valid script is always written. -/

namespace Document

variable {count : Int64}

theorem mapM_total {α β : Type} {write : α → Except Fault β} {entries : List α}
    (each : ∀ entry ∈ entries, ∃ written, write entry = .ok written) : ∃ written, entries.mapM write = .ok written := by
  induction entries with
  | nil => exact ⟨[], rfl⟩
  | cons entry entries ih =>
    obtain ⟨⟨first, wrote⟩, others⟩ := List.forall_mem_cons.mp each
    obtain ⟨rest, wroteRest⟩ := ih others
    exact ⟨first :: rest, by simp [List.mapM_cons, wrote, wroteRest]⟩

theorem Term.ofTerm_total {term : Lineside.Term} (valid : term.WellFormed count) :
    ∃ written, Term.ofTerm term = .ok written := by
  have each : ∀ entry ∈ term.params, ∃ written, Param.ofParameter entry = .ok written := by
    intro entry member
    obtain ⟨parameter, rfl, _⟩ := valid.params entry member
    exact ⟨_, rfl⟩
  obtain ⟨params, wrote⟩ := mapM_total each
  simp [Term.ofTerm, wrote]

theorem Condition.ofCondition_total {condition : Lineside.Condition} (valid : condition.WellFormed count) :
    ∃ written, Condition.ofCondition condition = .ok written := by
  obtain ⟨first, one, valid₁⟩ := valid.first
  obtain ⟨document₁, wrote₁⟩ := Term.ofTerm_total valid₁
  cases second : condition.second with
  | none => simp [Condition.ofCondition, one, second, Term.ofOptional, wrote₁]
  | some two =>
    obtain ⟨document₂, wrote₂⟩ := Term.ofTerm_total (valid.second two second).1
    simp [Condition.ofCondition, one, second, Term.ofOptional, wrote₁, wrote₂]

theorem ofElements_total : (elements : List Element) → (∀ element ∈ elements, element.WellFormed count) →
    ∃ written, Condition.ofElements elements = .ok written
  | [], _ => ⟨[], by rw [Condition.ofElements]⟩
  | element :: rest, valid => by
    obtain ⟨here, others⟩ := List.forall_mem_cons.mp valid
    obtain ⟨written, wrote⟩ := ofElements_total rest others
    cases here with
    | combinator marker => simp [Condition.ofElements, wrote]
    | negation => simp [Condition.ofElements, wrote]
    | condition test =>
      obtain ⟨first, wroteFirst⟩ := Condition.ofCondition_total test
      simp [Condition.ofElements, wrote, wroteFirst]
    | @group elements _ members =>
      obtain ⟨inner, wroteInner⟩ := ofElements_total elements members
      simp [Condition.ofElements, wrote, wroteInner]

theorem Node.ofStatement_total {statement : Statement}
    (valid : statement.returns = .ok true ∨ statement.WellFormed count) :
    ∃ written, Node.ofStatement statement = .ok written := by
  rcases valid with returns | valid
  · exact ⟨{ kind := "return" }, by simp [Node.ofStatement, returns]⟩
  · have each : ∀ entry ∈ statement.terms, ∃ written, Term.ofEntry entry = .ok written := by
      intro entry member
      obtain ⟨term, rfl, valid⟩ := valid.terms entry member
      exact Term.ofTerm_total valid
    obtain ⟨terms, wrote⟩ := mapM_total each
    obtain ⟨returns, ends⟩ := valid.returns_total
    cases returns <;> simp [Node.ofStatement, ends, wrote]

mutual

theorem ofNodes_total : (nodes : List Lineside.Node) → (∀ node ∈ nodes, node.WellFormed count) →
    ∃ written, Node.ofNodes nodes = .ok written
  | [], _ => ⟨[], by rw [Node.ofNodes]⟩
  | .absent :: rest, valid => by cases valid .absent (by simp)
  | .statement statement :: rest, valid => by
    obtain ⟨here, others⟩ := List.forall_mem_cons.mp valid
    obtain ⟨written, wrote⟩ := ofNodes_total rest others
    obtain ⟨first, wroteFirst⟩ := Node.ofStatement_total (Node.wellFormed_statement.mp here)
    simp [Node.ofNodes, wrote, wroteFirst]
  | .branch conditions body arms otherwise :: rest, valid => by
    obtain ⟨here, others⟩ := List.forall_mem_cons.mp valid
    obtain ⟨test, inside, tried, left⟩ := Node.wellFormed_branch.mp here
    obtain ⟨written, wrote⟩ := ofNodes_total rest others
    obtain ⟨tests, wroteTests⟩ := ofElements_total conditions test.members
    obtain ⟨bodies, wroteBodies⟩ := ofNodes_total body inside
    obtain ⟨tries, wroteTries⟩ := ofArms_total arms tried
    obtain ⟨lefts, wroteLefts⟩ := ofNodes_total otherwise left
    simp [Node.ofNodes, wrote, wroteTests, wroteBodies, wroteTries, wroteLefts]

theorem ofArms_total : (arms : List Lineside.Arm) → (∀ arm ∈ arms, arm.WellFormed count) →
    ∃ written, Node.ofArms arms = .ok written
  | [], _ => ⟨[], by rw [Node.ofArms]⟩
  | .absent :: rest, valid => by cases valid .absent (by simp)
  | .arm conditions body :: rest, valid => by
    obtain ⟨here, others⟩ := List.forall_mem_cons.mp valid
    obtain ⟨test, inside⟩ := Arm.wellFormed_arm.mp here
    obtain ⟨written, wrote⟩ := ofArms_total rest others
    obtain ⟨tests, wroteTests⟩ := ofElements_total conditions test.members
    obtain ⟨bodies, wroteBodies⟩ := ofNodes_total body inside
    simp [Node.ofArms, wrote, wroteTests, wroteBodies]

end

theorem Script.ofScript_total {script : Lineside.Script} (valid : script.WellFormed) :
    ∃ written, Script.ofScript (some script) = .ok written := by
  obtain ⟨statements, wrote⟩ := ofNodes_total script.nodes valid.nodes
  simp [Script.ofScript, wrote]

end Document

/-! Whether what was stored can be read. -/

/-- No operand of the term is blank. -/
def Term.Given (term : Term) : Prop := .blank ∉ term.operands

def Condition.Given (condition : Condition) : Prop := ∀ term ∈ condition.terms, term.Given

def Statement.Given (statement : Statement) : Prop := ∀ term ∈ statement.writtenTerms, term.Given

theorem Script.blank_notMem_operands {script : Script} :
    .blank ∉ script.operands ↔ (∀ statement ∈ nodesStatements script.nodes, statement.Given) ∧
      ∀ list ∈ nodesConditionLists script.nodes, ∀ condition ∈ listed list, condition.Given := by
  simp only [operands, conditions, conditionLists, List.mem_flatMap, List.mem_append, Statement.Given,
    Condition.Given, Term.Given]
  constructor
  · intro absent
    refine ⟨fun statement inside term member blank => ?_, fun list inside condition listed term member blank => ?_⟩
    · exact absent ⟨term, .inl ⟨statement, inside, member⟩, blank⟩
    · exact absent ⟨term, .inr ⟨condition, ⟨list, inside, listed⟩, member⟩, blank⟩
  · rintro ⟨statements, conditions⟩ ⟨term, ⟨statement, inside, member⟩ | ⟨condition, ⟨list, inside, listed⟩, member⟩, blank⟩
    · exact statements statement inside term member blank
    · exact conditions list inside condition listed term member blank

theorem Term.given_iff {term : Term} :
    term.Given ↔ ∀ parameter, some parameter ∈ term.params → parameter.operand ≠ .blank := by
  simp only [Given, operands, List.mem_filterMap, Option.map_eq_some_iff]
  constructor
  · rintro absent parameter member blank
    exact absent ⟨some parameter, member, parameter, rfl, blank⟩
  · rintro given ⟨_, member, parameter, rfl, blank⟩
    exact given parameter member blank

section Readable

variable {count : Int64}

theorem Term.WellFormed.expressible {term : Term} (valid : term.WellFormed count) (given : term.Given) : term.Expressible := by
  rw [Term.given_iff] at given
  refine ⟨fun code unknown => ?_, fun entry member => ?_⟩
  · have callable := valid.callable
    simp [Term.Callable, unknown] at callable
  · obtain ⟨parameter, rfl, known⟩ := valid.params entry member
    refine ⟨parameter, rfl, ?_⟩
    have present := given parameter member
    cases operand : parameter.operand with
    | constant value => trivial
    | localVar index => trivial
    | slot which =>
      rw [operand] at known
      exact known
    | blank => exact absurd operand present

theorem Comparator.written_ne_unknown (comparator : Comparator) : comparator.written ≠ .unknown := by
  cases comparator <;> simp [written]

theorem Condition.written_expressible {condition : Condition} (valid : condition.WellFormed count)
    (given : condition.Given) : condition.written.Expressible := by
  obtain ⟨first, one, valid₁⟩ := valid.first
  refine ⟨⟨first, one, valid₁.expressible (given first (by simp [terms, one]))⟩, fun second two => ?_,
    Comparator.written_ne_unknown _⟩
  have two : condition.second = some second := two
  exact (valid.second second two).1.expressible (given second (by simp [terms, two]))

theorem writtenElements_expressible : (elements : List Element) →
    (∀ element ∈ elements, element.WellFormed count) →
    (∀ list ∈ elements :: innerLists elements, ∀ condition ∈ listed list, condition.Given) →
      ∀ element ∈ writtenElements elements, element.Expressible
  | [], _, _ => by simp [writtenElements]
  | element :: rest, valid, given => by
    obtain ⟨here, others⟩ := List.forall_mem_cons.mp valid
    obtain ⟨direct, inner⟩ := List.forall_mem_cons.mp given
    cases here with
    | combinator marker =>
      rw [writtenElements, List.forall_mem_cons]
      simp only [innerLists] at inner
      refine ⟨.combinator (by cases marker <;> simp [Combinator.written]), ?_⟩
      exact writtenElements_expressible rest others (List.forall_mem_cons.mpr ⟨direct, inner⟩)
    | negation =>
      rw [writtenElements, List.forall_mem_cons]
      simp only [innerLists] at inner
      exact ⟨.negation, writtenElements_expressible rest others (List.forall_mem_cons.mpr ⟨direct, inner⟩)⟩
    | @condition condition test =>
      rw [writtenElements, List.forall_mem_cons]
      simp only [innerLists] at inner
      obtain ⟨first, direct⟩ := List.forall_mem_cons.mp direct
      refine ⟨.condition (Condition.written_expressible test first), ?_⟩
      exact writtenElements_expressible rest others (List.forall_mem_cons.mpr ⟨direct, inner⟩)
    | @group elements _ members =>
      rw [writtenElements, List.forall_mem_cons]
      rw [innerLists, List.forall_mem_append] at inner
      refine ⟨.group (writtenElements_expressible elements members inner.1), ?_⟩
      exact writtenElements_expressible rest others (List.forall_mem_cons.mpr ⟨direct, inner.2⟩)

theorem Statement.expressible {statement : Statement} (valid : statement.WellFormed count)
    (given : statement.Given) : statement.returns = .ok true ∨ statement.Expressible := by
  by_cases returns : statement.returns = .ok true
  · exact .inl returns
  refine .inr ⟨?_, fun entry member => ?_⟩
  · have target := valid.target
    cases aim : statement.target with
    | none => trivial
    | localVar index => trivial
    | slot which =>
      rw [aim] at target
      exact target
  · obtain ⟨term, rfl, valid⟩ := valid.terms entry member
    refine ⟨term, rfl, valid.expressible (given term ?_)⟩
    rw [writtenTerms]
    split
    next ends => exact absurd ends returns
    next => simpa using member

mutual

theorem writtenNodes_expressible : (nodes : List Node) → (∀ node ∈ nodes, node.WellFormed count) →
    (∀ statement ∈ nodesStatements nodes, statement.Given) →
    (∀ list ∈ nodesConditionLists nodes, ∀ condition ∈ listed list, condition.Given) →
      ∀ node ∈ writtenNodes nodes, node.Expressible
  | [], _, _, _ => by simp [writtenNodes]
  | node :: rest, valid, statements, lists => by
    rw [nodesStatements, List.forall_mem_append] at statements
    rw [nodesConditionLists, List.forall_mem_append] at lists
    obtain ⟨here, others⟩ := List.forall_mem_cons.mp valid
    rw [writtenNodes, List.forall_mem_cons]
    exact ⟨written_expressible node here statements.1 lists.1,
      writtenNodes_expressible rest others statements.2 lists.2⟩

theorem written_expressible : (node : Node) → node.WellFormed count →
    (∀ statement ∈ node.statements, statement.Given) →
    (∀ list ∈ node.conditionLists, ∀ condition ∈ listed list, condition.Given) → node.written.Expressible
  | .absent, valid, _, _ => by cases valid
  | .statement statement, valid, statements, _ => by
    rw [Node.written]
    cases valid with
    | leave returns => exact .leave returns
    | assign valid =>
      rcases Statement.expressible valid (statements statement (by simp [Node.statements])) with returns | parts
      · exact .leave returns
      · exact .assign parts
  | .branch conditions body arms otherwise, valid, statements, lists => by
    obtain ⟨test, inside, tried, left⟩ := Node.wellFormed_branch.mp valid
    simp only [Node.statements, List.forall_mem_append] at statements
    simp only [Node.conditionLists, List.forall_mem_append] at lists
    rw [Node.written]
    exact .branch (writtenElements_expressible conditions test.members lists.1.1.1)
      (writtenNodes_expressible body inside statements.1.1 lists.1.1.2)
      (writtenArms_expressible arms tried statements.1.2 lists.1.2)
      (writtenNodes_expressible otherwise left statements.2 lists.2)

theorem writtenArms_expressible : (arms : List Arm) → (∀ arm ∈ arms, arm.WellFormed count) →
    (∀ statement ∈ armsStatements arms, statement.Given) →
    (∀ list ∈ armsConditionLists arms, ∀ condition ∈ listed list, condition.Given) →
      ∀ arm ∈ writtenArms arms, arm.Expressible
  | [], _, _, _ => by simp [writtenArms]
  | .absent :: rest, valid, _, _ => by cases valid .absent (by simp)
  | .arm conditions body :: rest, valid, statements, lists => by
    obtain ⟨here, others⟩ := List.forall_mem_cons.mp valid
    obtain ⟨test, inside⟩ := Arm.wellFormed_arm.mp here
    simp only [armsStatements, List.forall_mem_append] at statements
    simp only [armsConditionLists, List.forall_mem_append] at lists
    rw [writtenArms, List.forall_mem_cons]
    exact ⟨.arm (writtenElements_expressible conditions test.members lists.1.1)
      (writtenNodes_expressible body inside statements.1 lists.1.2),
      writtenArms_expressible rest others statements.2 lists.2⟩

end

end Readable

namespace Document

theorem each_mapM_inv {α β γ : Type} {write : α → Except Fault β} {resolve : β → Resolved γ} {place : Nat → Place}
    {holds : α → Prop} (every : ∀ entry written result, write entry = .ok written → resolve written = .ok result →
      holds entry) {entries : List α} {written : List β} {results : List γ} {index : Nat}
    (wrote : entries.mapM write = .ok written) (read : each place resolve index written = .ok results) :
    ∀ entry ∈ entries, holds entry := by
  induction entries generalizing written results index with
  | nil => simp
  | cons entry entries ih =>
    simp only [List.mapM_cons, bind_eq_ok, pure_eq_ok, Except.ok.injEq] at wrote
    obtain ⟨first, wroteFirst, rest, wroteRest, rfl⟩ := wrote
    simp only [each, bind_eq_ok, within_eq_ok, pure_eq_ok, Except.ok.injEq] at read
    obtain ⟨result, readFirst, others, readRest, rfl⟩ := read
    exact List.forall_mem_cons.mpr ⟨every entry first result wroteFirst readFirst, ih wroteRest readRest⟩

theorem Term.given_of_resolve {term : Lineside.Term} {written : Term} {result : Lineside.Term}
    (wrote : Term.ofTerm term = .ok written) (read : written.resolve = .ok result) : term.Given := by
  simp only [ofTerm, bind_eq_ok, pure_eq_ok, Except.ok.injEq] at wrote
  obtain ⟨params, wrote, rfl⟩ := wrote
  simp only [resolve, bind_eq_ok, pure_eq_ok, Except.ok.injEq] at read
  obtain ⟨_, _, _, _, entries, read, rfl⟩ := read
  have every : ∀ entry ∈ term.params, ∀ parameter, entry = some parameter → parameter.operand ≠ .blank := by
    refine each_mapM_inv (fun entry written result wrote read => ?_) wrote read
    rintro parameter rfl blank
    cases wrote
    rw [blank] at read
    cases read
  exact Term.given_iff.mpr fun parameter member => every _ member parameter rfl

theorem Condition.given_of_test {condition : Lineside.Condition} {written : Condition} {result : Lineside.Condition}
    (wrote : Condition.ofCondition condition = .ok written) (read : written.test = .ok result) : condition.Given := by
  simp only [ofCondition, bind_eq_ok, pure_eq_ok, Except.ok.injEq] at wrote
  obtain ⟨term1, wrote₁, term2, wrote₂, rfl⟩ := wrote
  cases first : condition.first with
  | none =>
    rw [first] at wrote₁
    cases wrote₁
    cases read
  | some one =>
    rw [first] at wrote₁
    obtain ⟨document₁, one₁, rfl⟩ := map_eq_ok.mp wrote₁
    simp only [test, bind_eq_ok] at read
    obtain ⟨_, read₁, _, read₂, _⟩ := read
    have given₁ := Term.given_of_resolve one₁ read₁
    cases second : condition.second with
    | none => simpa [Lineside.Condition.Given, Lineside.Condition.terms, first, second] using given₁
    | some two =>
      rw [second] at wrote₂
      obtain ⟨document₂, two₂, rfl⟩ := map_eq_ok.mp wrote₂
      obtain ⟨_, found, _⟩ := map_eq_ok.mp read₂
      have given₂ := Term.given_of_resolve two₂ found
      simp [Lineside.Condition.Given, Lineside.Condition.terms, first, second, given₁, given₂]

theorem Condition.kind_ofCondition {condition : Lineside.Condition} {written : Condition}
    (wrote : Condition.ofCondition condition = .ok written) : written.kind = "condition" := by
  simp only [ofCondition, bind_eq_ok, pure_eq_ok, Except.ok.injEq] at wrote
  obtain ⟨_, _, _, _, rfl⟩ := wrote
  rfl

theorem given_of_resolveConditions : (elements : List Element) → (written : List Condition) → (index : Nat) →
    (results : List Element) → Condition.ofElements elements = .ok written →
    resolveConditions index written = .ok results →
      ∀ list ∈ elements :: innerLists elements, ∀ condition ∈ listed list, condition.Given
  | [], _, _, _, _, _ => by simp [innerLists, listed]
  | .absent :: rest, written, index, results, wrote, read => by
    rw [Condition.ofElements] at wrote
    have others := given_of_resolveConditions rest written index results wrote read
    simpa [innerLists, listed, Element.condition?] using others
  | .combinator marker :: rest, _, index, _, wrote, read => by
    simp only [Condition.ofElements, bind_eq_ok, pure_eq_ok, Except.ok.injEq] at wrote
    obtain ⟨written, wrote, rfl⟩ := wrote
    simp only [resolveConditions, bind_eq_ok, pure_eq_ok, Except.ok.injEq] at read
    obtain ⟨_, _, results, read, _⟩ := read
    have others := given_of_resolveConditions rest written (index + 1) results wrote read
    simpa [innerLists, listed, Element.condition?] using others
  | .negation :: rest, _, index, _, wrote, read => by
    simp only [Condition.ofElements, bind_eq_ok, pure_eq_ok, Except.ok.injEq] at wrote
    obtain ⟨written, wrote, rfl⟩ := wrote
    simp only [resolveConditions, bind_eq_ok, pure_eq_ok, Except.ok.injEq] at read
    obtain ⟨_, _, results, read, _⟩ := read
    have others := given_of_resolveConditions rest written (index + 1) results wrote read
    simpa [innerLists, listed, Element.condition?] using others
  | .condition condition :: rest, _, index, _, wrote, read => by
    simp only [Condition.ofElements, bind_eq_ok, pure_eq_ok, Except.ok.injEq] at wrote
    obtain ⟨first, wroteFirst, written, wrote, rfl⟩ := wrote
    simp only [resolveConditions, bind_eq_ok, pure_eq_ok, Except.ok.injEq] at read
    obtain ⟨_, readFirst, results, read, _⟩ := read
    have others := given_of_resolveConditions rest written (index + 1) results wrote read
    have here : condition.Given := by
      obtain ⟨kind, term1, term2, compare, negate, group⟩ := first
      obtain rfl := Condition.kind_ofCondition wroteFirst
      simp only [resolveCondition] at readFirst
      obtain ⟨_, tested, _⟩ := map_eq_ok.mp readFirst
      exact Condition.given_of_test wroteFirst (within_eq_ok.mp tested)
    rw [List.forall_mem_cons] at others
    simp only [innerLists, listed, Element.condition?, List.filterMap_cons, List.forall_mem_cons]
    exact ⟨⟨here, others.1⟩, others.2⟩
  | .group elements :: rest, _, index, _, wrote, read => by
    simp only [Condition.ofElements, bind_eq_ok, pure_eq_ok, Except.ok.injEq] at wrote
    obtain ⟨inner, wroteInner, written, wrote, rfl⟩ := wrote
    simp only [resolveConditions, bind_eq_ok, pure_eq_ok, Except.ok.injEq] at read
    obtain ⟨_, readInner, results, read, _⟩ := read
    simp [resolveCondition, map_eq_ok, within_eq_ok] at readInner
    obtain ⟨members, readInner, _⟩ := readInner
    have others := given_of_resolveConditions rest written (index + 1) results wrote read
    have inside := given_of_resolveConditions elements inner 0 members wroteInner readInner
    rw [List.forall_mem_cons] at others
    simp only [innerLists, listed, Element.condition?, List.filterMap_cons, List.forall_mem_cons,
      List.forall_mem_append] at inside ⊢
    exact ⟨others.1, inside, others.2⟩

theorem given_of_resolveNode {statement : Statement} {written : Node} {result : Lineside.Node}
    (wrote : Node.ofStatement statement = .ok written) (read : resolveNode written = .ok result) :
    statement.Given := by
  unfold Statement.Given Statement.writtenTerms
  split
  next => simp
  next continues =>
    simp only [Node.ofStatement, bind_eq_ok] at wrote
    obtain ⟨returns, ends, wrote⟩ := wrote
    cases returns with
    | true => exact absurd ends continues
    | false =>
      simp only [Bool.false_eq_true, if_false, bind_eq_ok, pure_eq_ok, Except.ok.injEq] at wrote
      obtain ⟨terms, wrote, rfl⟩ := wrote
      simp [resolveNode, bind_eq_ok] at read
      obtain ⟨_, _, entries, read, _⟩ := read
      have every : ∀ entry ∈ statement.terms, ∀ term, entry = some term → term.Given := by
        refine each_mapM_inv (fun entry written result wrote read => ?_) wrote read
        rintro term rfl
        obtain ⟨_, found, _⟩ := map_eq_ok.mp read
        exact Term.given_of_resolve wrote found
      intro term member
      exact every (some term) (by simpa using member) term rfl

mutual

theorem given_of_resolveNodes : (nodes : List Lineside.Node) → (written : List Node) → (index : Nat) →
    (results : List Lineside.Node) → Node.ofNodes nodes = .ok written → resolveNodes index written = .ok results →
      (∀ statement ∈ nodesStatements nodes, statement.Given) ∧
        ∀ list ∈ nodesConditionLists nodes, ∀ condition ∈ listed list, condition.Given
  | [], _, _, _, _, _ => by simp [nodesStatements, nodesConditionLists]
  | .absent :: rest, written, index, results, wrote, read => by
    rw [Node.ofNodes] at wrote
    have others := given_of_resolveNodes rest written index results wrote read
    simpa [nodesStatements, Node.statements, nodesConditionLists, Node.conditionLists] using others
  | .statement statement :: rest, _, index, _, wrote, read => by
    simp only [Node.ofNodes, bind_eq_ok, pure_eq_ok, Except.ok.injEq] at wrote
    obtain ⟨first, wroteFirst, written, wrote, rfl⟩ := wrote
    simp only [resolveNodes, bind_eq_ok, within_eq_ok, pure_eq_ok, Except.ok.injEq] at read
    obtain ⟨_, readFirst, results, read, _⟩ := read
    have others := given_of_resolveNodes rest written (index + 1) results wrote read
    have here := given_of_resolveNode wroteFirst readFirst
    simpa [nodesStatements, Node.statements, nodesConditionLists, Node.conditionLists, here] using others
  | .branch conditions body arms otherwise :: rest, _, index, _, wrote, read => by
    simp only [Node.ofNodes, bind_eq_ok, pure_eq_ok, Except.ok.injEq] at wrote
    obtain ⟨tests, wroteTests, bodies, wroteBodies, lefts, wroteLefts, tries, wroteTries, written, wrote, rfl⟩ := wrote
    simp only [resolveNodes, bind_eq_ok, within_eq_ok, pure_eq_ok, Except.ok.injEq] at read
    obtain ⟨_, readFirst, results, read, _⟩ := read
    simp [resolveNode, bind_eq_ok, within_eq_ok] at readFirst
    obtain ⟨elements, readTests, inside, readBodies, tried, readTries, left, readLefts, _⟩ := readFirst
    have test := given_of_resolveConditions conditions tests 0 elements wroteTests readTests
    obtain ⟨bodyStatements, bodyLists⟩ := given_of_resolveNodes body bodies 0 inside wroteBodies readBodies
    obtain ⟨armStatements, armLists⟩ := given_of_resolveArms arms tries 0 tried wroteTries readTries
    obtain ⟨leftStatements, leftLists⟩ := given_of_resolveNodes otherwise lefts 0 left wroteLefts readLefts
    obtain ⟨statements, lists⟩ := given_of_resolveNodes rest written (index + 1) results wrote read
    simp only [nodesStatements, Node.statements, nodesConditionLists, Node.conditionLists, List.forall_mem_append]
    exact ⟨⟨⟨⟨bodyStatements, armStatements⟩, leftStatements⟩, statements⟩,
      ⟨⟨⟨test, bodyLists⟩, armLists⟩, leftLists⟩, lists⟩

theorem given_of_resolveArms : (arms : List Lineside.Arm) → (written : List (Arm Node)) → (index : Nat) →
    (results : List Lineside.Arm) → Node.ofArms arms = .ok written → resolveArms index written = .ok results →
      (∀ statement ∈ armsStatements arms, statement.Given) ∧
        ∀ list ∈ armsConditionLists arms, ∀ condition ∈ listed list, condition.Given
  | [], _, _, _, _, _ => by simp [armsStatements, armsConditionLists]
  | .absent :: rest, _, _, _, wrote, _ => by
    rw [Node.ofArms] at wrote
    cases wrote
  | .arm conditions body :: rest, _, index, _, wrote, read => by
    simp only [Node.ofArms, bind_eq_ok, pure_eq_ok, Except.ok.injEq] at wrote
    obtain ⟨tests, wroteTests, bodies, wroteBodies, written, wrote, rfl⟩ := wrote
    simp only [resolveArms, bind_eq_ok, within_eq_ok, pure_eq_ok, Except.ok.injEq] at read
    obtain ⟨_, ⟨elements, readTests, inside, readBodies, _⟩, results, read, _⟩ := read
    have test := given_of_resolveConditions conditions tests 0 elements wroteTests readTests
    obtain ⟨bodyStatements, bodyLists⟩ := given_of_resolveNodes body bodies 0 inside wroteBodies readBodies
    obtain ⟨statements, lists⟩ := given_of_resolveArms rest written (index + 1) results wrote read
    simp only [armsStatements, armsConditionLists, List.forall_mem_append]
    exact ⟨⟨bodyStatements, statements⟩, ⟨test, bodyLists⟩, lists⟩

end

end Document

namespace Script

/-- What can be read of the bytes of a valid script is the script in the words of a document. -/
theorem decode_written {script : Script} (valid : script.WellFormed) {written : Document.Script}
    (wrote : Document.Script.ofScript (some script) = .ok written) (shallow : written.json.depth ≤ Json.maxDepth)
    {kind : Name} {stored : Script} :
    decode kind written.text.toUTF8 = .ok stored ↔ .blank ∉ script.operands ∧ stored = script.written.stored := by
  have back (given : .blank ∉ script.operands) : decode kind written.text.toUTF8 = .ok script.written.stored := by
    obtain ⟨statements, lists⟩ := blank_notMem_operands.mp given
    have expressible : ∀ node ∈ script.written.nodes, node.Expressible :=
      writtenNodes_expressible script.nodes valid.nodes statements lists
    obtain ⟨other, wroteOther, _, decoded⟩ := decode_encode expressible
    rw [Document.Script.ofScript_written, wrote, Except.ok.injEq] at wroteOther
    subst wroteOther
    exact decoded shallow kind
  constructor
  · intro read
    -- Every operand was resolved from its own document, and that of a blank one is refused.
    have given : .blank ∉ script.operands := by
      have resolved := read
      rw [decode_text shallow, ofDocument, Outcome.because_eq_ok, Document.Script.resolve] at resolved
      obtain ⟨nodes, resolved, _⟩ := bind_eq_ok.mp resolved
      exact blank_notMem_operands.mpr (Document.given_of_resolveNodes script.nodes _ 0 nodes
        (Document.Script.ofScript_eq_ok wrote).2.2 resolved)
    exact ⟨given, Except.ok.inj (read.symm.trans (back given))⟩
  · rintro ⟨given, rfl⟩
    exact back given

end Script

end Lineside
