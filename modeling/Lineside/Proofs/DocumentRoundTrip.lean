import Lineside.Proofs.DocumentText
import Lineside.Proofs.Outcomes
import Lineside.Proofs.WellFormed
import Lineside.Store.Basic

/-! From scripts to documents and back. A script that a document can express comes back as it was, but for
the statements that return: of these a document keeps no more than the fact. -/

namespace Lineside

namespace Statement

/-- Of a statement that ends the script only the return marker is left. -/
def bared (statement : Statement) : Statement :=
  match statement.returns with
  | .ok true => .leave
  | _ => statement

@[simp] theorem leave_returns : leave.returns = .ok true := rfl

end Statement

mutual

def Node.bared : Node → Node
  | .absent => .absent
  | .statement statement => .statement statement.bared
  | .branch conditions body arms otherwise =>
    .branch conditions (baredNodes body) (baredArms arms) (baredNodes otherwise)

def baredNodes : List Node → List Node
  | [] => []
  | node :: rest => node.bared :: baredNodes rest

def baredArms : List Arm → List Arm
  | [] => []
  | .absent :: rest => .absent :: baredArms rest
  | .arm conditions body :: rest => .arm conditions (baredNodes body) :: baredArms rest

end

/-- The script with every statement that returns, at any depth, replaced by the bare return. -/
def Script.bared (script : Script) : Script := { script with nodes := baredNodes script.nodes }

/-- What a script becomes once it is stored: its returns are bare, and its name is a text. -/
def Script.stored (script : Script) : Script := { script.bared with name := script.name.repaired }

theorem Script.stored_of_legible {script : Script} (legible : script.name.Legible) : script.stored = script.bared := by
  rw [stored, legible.repaired]
  rfl

/-! What a document can express. -/

namespace Operand

def Expressible : Operand → Prop
  | .constant _ | .localVar _ => True
  | .slot which => which.Known
  | .blank => False

end Operand

structure Term.Expressible (term : Term) : Prop where
  function : ∀ code, term.function ≠ .unknown code
  params : ∀ entry ∈ term.params, ∃ parameter, entry = some parameter ∧ parameter.operand.Expressible

structure Condition.Expressible (condition : Condition) : Prop where
  first : ∃ term, condition.first = some term ∧ term.Expressible
  second : ∀ term, condition.second = some term → term.Expressible
  comparator : condition.comparator ≠ .unknown

inductive Element.Expressible : Element → Prop where
  | combinator {marker : Combinator} (joins : marker ≠ .none) : Expressible (.combinator marker)
  | negation : Expressible .negation
  | condition {condition : Condition} (test : condition.Expressible) : Expressible (.condition condition)
  | group {elements : List Element} (members : ∀ element ∈ elements, Expressible element) :
      Expressible (.group elements)

namespace Target

def Expressible : Target → Prop
  | .none | .localVar _ => True
  | .slot which => which.Known

end Target

structure Statement.Expressible (statement : Statement) : Prop where
  target : statement.target.Expressible
  terms : ∀ entry ∈ statement.terms, ∃ term, entry = some term ∧ term.Expressible

mutual

/-- Of a statement that ends the script nothing else is written. -/
inductive Node.Expressible : Node → Prop where
  | leave {statement : Statement} (returns : statement.returns = .ok true) :
      Node.Expressible (.statement statement)
  | assign {statement : Statement} (parts : statement.Expressible) : Node.Expressible (.statement statement)
  | branch {conditions : List Element} {body otherwise : List Node} {arms : List Arm}
      (test : ∀ element ∈ conditions, element.Expressible)
      (inside : ∀ node ∈ body, Node.Expressible node)
      (tried : ∀ arm ∈ arms, Arm.Expressible arm)
      (left : ∀ node ∈ otherwise, Node.Expressible node) :
      Node.Expressible (.branch conditions body arms otherwise)

inductive Arm.Expressible : Arm → Prop where
  | arm {conditions : List Element} {body : List Node} (test : ∀ element ∈ conditions, element.Expressible)
      (inside : ∀ node ∈ body, Node.Expressible node) : Arm.Expressible (.arm conditions body)

end

/-! The names of the language are read back as what they name. -/

theorem Slot.ofName_name (slot : Slot) : Slot.ofName slot.name = .ok slot := by
  cases slot <;> rfl

theorem Slot.name_ne_empty (slot : Slot) : slot.name ≠ "" := by
  cases slot <;> decide

theorem Builtin.name_ne_empty (function : Builtin) : function.name ≠ "" := by
  cases function <;> decide

theorem Callee.ofName_builtin (function : Builtin) : Callee.ofName function.name = .ok (.builtin function) := by
  cases function <;> rfl

theorem Operator.ofName_written (operator : Operator) :
    Operator.ofName (if operator = .none then "" else operator.name) = .ok operator := by
  cases operator <;> rfl

theorem Comparator.ofName_written {comparator : Comparator} (known : comparator ≠ .unknown) :
    Comparator.ofName (if comparator = .none then "" else comparator.name) = .ok comparator := by
  cases comparator <;> first | rfl | exact absurd rfl known

theorem Callee.ofName_known {text : String} {callee : Callee} (named : Callee.ofName text = .ok callee) (code : Int64) :
    callee ≠ .unknown code := by
  unfold Callee.ofName at named
  split at named
  next => cases named; simp
  next =>
    split at named
    next => cases named; simp
    next => cases named

theorem Comparator.ofName_known {text : String} {comparator : Comparator}
    (named : Comparator.ofName text = .ok comparator) : comparator ≠ .unknown := by
  have apart : ∀ comparator ∈ Comparator.all, comparator ≠ .unknown := by decide
  unfold Comparator.ofName at named
  split at named
  next => cases named; simp
  next =>
    split at named
    next found => cases named; exact apart _ (List.mem_of_find?_eq_some found)
    next => cases named

namespace Document

@[simp] theorem within_ok {α : Type} (place : Place) (value : α) : within place (.ok value) = .ok value := rfl

theorem within_eq_ok {α : Type} {place : Place} {outcome : Resolved α} {value : α} :
    within place outcome = .ok value ↔ outcome = .ok value := by
  cases outcome <;> simp [within]

@[simp] theorem named_ok {α : Type} (value : α) : named (.ok value) = .ok value := rfl

/-- Entries that come back one by one come back as a list. -/
theorem each_mapM {α β : Type} {write : α → Except Fault β} {resolve : β → Resolved α} {entries : List α}
    (place : Nat → Place) (back : ∀ entry ∈ entries, ∃ written, write entry = .ok written ∧
      resolve written = .ok entry) :
    ∃ written, entries.mapM write = .ok written ∧ ∀ index, each place resolve index written = .ok entries := by
  induction entries with
  | nil => exact ⟨[], rfl, fun _ => rfl⟩
  | cons entry entries ih =>
    obtain ⟨⟨first, wrote, read⟩, others⟩ := List.forall_mem_cons.mp back
    obtain ⟨rest, wroteRest, readRest⟩ := ih others
    refine ⟨first :: rest, ?_, fun index => ?_⟩
    · simp [List.mapM_cons, wrote, wroteRest]
    · simp [each, read, readRest]

theorem Param.resolve_ofOperand {operand : Operand} (expressible : operand.Expressible) (minus : Bool) :
    (Param.ofOperand minus operand).resolve = .ok (some { operand, minus }) := by
  rcases operand with value | index | ⟨slot | code⟩ | _
  · rfl
  · rfl
  · simp [ofOperand, resolve, Param.operand, SlotRef.name, Slot.ofName_name, Slot.name_ne_empty]
  · exact expressible.elim
  · exact expressible.elim

theorem Term.callee_written {function : Callee} (known : ∀ code, function ≠ .unknown code) {term : Term}
    (written : term.function = if function = .none then "" else function.name) :
    term.callee = .ok function := by
  cases function with
  | none => simp [callee, written]
  | returning => simp [callee, written, Callee.name, Callee.ofName]
  | builtin function => simp [callee, written, Callee.name, Builtin.name_ne_empty, Callee.ofName_builtin]
  | unknown code => exact absurd rfl (known code)

theorem Term.resolve_ofTerm {term : Lineside.Term} (expressible : term.Expressible) :
    ∃ written, Term.ofTerm term = .ok written ∧ written.resolve = .ok term := by
  obtain ⟨function, params, operator, negate, minus, sublevel, sublevel2⟩ := term
  have back : ∀ entry ∈ params, ∃ written, Param.ofParameter entry = .ok written ∧
      written.resolve = .ok entry := by
    intro entry member
    obtain ⟨⟨operand, minus⟩, rfl, known⟩ := expressible.params entry member
    exact ⟨_, rfl, Param.resolve_ofOperand known minus⟩
  obtain ⟨written, wrote, read⟩ := each_mapM .parameter back
  simp only [ofTerm, wrote, ok_bind, pure_eq_ok, Except.ok.injEq, exists_eq_left', resolve]
  rw [callee_written expressible.function rfl]
  simp only [Operator.ofName_written, read, named_ok, ok_bind]

theorem Target.resolve_ofTarget {target : Lineside.Target} (expressible : target.Expressible) :
    Target.resolveOptional (Target.ofTarget target) = .ok target := by
  rcases target with _ | index | ⟨slot | code⟩
  · rfl
  · rfl
  · simp [ofTarget, resolveOptional, resolve, SlotRef.name, Slot.name_ne_empty, Slot.ofName_name]
  · exact expressible.elim

theorem Condition.test_ofCondition {condition : Lineside.Condition} (expressible : condition.Expressible) :
    ∃ written, Condition.ofCondition condition = .ok written ∧ written.kind = "condition" ∧
      written.test = .ok condition := by
  obtain ⟨first, second, comparator, negate⟩ := condition
  obtain ⟨⟨first, rfl, one⟩, two, known⟩ := expressible
  obtain ⟨written, wrote, read⟩ := Term.resolve_ofTerm one
  have compared : Comparator.ofName (if comparator = .none then "" else comparator.name) = .ok comparator :=
    Comparator.ofName_written known
  cases second with
  | none =>
    simp only [ofCondition, Term.ofOptional, wrote, map_ok, ok_bind, pure_eq_ok, Except.ok.injEq,
      exists_eq_left', test, Term.resolveOptional, read, compared, named_ok, true_and]
  | some second =>
    obtain ⟨other, wroteOther, readOther⟩ := Term.resolve_ofTerm (two second rfl)
    simp only [ofCondition, Term.ofOptional, wrote, wroteOther, map_ok, ok_bind, pure_eq_ok, Except.ok.injEq,
      exists_eq_left', test, Term.resolveOptional, read, readOther, compared, named_ok, true_and]

/-- The elements of a condition list come back one by one. -/
theorem resolveConditions_ofElements : (elements : List Element) → (∀ element ∈ elements, element.Expressible) →
    ∃ written, Condition.ofElements elements = .ok written ∧
      ∀ index, resolveConditions index written = .ok elements
  | [], _ => ⟨[], by simp [Condition.ofElements], fun _ => by simp [resolveConditions]⟩
  | element :: rest, expressible => by
    obtain ⟨here, others⟩ := List.forall_mem_cons.mp expressible
    obtain ⟨written, wrote, read⟩ := resolveConditions_ofElements rest others
    cases here with
    | @combinator marker joins =>
      cases marker with
      | none => exact absurd rfl joins
      | and =>
        simp [Condition.ofElements, wrote, resolveConditions, resolveCondition, read]
      | or =>
        simp [Condition.ofElements, wrote, resolveConditions, resolveCondition, read]
    | negation =>
      simp [Condition.ofElements, wrote, resolveConditions, resolveCondition, read]
    | condition test =>
      obtain ⟨⟨kind, term1, term2, compare, negate, group⟩, wroteFirst, rfl, readFirst⟩ :=
        Condition.test_ofCondition test
      simp [Condition.ofElements, wrote, wroteFirst, resolveConditions, resolveCondition, read, readFirst]
    | @group elements members =>
      obtain ⟨inner, wroteInner, readInner⟩ := resolveConditions_ofElements elements members
      simp [Condition.ofElements, wrote, wroteInner, resolveConditions, resolveCondition, read, readInner]

theorem Node.resolve_ofStatement {statement : Statement}
    (expressible : statement.returns = .ok true ∨ statement.Expressible) :
    ∃ written, Node.ofStatement statement = .ok written ∧ resolveNode written = .ok (.statement statement.bared) := by
  obtain ⟨target, terms⟩ := statement
  cases ends : (Statement.mk target terms).returns with
  | error fault =>
    -- The first term would have to be missing.
    rcases expressible with returns | parts
    · cases returns.symm.trans ends
    · rcases terms with _ | ⟨_ | term, rest⟩
      · cases ends
      · obtain ⟨_, impossible, _⟩ := parts.terms none (by simp)
        cases impossible
      · cases ends
  | ok returns =>
    cases returns with
    | true => exact ⟨{ kind := "return" }, by simp [ofStatement, ends], by simp [resolveNode, Statement.bared, ends]⟩
    | false =>
      have parts : Statement.Expressible ⟨target, terms⟩ := by
        rcases expressible with returns | parts
        · cases returns.symm.trans ends
        · exact parts
      have back : ∀ entry ∈ terms, ∃ written, Term.ofEntry entry = .ok written ∧
          (some <$> Term.resolve written : Resolved _) = .ok entry := by
        intro entry member
        obtain ⟨term, rfl, known⟩ := parts.terms entry member
        obtain ⟨written, wrote, read⟩ := Term.resolve_ofTerm known
        exact ⟨written, wrote, by simp [read]⟩
      obtain ⟨written, wrote, read⟩ := each_mapM .term back
      have aimed := Target.resolve_ofTarget parts.target
      simp [ofStatement, ends, wrote, resolveNode, aimed, read, Statement.bared]

mutual

theorem resolveNodes_ofNodes : (nodes : List Lineside.Node) → (∀ node ∈ nodes, node.Expressible) →
    ∃ written, Node.ofNodes nodes = .ok written ∧ ∀ index, resolveNodes index written = .ok (baredNodes nodes)
  | [], _ => ⟨[], by simp [Node.ofNodes], fun _ => by simp [resolveNodes, baredNodes]⟩
  | .absent :: rest, expressible => by cases expressible .absent (by simp)
  | .statement statement :: rest, expressible => by
    obtain ⟨here, others⟩ := List.forall_mem_cons.mp expressible
    obtain ⟨written, wrote, read⟩ := resolveNodes_ofNodes rest others
    have parts : statement.returns = .ok true ∨ statement.Expressible := by
      cases here with
      | leave returns => exact .inl returns
      | assign parts => exact .inr parts
    obtain ⟨first, wroteFirst, readFirst⟩ := Node.resolve_ofStatement parts
    simp [Node.ofNodes, wrote, wroteFirst, resolveNodes, read, readFirst, baredNodes, Node.bared]
  | .branch conditions body arms otherwise :: rest, expressible => by
    obtain ⟨here, others⟩ := List.forall_mem_cons.mp expressible
    obtain ⟨written, wrote, read⟩ := resolveNodes_ofNodes rest others
    cases here with
    | branch test inside tried left =>
      obtain ⟨tests, wroteTests, readTests⟩ := resolveConditions_ofElements conditions test
      obtain ⟨bodies, wroteBodies, readBodies⟩ := resolveNodes_ofNodes body inside
      obtain ⟨tries, wroteTries, readTries⟩ := resolveArms_ofArms arms tried
      obtain ⟨lefts, wroteLefts, readLefts⟩ := resolveNodes_ofNodes otherwise left
      simp [Node.ofNodes, wrote, wroteTests, wroteBodies, wroteTries, wroteLefts, resolveNodes, resolveNode, read,
        readTests, readBodies, readTries, readLefts, baredNodes, Node.bared]

theorem resolveArms_ofArms : (arms : List Lineside.Arm) → (∀ arm ∈ arms, arm.Expressible) →
    ∃ written, Node.ofArms arms = .ok written ∧ ∀ index, resolveArms index written = .ok (baredArms arms)
  | [], _ => ⟨[], by simp [Node.ofArms], fun _ => by simp [resolveArms, baredArms]⟩
  | .absent :: rest, expressible => by cases expressible .absent (by simp)
  | .arm conditions body :: rest, expressible => by
    obtain ⟨here, others⟩ := List.forall_mem_cons.mp expressible
    obtain ⟨written, wrote, read⟩ := resolveArms_ofArms rest others
    cases here with
    | arm test inside =>
      obtain ⟨tests, wroteTests, readTests⟩ := resolveConditions_ofElements conditions test
      obtain ⟨bodies, wroteBodies, readBodies⟩ := resolveNodes_ofNodes body inside
      simp [Node.ofArms, wrote, wroteTests, wroteBodies, resolveArms, read, readTests, readBodies, baredArms]

end

/-! What a document describes, a document can express. -/

theorem each_eq_ok {α β : Type} {place : Nat → Place} {resolve : α → Resolved β} {holds : β → Prop}
    (every : ∀ item result, resolve item = .ok result → holds result) {items : List α} {index : Nat}
    {results : List β} (resolved : each place resolve index items = .ok results) : ∀ result ∈ results, holds result := by
  induction items generalizing index results with
  | nil =>
    cases resolved
    simp
  | cons item items ih =>
    simp only [each, bind_eq_ok, within_eq_ok, pure_eq_ok, Except.ok.injEq] at resolved
    obtain ⟨first, here, rest, others, rfl⟩ := resolved
    exact List.forall_mem_cons.mpr ⟨every item first here, ih others⟩

theorem named_eq_ok {α : Type} {outcome : Except UnknownName α} {value : α} :
    named outcome = .ok value ↔ outcome = .ok value := by
  cases outcome <;> simp [named, fail]

theorem Param.operand_expressible {param : Param} {operand : Operand} (resolved : param.operand = .ok operand) :
    operand.Expressible := by
  unfold Param.operand at resolved
  split at resolved
  next => cases resolved; trivial
  next =>
    split at resolved
    next =>
      split at resolved
      next => cases resolved; trivial
      next => cases resolved
    next =>
      split at resolved
      next => cases resolved; trivial
      next =>
        split at resolved
        next =>
          simp only [bind_eq_ok, pure_eq_ok, Except.ok.injEq] at resolved
          obtain ⟨slot, _, rfl⟩ := resolved
          trivial
        next => cases resolved

theorem Term.callee_known {term : Term} {function : Callee} (called : term.callee = .ok function) (code : Int64) :
    function ≠ .unknown code := by
  unfold Term.callee at called
  split at called
  next => cases called; simp
  next => exact Callee.ofName_known (named_eq_ok.mp called) code

theorem Term.resolve_expressible {document : Term} {term : Lineside.Term} (resolved : document.resolve = .ok term) :
    term.Expressible := by
  simp only [resolve, bind_eq_ok, pure_eq_ok, Except.ok.injEq] at resolved
  obtain ⟨function, called, operator, _, params, given, rfl⟩ := resolved
  refine ⟨Term.callee_known called, each_eq_ok (fun param entry resolved => ?_) given⟩
  simp only [Param.resolve, bind_eq_ok, pure_eq_ok, Except.ok.injEq] at resolved
  obtain ⟨operand, found, rfl⟩ := resolved
  exact ⟨_, rfl, Param.operand_expressible found⟩

theorem Target.resolve_expressible {document : Target} {target : Lineside.Target}
    (resolved : document.resolve = .ok target) : target.Expressible := by
  unfold Target.resolve at resolved
  split at resolved
  next => cases resolved; trivial
  next =>
    split at resolved
    next =>
      simp only [bind_eq_ok, pure_eq_ok, Except.ok.injEq] at resolved
      obtain ⟨slot, _, rfl⟩ := resolved
      trivial
    next => cases resolved; trivial

theorem Condition.test_expressible {document : Condition} {condition : Lineside.Condition}
    (resolved : document.test = .ok condition) : condition.Expressible := by
  unfold Condition.test at resolved
  split at resolved
  next => cases resolved
  next =>
    obtain ⟨first, one, resolved⟩ := bind_eq_ok.mp resolved
    obtain ⟨second, two, resolved⟩ := bind_eq_ok.mp resolved
    obtain ⟨comparator, compared, resolved⟩ := bind_eq_ok.mp resolved
    cases resolved
    refine ⟨⟨first, rfl, Term.resolve_expressible one⟩, ?_, Comparator.ofName_known (named_eq_ok.mp compared)⟩
    rintro term rfl
    cases given : document.term2 with
    | none => simp [given, Term.resolveOptional] at two
    | some other =>
      rw [given] at two
      obtain ⟨value, resolved, same⟩ := map_eq_ok.mp two
      cases same
      exact Term.resolve_expressible resolved

mutual

theorem resolveConditions_expressible : (documents : List Condition) → (index : Nat) → (elements : List Element) →
    resolveConditions index documents = .ok elements → ∀ element ∈ elements, element.Expressible
  | [], _, _, resolved => by
    simp only [resolveConditions, Except.ok.injEq] at resolved
    simp [← resolved]
  | document :: documents, index, _, resolved => by
    simp only [resolveConditions, bind_eq_ok, pure_eq_ok, Except.ok.injEq] at resolved
    obtain ⟨element, first, elements, rest, rfl⟩ := resolved
    exact List.forall_mem_cons.mpr ⟨resolveCondition_expressible document index element first,
      resolveConditions_expressible documents (index + 1) elements rest⟩

theorem resolveCondition_expressible : (document : Condition) → (index : Nat) → (element : Element) →
    resolveCondition index document = .ok element → element.Expressible
  | ⟨kind, term1, term2, compare, negate, group⟩, index, element, resolved => by
    rw [resolveCondition] at resolved
    split at resolved
    next => cases resolved; exact .combinator (by simp)
    split at resolved
    next => cases resolved; exact .combinator (by simp)
    split at resolved
    next => cases resolved; exact .negation
    split at resolved
    next =>
      obtain ⟨elements, inner, rfl⟩ := map_eq_ok.mp resolved
      exact .group (resolveConditions_expressible group 0 elements (within_eq_ok.mp inner))
    split at resolved
    next =>
      obtain ⟨condition, tested, rfl⟩ := map_eq_ok.mp resolved
      exact .condition (Condition.test_expressible (within_eq_ok.mp tested))
    next => cases resolved

end

mutual

theorem resolveNodes_expressible : (documents : List Node) → (index : Nat) → (nodes : List Lineside.Node) →
    resolveNodes index documents = .ok nodes → ∀ node ∈ nodes, node.Expressible
  | [], _, _, resolved => by
    simp only [resolveNodes, Except.ok.injEq] at resolved
    simp [← resolved]
  | document :: documents, index, _, resolved => by
    simp only [resolveNodes, bind_eq_ok, pure_eq_ok, Except.ok.injEq, within_eq_ok] at resolved
    obtain ⟨node, first, nodes, rest, rfl⟩ := resolved
    exact List.forall_mem_cons.mpr ⟨resolveNode_expressible document node first,
      resolveNodes_expressible documents (index + 1) nodes rest⟩

theorem resolveNode_expressible : (document : Node) → (node : Lineside.Node) →
    resolveNode document = .ok node → node.Expressible
  | ⟨kind, target, terms, conditions, body, elseIf, otherwise⟩, node, resolved => by
    rw [resolveNode] at resolved
    split at resolved
    next => cases resolved; exact .leave rfl
    split at resolved
    next =>
      obtain ⟨aim, aimed, resolved⟩ := bind_eq_ok.mp resolved
      obtain ⟨entries, given, resolved⟩ := bind_eq_ok.mp resolved
      cases resolved
      refine .assign ⟨?_, each_eq_ok (fun document entry resolved => ?_) given⟩
      · cases target with
        | none => cases aimed; trivial
        | some target => exact Target.resolve_expressible aimed
      · obtain ⟨term, found, rfl⟩ := map_eq_ok.mp resolved
        exact ⟨term, rfl, Term.resolve_expressible found⟩
    split at resolved
    next =>
      simp only [bind_eq_ok, pure_eq_ok, Except.ok.injEq, within_eq_ok] at resolved
      obtain ⟨elements, tested, nodes, ran, arms, tried, others, left, rfl⟩ := resolved
      exact .branch (resolveConditions_expressible conditions 0 elements tested)
        (resolveNodes_expressible body 0 nodes ran) (resolveArms_expressible elseIf 0 arms tried)
        (resolveNodes_expressible otherwise 0 others left)
    next => cases resolved

theorem resolveArms_expressible : (documents : List (Arm Node)) → (index : Nat) → (arms : List Lineside.Arm) →
    resolveArms index documents = .ok arms → ∀ arm ∈ arms, arm.Expressible
  | [], _, _, resolved => by
    simp only [resolveArms, Except.ok.injEq] at resolved
    simp [← resolved]
  | ⟨conditions, body⟩ :: documents, index, _, resolved => by
    simp only [resolveArms, bind_eq_ok, pure_eq_ok, Except.ok.injEq, within_eq_ok] at resolved
    obtain ⟨_, ⟨elements, tested, nodes, ran, rfl⟩, arms, rest, rfl⟩ := resolved
    exact List.forall_mem_cons.mpr ⟨.arm (resolveConditions_expressible conditions 0 elements tested)
      (resolveNodes_expressible body 0 nodes ran), resolveArms_expressible documents (index + 1) arms rest⟩

end

theorem Script.resolve_expressible {document : Script} {script : Lineside.Script}
    (resolved : document.resolve = .ok script) : ∀ node ∈ script.nodes, node.Expressible := by
  simp only [Script.resolve, bind_eq_ok, pure_eq_ok, Except.ok.injEq] at resolved
  obtain ⟨nodes, resolved, rfl⟩ := resolved
  exact resolveNodes_expressible _ 0 nodes resolved

/-! Nothing of what is left out was written. -/

theorem Node.ofStatement_bared (statement : Statement) :
    Node.ofStatement statement.bared = Node.ofStatement statement := by
  unfold Statement.bared
  split
  next returns => simp [Node.ofStatement, returns]
  next => rfl

mutual

theorem ofNodes_bared : (nodes : List Lineside.Node) → Node.ofNodes (baredNodes nodes) = Node.ofNodes nodes
  | [] => by rw [baredNodes]
  | .absent :: rest => by simp [baredNodes, Node.bared, Node.ofNodes, ofNodes_bared rest]
  | .statement statement :: rest => by
    simp [baredNodes, Node.bared, Node.ofNodes, Node.ofStatement_bared, ofNodes_bared rest]
  | .branch conditions body arms otherwise :: rest => by
    simp [baredNodes, Node.bared, Node.ofNodes, ofNodes_bared body, ofArms_bared arms, ofNodes_bared otherwise,
      ofNodes_bared rest]

theorem ofArms_bared : (arms : List Lineside.Arm) → Node.ofArms (baredArms arms) = Node.ofArms arms
  | [] => by rw [baredArms]
  | .absent :: rest => by simp [baredArms, Node.ofArms]
  | .arm conditions body :: rest => by
    simp [baredArms, Node.ofArms, ofNodes_bared body, ofArms_bared rest]

end

theorem Script.ofScript_bared (script : Lineside.Script) :
    Script.ofScript (some script.bared) = Script.ofScript (some script) := by
  have empty : (baredNodes script.nodes).isEmpty = script.nodes.isEmpty := by
    cases script.nodes <;> simp [baredNodes]
  simp [Script.ofScript, Lineside.Script.bared, ofNodes_bared, empty]

theorem Script.ofScript_eq_ok {script : Lineside.Script} {written : Script}
    (wrote : Script.ofScript (some script) = .ok written) :
    written.name = script.name ∧ written.localCount = script.localCount ∧
      Node.ofNodes script.nodes = .ok (written.statements.getD []) := by
  simp only [Script.ofScript, bind_eq_ok, pure_eq_ok, Except.ok.injEq] at wrote
  obtain ⟨statements, wrote, rfl⟩ := wrote
  refine ⟨rfl, rfl, ?_⟩
  cases nodes : script.nodes with
  | nil => simp [Node.ofNodes]
  | cons node rest => simpa [nodes] using wrote

/-- A script that can be expressed is found again in its document. -/
theorem Script.resolve_ofScript {script : Lineside.Script} (expressible : ∀ node ∈ script.nodes, node.Expressible) :
    ∃ written, Script.ofScript (some script) = .ok written ∧ written.filled.resolve = .ok script.stored := by
  obtain ⟨statements, wrote, read⟩ := resolveNodes_ofNodes script.nodes expressible
  obtain ⟨written, whole⟩ : ∃ written, Script.ofScript (some script) = .ok written :=
    ⟨_, by simp only [Script.ofScript, wrote, ok_bind, pure_eq_ok]; rfl⟩
  obtain ⟨name, locals, nodes⟩ := Script.ofScript_eq_ok whole
  obtain rfl : statements = written.statements.getD [] := Except.ok.inj (wrote.symm.trans nodes)
  refine ⟨written, whole, ?_⟩
  simp [Script.resolve, Script.filled, read, name, locals, Lineside.Script.stored, Lineside.Script.bared]

theorem Script.depth_of_measured {script : Lineside.Script} {written : Script} {depth : Nat}
    (wrote : Script.ofScript (some script) = .ok written)
    (measured : (Node.ofNodes script.nodes).toOption.map (fun nodes => Json.itemsDepth (nodesJson nodes)) = some depth) :
    written.json.depth ≤ depth + 2 := by
  obtain ⟨_, _, nodes⟩ := Script.ofScript_eq_ok wrote
  rw [nodes] at measured
  obtain rfl := Option.some.inj measured
  have flat : written.json.depth = (Script.statementsJson written.statements).depth + 1 := by
    by_cases none : written.localCount = 0 <;>
      simp [Script.json, Script.members, intMember, member, none, Json.ofInt, Json.membersDepth, Json.depth]
  rw [flat]
  cases written.statements <;> simp [Script.statementsJson, Json.depth]

end Document

namespace Script

theorem decode_text {document : Document.Script} (shallow : document.json.depth ≤ Json.maxDepth) (kind : Name) :
    decode kind document.text.toUTF8 = ofDocument document.filled := by
  rw [decode, Text.ofBytes_toUTF8, Document.Script.ofStored_text shallow, Outcome.require_some, Outcome.during_ok,
    ok_bind]

/-- The bytes of a script that can be expressed stand for that script, as far as they can tell. -/
theorem decode_encode {script : Script} (expressible : ∀ node ∈ script.nodes, node.Expressible) :
    ∃ written, Document.Script.ofScript (some script) = .ok written ∧
      script.encode = .ok written.text.toUTF8 ∧
      (written.json.depth ≤ Json.maxDepth → ∀ kind, decode kind written.text.toUTF8 = .ok script.stored) := by
  obtain ⟨written, wrote, read⟩ := Document.Script.resolve_ofScript expressible
  refine ⟨written, wrote, by simp [encode, wrote], fun shallow kind => ?_⟩
  rw [decode_text shallow, ofDocument, read, Outcome.because_ok]

/-- Whatever the bytes of a script that can be expressed stand for, it is that script. -/
theorem eq_of_decode_encode {script stored : Script} (expressible : ∀ node ∈ script.nodes, node.Expressible)
    {blob : ByteArray} (encoded : script.encode = .ok blob) {kind : Name} (decoded : decode kind blob = .ok stored) :
    stored = script.stored := by
  obtain ⟨written, wrote, read⟩ := Document.Script.resolve_ofScript expressible
  have bytes : blob = written.text.toUTF8 := by
    simpa [encode, wrote] using encoded.symm
  rw [bytes, decode, Text.ofBytes_toUTF8] at decoded
  obtain ⟨document, found, resolved⟩ := bind_eq_ok.mp decoded
  obtain rfl := Document.Script.eq_of_ofStored_text (Outcome.require_eq_ok.mp (Outcome.during_eq_ok.mp found))
  rw [ofDocument, read, Outcome.because_ok] at resolved
  exact (Except.ok.inj resolved).symm

/-- The script that a document describes is written to bytes that stand, as far as their nesting can be
read, for the same script with every return bare and with a text for a name. Where the name was a text it is the same,
and the script with bare returns is written to the same bytes again. -/
theorem decode_encode_ofDocument {document : Document.Script} {script : Script}
    (resolved : document.resolve = .ok script) :
    ∃ written, Document.Script.ofScript (some script) = .ok written ∧
      script.encode = .ok written.text.toUTF8 ∧
      (written.json.depth ≤ Json.maxDepth → ∀ kind, decode kind written.text.toUTF8 = .ok script.stored) ∧
      (script.name.Legible → script.stored = script.bared) ∧
      script.bared.encode = .ok written.text.toUTF8 := by
  obtain ⟨written, wrote, encoded, decoded⟩ := decode_encode (Document.Script.resolve_expressible resolved)
  refine ⟨written, wrote, encoded, decoded, stored_of_legible, ?_⟩
  rw [encode, Document.Script.ofScript_bared]
  exact encoded

end Script

/-- A document with a symbolic constant, the local with index zero, a return with a value and a return
inside an arm. -/
private def distant : Document.Script where
  name := "distant"
  localCount := 1
  statements := some [
    { target := some { localVar := some 0 }, terms := [{ params := [{ name := "SIGASP_CLEAR_2" }] }] },
    { kind := "if"
      conditions := [{ kind := "not" }, { kind := "group", group := [
        { term1 := some { function := "BLOCK_STATE" }, term2 := some { params := [{ constant := some 0 }] }
          compare := "EQ" }] }]
      body := [{ terms := [{ function := "RETURN" }, { params := [{ localVar := some 0 }] }] }]
      elseIf := [⟨[{ term1 := some { params := [{ slot := "ENABLED" }] } }], [{ kind := "return" }]⟩] }]

private def distantScript : Script where
  name := "distant"
  localCount := 1
  nodes := [
    .statement { target := .localVar 0, terms := [some { params := [some { operand := .constant 7 }] }] },
    .branch
      [.negation, .group [.condition {
        first := some { function := .builtin .blockState }
        second := some { params := [some { operand := .constant 0 }] }
        comparator := .eq }]]
      [.statement { terms := [some { function := .returning }, some { params := [some { operand := .localVar 0 }] }] }]
      [.arm [.condition { first := some { params := [some { operand := .slot (.known .enabled) }] } }]
        [.statement .leave]]
      []]

theorem decode_encode_distant :
    distant.resolve = .ok distantScript ∧ ∃ blob, distantScript.encode = .ok blob ∧
      (∀ kind, Script.decode kind blob = .ok distantScript.bared) ∧ distantScript.bared.encode = .ok blob := by
  have resolved : distant.resolve = .ok distantScript := by rfl
  have depth : (Document.Node.ofNodes distantScript.nodes).toOption.map
      (fun nodes => Json.itemsDepth (Document.nodesJson nodes)) = some 8 := by
    dsimp only [distantScript]
    cbv
  obtain ⟨written, wrote, encoded, decoded, legible, again⟩ := Script.decode_encode_ofDocument resolved
  have shallow : written.json.depth ≤ Json.maxDepth :=
    Nat.le_trans (Document.Script.depth_of_measured wrote depth) (by decide)
  refine ⟨resolved, _, encoded, fun kind => ?_, again⟩
  rw [← legible ⟨"distant", rfl⟩]
  exact decoded shallow kind

end Lineside
