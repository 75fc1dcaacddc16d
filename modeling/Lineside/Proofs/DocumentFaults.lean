import Lineside.Document.Text
import Lineside.Proofs.Outcomes

/-! What a document must be like to describe a script, and what is reported of one that does not. All faults of a
document are listed in the order in which its pieces are read, each with the entries that lead to it; only the parts
that the kind of an entry uses have any. A document is resolved exactly if it fits the grammar, and otherwise the
first fault of the list is the error. -/

namespace Lineside.Document

variable {α β : Type}

/-! The grammar. -/

/-- Of the alternatives the first one that is given decides. -/
inductive Param.Fits : Param → Prop where
  | constant {param : Param} (given : param.constant ≠ none) : Fits param
  | name {param : Param} (before : param.constant = none) (given : param.name ≠ "")
      (known : ∃ value, Constant.value? param.name = some value) : Fits param
  | localVar {param : Param} (before : param.constant = none ∧ param.name = "") (given : param.localVar ≠ none) :
      Fits param
  | slot {param : Param} (before : param.constant = none ∧ param.name = "" ∧ param.localVar = none)
      (given : param.slot ≠ "") (known : ∃ slot, Slot.ofName param.slot = .ok slot) : Fits param

structure Term.Fits (term : Term) : Prop where
  function : term.function ≠ "" → ∃ callee, Callee.ofName term.function = .ok callee
  operator : term.operator ≠ "" → ∃ operator, Operator.ofName term.operator = .ok operator
  params : ∀ param ∈ term.params, param.Fits

def Target.Fits (target : Target) : Prop :=
  target.localVar = none → target.slot ≠ "" → ∃ slot, Slot.ofName target.slot = .ok slot

inductive Condition.Fits : Condition → Prop where
  | marker {condition : Condition} (kind : condition.kind ∈ ["and", "or", "not"]) : Fits condition
  | group {condition : Condition} (kind : condition.kind = "group") (members : ∀ inner ∈ condition.group, Fits inner) :
      Fits condition
  | test {condition : Condition} (kind : condition.kind = "condition" ∨ condition.kind = "")
      (first : ∃ term, condition.term1 = some term ∧ term.Fits)
      (second : ∀ term, condition.term2 = some term → term.Fits)
      (compare : condition.compare ≠ "" → ∃ comparator, Comparator.ofName condition.compare = .ok comparator) :
      Fits condition

inductive Node.Fits : Node → Prop where
  | leave {node : Node} (kind : node.kind = "return") : Fits node
  | assign {node : Node} (kind : node.kind = "assign" ∨ node.kind = "")
      (target : ∀ target, node.target = some target → target.Fits) (terms : ∀ term ∈ node.terms, term.Fits) : Fits node
  | branch {node : Node} (kind : node.kind = "if") (conditions : ∀ condition ∈ node.conditions, condition.Fits)
      (body : ∀ inner ∈ node.body, Fits inner)
      (tests : ∀ arm ∈ node.elseIf, ∀ condition ∈ arm.conditions, condition.Fits)
      (tried : ∀ arm ∈ node.elseIf, ∀ inner ∈ arm.body, Fits inner)
      (otherwise : ∀ inner ∈ node.otherwise, Fits inner) : Fits node

def Script.Fits (document : Script) : Prop := ∀ node ∈ document.statements.getD [], node.Fits

/-! The faults. -/

def fault (defect : Defect) : List Misfit := [{ defect }]

/-- Puts the entry that faults were found in before their paths. -/
def locate (place : Place) (faults : List Misfit) : List Misfit :=
  faults.map fun misfit => { misfit with path := place :: misfit.path }

/-- The faults of entries, one entry after the other. -/
def eachFaults (place : Nat → Place) (faults : α → List Misfit) : Nat → List α → List Misfit
  | _, [] => []
  | index, first :: rest => locate (place index) (faults first) ++ eachFaults place faults (index + 1) rest

/-- A name that stands in no table. -/
def unresolved : Except UnknownName α → List Misfit
  | .ok _ => []
  | .error unknown => fault (.unknownName unknown.name)

def Param.faults (param : Param) : List Misfit :=
  if param.constant ≠ none then []
  else if param.name ≠ "" then
    if Constant.value? param.name = none then fault (.unknownName param.name) else []
  else if param.localVar ≠ none then []
  else if param.slot ≠ "" then unresolved (Slot.ofName param.slot)
  else fault .emptyParameter

def Term.faults (term : Term) : List Misfit :=
  (if term.function = "" then [] else unresolved (Callee.ofName term.function)) ++
    unresolved (Operator.ofName term.operator) ++ eachFaults .parameter Param.faults 0 term.params

def Target.faults (target : Target) : List Misfit :=
  if target.localVar = none ∧ target.slot ≠ "" then unresolved (Slot.ofName target.slot) else []

def Condition.testFaults (condition : Condition) : List Misfit :=
  match condition.term1 with
  | none => fault .noFirstTerm
  | some first =>
    first.faults ++ condition.term2.elim [] Term.faults ++ unresolved (Comparator.ofName condition.compare)

mutual

def conditionsFaults : Nat → List Condition → List Misfit
  | _, [] => []
  | index, first :: rest => conditionFaults index first ++ conditionsFaults (index + 1) rest

/-- The kind is looked at before an element is entered, so the position of an element of unknown kind is not named. -/
def conditionFaults (index : Nat) : Condition → List Misfit
  | ⟨kind, term1, term2, compare, negate, group⟩ =>
    if kind ∈ ["and", "or", "not"] then []
    else if kind = "group" then locate (.group index) (conditionsFaults 0 group)
    else if kind = "condition" ∨ kind = "" then
      locate (.condition index) (Condition.testFaults ⟨kind, term1, term2, compare, negate, group⟩)
    else fault (.unknownConditionKind kind)

end

mutual

def nodesFaults : Nat → List Node → List Misfit
  | _, [] => []
  | index, first :: rest => locate (.statement index) (nodeFaults first) ++ nodesFaults (index + 1) rest

def nodeFaults : Node → List Misfit
  | ⟨kind, target, terms, conditions, body, elseIf, otherwise⟩ =>
    if kind = "return" then []
    else if kind = "assign" ∨ kind = "" then target.elim [] Target.faults ++ eachFaults .term Term.faults 0 terms
    else if kind = "if" then
      conditionsFaults 0 conditions ++ locate .body (nodesFaults 0 body) ++ armsFaults 0 elseIf ++
        locate .otherwise (nodesFaults 0 otherwise)
    else fault (.unknownNodeKind kind)

def armsFaults : Nat → List (Arm Node) → List Misfit
  | _, [] => []
  | index, ⟨conditions, body⟩ :: rest =>
    locate (.elseIf index) (conditionsFaults 0 conditions ++ locate .body (nodesFaults 0 body)) ++
      armsFaults (index + 1) rest

end

/-- The faults of a document in the order in which it is read. -/
def Script.faults (document : Script) : List Misfit := nodesFaults 0 (document.statements.getD [])

/-! A document without faults fits. -/

theorem locate_eq_nil {place : Place} {faults : List Misfit} : locate place faults = [] ↔ faults = [] :=
  List.map_eq_nil_iff

theorem eachFaults_eq_nil {place : Nat → Place} {faults : α → List Misfit} {index : Nat} {entries : List α} :
    eachFaults place faults index entries = [] ↔ ∀ entry ∈ entries, faults entry = [] := by
  induction entries generalizing index with
  | nil => simp [eachFaults]
  | cons first rest ih => rw [eachFaults, List.append_eq_nil_iff, locate_eq_nil, ih, List.forall_mem_cons]

theorem unresolved_eq_nil {resolved : Except UnknownName α} :
    unresolved resolved = [] ↔ ∃ value, resolved = .ok value := by
  cases resolved <;> simp [unresolved, fault]

theorem fault_ne_nil {defect : Defect} : fault defect ≠ [] := List.cons_ne_nil _ _

theorem Param.faults_eq_nil {param : Param} : param.faults = [] ↔ param.Fits := by
  unfold faults
  constructor
  · intro none
    split at none
    next given => exact .constant given
    next before =>
      have before := Classical.not_not.mp before
      split at none
      next given =>
        split at none
        next => exact absurd none fault_ne_nil
        next known => exact .name before given (Option.ne_none_iff_exists'.mp known)
      next nameless =>
        have nameless := Classical.not_not.mp nameless
        split at none
        next given => exact .localVar ⟨before, nameless⟩ given
        next globally =>
          split at none
          next given => exact .slot ⟨before, nameless, Classical.not_not.mp globally⟩ given (unresolved_eq_nil.mp none)
          next => exact absurd none fault_ne_nil
  · intro fits
    cases fits with
    | constant given => simp [given]
    | name before given known => simp [before, given, Option.ne_none_iff_exists'.mpr known]
    | localVar before given => simp [before, given]
    | slot before given known => simp [before, given, unresolved_eq_nil.mpr known]

/-- Where an empty name stands for a default, only names that are given can fail. -/
theorem unresolved_optional {resolve : String → Except UnknownName α} {default : α} (unnamed : resolve "" = .ok default)
    {name : String} : unresolved (resolve name) = [] ↔ (name ≠ "" → ∃ value, resolve name = .ok value) := by
  by_cases empty : name = ""
  · simp [empty, unnamed, unresolved]
  · simp [empty, unresolved_eq_nil]

theorem Term.faults_eq_nil {term : Term} : term.faults = [] ↔ term.Fits := by
  have function : (if term.function = "" then [] else unresolved (Callee.ofName term.function)) = [] ↔
      (term.function ≠ "" → ∃ callee, Callee.ofName term.function = .ok callee) := by
    by_cases empty : term.function = ""
    · simp [empty]
    · simp [empty, Document.unresolved_eq_nil]
  simp only [faults, List.append_eq_nil_iff, function, unresolved_optional (rfl : Operator.ofName "" = .ok .none),
    eachFaults_eq_nil, Param.faults_eq_nil]
  constructor
  · rintro ⟨⟨function, operator⟩, params⟩
    exact ⟨function, operator, params⟩
  · rintro ⟨function, operator, params⟩
    exact ⟨⟨function, operator⟩, params⟩

theorem Target.faults_eq_nil {target : Target} : target.faults = [] ↔ target.Fits := by
  unfold faults Fits
  by_cases globally : target.localVar = none <;> by_cases given : target.slot = "" <;>
    simp [globally, given, unresolved_eq_nil]

theorem Condition.testFaults_eq_nil {condition : Condition} :
    condition.testFaults = [] ↔
      (∃ term, condition.term1 = some term ∧ term.Fits) ∧ (∀ term, condition.term2 = some term → term.Fits) ∧
        (condition.compare ≠ "" → ∃ comparator, Comparator.ofName condition.compare = .ok comparator) := by
  unfold testFaults
  cases first : condition.term1 with
  | none => simp [fault]
  | some first =>
    cases second : condition.term2 <;> simp [Term.faults_eq_nil, unresolved_optional (rfl : Comparator.ofName "" = .ok .none)]

theorem conditionFaults_eq_nil {index : Nat} {condition : Condition}
    (inside : conditionsFaults 0 condition.group = [] ↔ ∀ inner ∈ condition.group, inner.Fits) :
    conditionFaults index condition = [] ↔ condition.Fits := by
  obtain ⟨kind, term1, term2, compare, negate, group⟩ := condition
  rw [conditionFaults]
  constructor
  · intro none
    split at none
    next kind => exact .marker kind
    next =>
      split at none
      next kind => exact .group kind (inside.mp (locate_eq_nil.mp none))
      next =>
        split at none
        next kind =>
          obtain ⟨first, second, compared⟩ := Condition.testFaults_eq_nil.mp (locate_eq_nil.mp none)
          exact .test kind first second compared
        next => exact absurd none fault_ne_nil
  · intro fits
    cases fits with
    | marker kind => exact if_pos kind
    | group kind members =>
      cases kind
      rw [if_neg (by decide), if_pos rfl, locate_eq_nil]
      exact inside.mpr members
    | test named first second compared =>
      have complete := Condition.testFaults_eq_nil.mpr ⟨first, second, compared⟩
      have entered : kind ∉ ["and", "or", "not"] ∧ kind ≠ "group" := by
        rcases named with rfl | rfl <;> decide
      rw [if_neg entered.1, if_neg entered.2, if_pos named, locate_eq_nil]
      exact complete

theorem conditionsFaults_eq_nil : (conditions : List Condition) → (index : Nat) →
    (conditionsFaults index conditions = [] ↔ ∀ condition ∈ conditions, condition.Fits)
  | [], index => by simp [conditionsFaults]
  | ⟨kind, term1, term2, compare, negate, group⟩ :: rest, index => by
    rw [conditionsFaults, List.append_eq_nil_iff, List.forall_mem_cons, conditionsFaults_eq_nil rest,
      conditionFaults_eq_nil (conditionsFaults_eq_nil group 0)]

/-- The arms of a branch. -/
def ArmsFit (arms : List (Arm Node)) : Prop :=
  ∀ arm ∈ arms, (∀ condition ∈ arm.conditions, condition.Fits) ∧ ∀ node ∈ arm.body, node.Fits

theorem nodeFaults_eq_nil {node : Node} (body : nodesFaults 0 node.body = [] ↔ ∀ inner ∈ node.body, inner.Fits)
    (arms : armsFaults 0 node.elseIf = [] ↔ ArmsFit node.elseIf)
    (otherwise : nodesFaults 0 node.otherwise = [] ↔ ∀ inner ∈ node.otherwise, inner.Fits) :
    nodeFaults node = [] ↔ node.Fits := by
  obtain ⟨kind, target, terms, conditions, inner, elseIf, others⟩ := node
  have assigned : target.elim [] Target.faults ++ eachFaults .term Term.faults 0 terms = [] ↔
      (∀ written, target = some written → written.Fits) ∧ ∀ term ∈ terms, term.Fits := by
    cases target <;> simp [eachFaults_eq_nil, Term.faults_eq_nil, Target.faults_eq_nil]
  have branched : conditionsFaults 0 conditions ++ locate .body (nodesFaults 0 inner) ++ armsFaults 0 elseIf ++
      locate .otherwise (nodesFaults 0 others) = [] ↔
      (∀ condition ∈ conditions, condition.Fits) ∧ (∀ node ∈ inner, node.Fits) ∧ ArmsFit elseIf ∧
        ∀ node ∈ others, node.Fits := by
    simp only [List.append_eq_nil_iff, locate_eq_nil, conditionsFaults_eq_nil, body, arms, otherwise, and_assoc]
  rw [nodeFaults]
  constructor
  · intro none
    split at none
    next kind => exact .leave kind
    next =>
      split at none
      next kind =>
        obtain ⟨target, terms⟩ := assigned.mp none
        exact .assign kind target terms
      next =>
        split at none
        next kind =>
          obtain ⟨conditions, body, arms, otherwise⟩ := branched.mp none
          exact .branch kind conditions body (fun arm member => (arms arm member).1)
            (fun arm member => (arms arm member).2) otherwise
        next => exact absurd none fault_ne_nil
  · intro fits
    cases fits with
    | leave kind => exact if_pos kind
    | assign named target terms =>
      have entered : kind ≠ "return" := by
        rcases named with rfl | rfl <;> decide
      rw [if_neg entered, if_pos named]
      exact assigned.mpr ⟨target, terms⟩
    | branch named conditions body tests tried otherwise =>
      cases named
      rw [if_neg (by decide), if_neg (by decide), if_pos rfl]
      exact branched.mpr ⟨conditions, body, fun arm member => ⟨tests arm member, tried arm member⟩, otherwise⟩

mutual

theorem nodesFaults_eq_nil : (nodes : List Node) → (index : Nat) →
    (nodesFaults index nodes = [] ↔ ∀ node ∈ nodes, node.Fits)
  | [], index => by simp [nodesFaults]
  | ⟨kind, target, terms, conditions, body, elseIf, otherwise⟩ :: rest, index => by
    rw [nodesFaults, List.append_eq_nil_iff, List.forall_mem_cons, nodesFaults_eq_nil rest, locate_eq_nil,
      nodeFaults_eq_nil (nodesFaults_eq_nil body 0) (armsFaults_eq_nil elseIf 0) (nodesFaults_eq_nil otherwise 0)]

theorem armsFaults_eq_nil : (arms : List (Arm Node)) → (index : Nat) →
    (armsFaults index arms = [] ↔ ArmsFit arms)
  | [], index => by simp [armsFaults, ArmsFit]
  | ⟨conditions, body⟩ :: rest, index => by
    rw [armsFaults, List.append_eq_nil_iff, locate_eq_nil, List.append_eq_nil_iff, locate_eq_nil,
      conditionsFaults_eq_nil, nodesFaults_eq_nil body 0, armsFaults_eq_nil rest, ArmsFit, ArmsFit,
      List.forall_mem_cons]

end

/-! A document is resolved, or the first of its faults is the error. -/

/-- An outcome is an error exactly if there is a fault, and then it is the first one. -/
def Tells (faults : List Misfit) (outcome : Resolved α) : Prop :=
  match faults with
  | [] => ∃ value, outcome = .ok value
  | first :: _ => outcome = .error first

theorem Tells.ok (value : α) : Tells [] (.ok value) := ⟨value, rfl⟩

theorem Tells.fail (defect : Defect) : Tells (fault defect) (fail defect : Resolved α) := rfl

/-- What is read later has its say where all before was in order. -/
theorem Tells.bind {faults later : List Misfit} {outcome : Resolved α} {next : α → Resolved β}
    (first : Tells faults outcome) (second : ∀ value, Tells later (next value)) :
    Tells (faults ++ later) (outcome >>= next) := by
  cases faults with
  | nil =>
    obtain ⟨value, rfl⟩ := first
    exact second value
  | cons misfit rest =>
    obtain rfl : outcome = .error misfit := first
    rfl

theorem Tells.map {faults : List Misfit} {outcome : Resolved α} (told : Tells faults outcome) (f : α → β) :
    Tells faults (f <$> outcome) := by
  cases faults with
  | nil =>
    obtain ⟨value, rfl⟩ := told
    exact ⟨f value, rfl⟩
  | cons misfit rest =>
    obtain rfl : outcome = .error misfit := told
    rfl

theorem Tells.within {faults : List Misfit} {outcome : Resolved α} (told : Tells faults outcome) (place : Place) :
    Tells (locate place faults) (within place outcome) := by
  cases faults with
  | nil =>
    obtain ⟨value, rfl⟩ := told
    exact ⟨value, rfl⟩
  | cons misfit rest =>
    obtain rfl : outcome = .error misfit := told
    rfl

theorem tells_named (resolved : Except UnknownName α) : Tells (unresolved resolved) (named resolved) := by
  cases resolved with
  | ok value => exact .ok value
  | error unknown => exact .fail _

theorem tells_each {place : Nat → Place} {faults : α → List Misfit} {resolve : α → Resolved β}
    (told : ∀ entry, Tells (faults entry) (resolve entry)) (entries : List α) (index : Nat) :
    Tells (eachFaults place faults index entries) (each place resolve index entries) := by
  induction entries generalizing index with
  | nil => exact .ok []
  | cons first rest ih =>
    rw [eachFaults, each]
    apply ((told first).within (place index)).bind
    intro value
    exact (ih (index + 1)).map _

theorem Param.tells_operand (param : Param) : Tells param.faults param.operand := by
  unfold faults operand
  cases param.constant with
  | some value => exact .ok _
  | none =>
    by_cases nameless : param.name = ""
    · simp only [nameless, ne_eq, not_true_eq_false, if_false]
      cases param.localVar with
      | some index => exact .ok _
      | none =>
        by_cases slotless : param.slot = ""
        · simp only [slotless, not_true_eq_false, if_false]
          exact .fail _
        · simp only [slotless, not_true_eq_false, not_false_eq_true, if_true, if_false]
          exact (tells_named _).map _
    · simp only [nameless, ne_eq, not_true_eq_false, not_false_eq_true, if_true, if_false]
      cases Constant.value? param.name with
      | some value => exact .ok _
      | none => exact .fail _

theorem Param.tells (param : Param) : Tells param.faults param.resolve := param.tells_operand.map _

theorem Term.tells_callee (term : Term) :
    Tells (if term.function = "" then [] else unresolved (Callee.ofName term.function)) term.callee := by
  unfold callee
  split
  · exact .ok _
  · exact tells_named _

theorem Term.tells (term : Term) : Tells term.faults term.resolve := by
  unfold faults resolve
  rw [List.append_assoc]
  apply term.tells_callee.bind
  intro function
  apply (tells_named _).bind
  intro operator
  exact (tells_each Param.tells term.params 0).map _

theorem Term.tells_optional (entry : Option Term) : Tells (entry.elim [] Term.faults) (resolveOptional entry) := by
  cases entry with
  | none => exact .ok none
  | some term => exact term.tells.map some

theorem Target.tells (target : Target) : Tells target.faults target.resolve := by
  unfold faults resolve
  cases target.localVar with
  | some index => exact .ok _
  | none =>
    by_cases slotless : target.slot = ""
    · simp only [slotless, ne_eq, not_true_eq_false, and_false, if_false]
      exact .ok _
    · simp only [slotless, ne_eq, not_false_eq_true, and_self, if_true]
      exact (tells_named _).map _

theorem Target.tells_optional (entry : Option Target) : Tells (entry.elim [] Target.faults) (resolveOptional entry) := by
  cases entry with
  | none => exact .ok Lineside.Target.none
  | some target => exact target.tells

theorem Condition.tells_test (condition : Condition) : Tells condition.testFaults condition.test := by
  unfold testFaults test
  cases condition.term1 with
  | none => exact .fail _
  | some first =>
    simp only [List.append_assoc]
    apply first.tells.bind
    intro one
    apply (Term.tells_optional condition.term2).bind
    intro two
    exact (tells_named _).map _

theorem tells_condition {condition : Condition}
    (inside : Tells (conditionsFaults 0 condition.group) (resolveConditions 0 condition.group)) (index : Nat) :
    Tells (conditionFaults index condition) (resolveCondition index condition) := by
  obtain ⟨kind, term1, term2, compare, negate, group⟩ := condition
  rw [conditionFaults, resolveCondition]
  by_cases marker : kind ∈ ["and", "or", "not"]
  · rw [if_pos marker]
    simp only [List.mem_cons, List.not_mem_nil, or_false] at marker
    rcases marker with rfl | rfl | rfl <;> exact .ok _
  · rw [if_neg marker]
    simp only [List.mem_cons, List.not_mem_nil, or_false, not_or] at marker
    obtain ⟨conjunction, disjunction, negation⟩ := marker
    rw [if_neg conjunction, if_neg disjunction, if_neg negation]
    split
    next => exact (inside.within (.group index)).map _
    next =>
      split
      next => exact ((Condition.tells_test _).within (.condition index)).map _
      next => exact .fail _

theorem tells_conditions : (conditions : List Condition) → (index : Nat) →
    Tells (conditionsFaults index conditions) (resolveConditions index conditions)
  | [], index => by
    rw [conditionsFaults, resolveConditions]
    exact .ok []
  | ⟨kind, term1, term2, compare, negate, group⟩ :: rest, index => by
    rw [conditionsFaults, resolveConditions]
    apply (tells_condition (tells_conditions group 0) index).bind
    intro element
    exact (tells_conditions rest (index + 1)).map _

theorem tells_node {node : Node} (body : Tells (nodesFaults 0 node.body) (resolveNodes 0 node.body))
    (arms : Tells (armsFaults 0 node.elseIf) (resolveArms 0 node.elseIf))
    (otherwise : Tells (nodesFaults 0 node.otherwise) (resolveNodes 0 node.otherwise)) :
    Tells (nodeFaults node) (resolveNode node) := by
  obtain ⟨kind, target, terms, conditions, inner, elseIf, others⟩ := node
  rw [nodeFaults, resolveNode]
  split
  next => exact .ok _
  next =>
    split
    next =>
      apply (Target.tells_optional target).bind
      intro target
      exact (tells_each (fun term => term.tells.map some) terms 0).map _
    next =>
      split
      next =>
        simp only [List.append_assoc]
        apply (tells_conditions conditions 0).bind
        intro elements
        apply (body.within .body).bind
        intro nodes
        apply arms.bind
        intro arms
        exact (otherwise.within .otherwise).map _
      next => exact .fail _

mutual

theorem tells_nodes : (nodes : List Node) → (index : Nat) → Tells (nodesFaults index nodes) (resolveNodes index nodes)
  | [], index => by
    rw [nodesFaults, resolveNodes]
    exact .ok []
  | ⟨kind, target, terms, conditions, body, elseIf, otherwise⟩ :: rest, index => by
    rw [nodesFaults, resolveNodes]
    apply ((tells_node (tells_nodes body 0) (tells_arms elseIf 0) (tells_nodes otherwise 0)).within _).bind
    intro node
    exact (tells_nodes rest (index + 1)).map _

theorem tells_arms : (arms : List (Arm Node)) → (index : Nat) → Tells (armsFaults index arms) (resolveArms index arms)
  | [], index => by
    rw [armsFaults, resolveArms]
    exact .ok []
  | ⟨conditions, body⟩ :: rest, index => by
    rw [armsFaults, resolveArms]
    -- All of the arm is read inside its entry, so its faults are told before their paths are completed.
    have arm : Tells (conditionsFaults 0 conditions ++ locate .body (nodesFaults 0 body)) (do
        let elements ← resolveConditions 0 conditions
        return Lineside.Arm.arm elements (← within .body (resolveNodes 0 body))) := by
      apply (tells_conditions conditions 0).bind
      intro elements
      exact ((tells_nodes body 0).within .body).map _
    apply (arm.within (.elseIf index)).bind
    intro first
    exact (tells_arms rest (index + 1)).map _

end

theorem Script.tells (document : Script) : Tells document.faults document.resolve :=
  (tells_nodes (document.statements.getD []) 0).map _

theorem Script.faults_eq_nil {document : Script} : document.faults = [] ↔ document.Fits :=
  nodesFaults_eq_nil (document.statements.getD []) 0

end Lineside.Document

namespace Lineside

/-- What goes wrong in no particular activity is told by its cause alone. -/
theorem Error.message_cause (cause : Cause) : message { cause } = cause.message := by
  rw [message, List.map_nil, List.nil_append, String.intercalate_singleton]

namespace Script

theorem ofDocument_of_fault {document : Document.Script} {first : Document.Misfit} {rest : List Document.Misfit}
    (found : document.faults = first :: rest) :
    ofDocument document = .error { cause := .misfit document.name first } := by
  have told := document.tells
  rw [found] at told
  have resolved : document.resolve = .error first := told
  rw [ofDocument, resolved]
  rfl

theorem ofDocument_of_fits {document : Document.Script} (fits : document.Fits) :
    ∃ script, ofDocument document = .ok script := by
  have told := document.tells
  rw [Document.Script.faults_eq_nil.mpr fits] at told
  obtain ⟨script, resolved⟩ := told
  exact ⟨script, Outcome.because_eq_ok.mpr resolved⟩

/-- A document describes a script exactly if it fits the grammar. Otherwise the error is the first fault that reading
comes to, and its text names the entries that lead there. -/
theorem ofDocument_first_fault (document : Document.Script) :
    ((∃ script, ofDocument document = .ok script) ↔ document.Fits) ∧
    ∀ error, ofDocument document = .error error ↔ ∃ misfit, document.faults.head? = some misfit ∧
      error = { cause := .misfit document.name misfit } ∧
      error.message =
        ": ".intercalate (("script " ++ document.name.text) :: misfit.path.map (·.text) ++ [misfit.defect.message]) := by
  cases found : document.faults with
  | nil =>
    have fits : document.Fits := Document.Script.faults_eq_nil.mp found
    obtain ⟨script, resolved⟩ := ofDocument_of_fits fits
    simp [resolved, fits]
  | cons first rest =>
    have misfit : ¬ document.Fits := by
      intro fits
      rw [Document.Script.faults_eq_nil.mpr fits] at found
      cases found
    rw [ofDocument_of_fault found]
    constructor
    · simp [misfit]
    · intro error
      simp only [Except.error.injEq, List.head?_cons, Option.some.injEq, exists_eq_left']
      constructor
      · rintro rfl
        exact ⟨rfl, Error.message_cause _⟩
      · rintro ⟨rfl, -⟩
        rfl

/-- Two faults in an else-if arm, where the condition comes before the body, and an unknown kind behind them. -/
example : (Document.nodesFaults 0 [{ kind := "return" }, { kind := "if", elseIf := [
      { conditions := [{ kind := "group", group := [{ term1 := some { function := "NO_SUCH" } }] }]
        body := [{ target := some { slot := "SPEED" }, terms := [{ params := [{}] }] }] }] }, { kind := "loop" }]) = [
    ⟨[.statement 1, .elseIf 0, .group 0, .condition 0], .unknownName "NO_SUCH"⟩,
    ⟨[.statement 1, .elseIf 0, .body, .statement 0], .unknownName "SPEED"⟩,
    ⟨[.statement 1, .elseIf 0, .body, .statement 0, .term 0, .parameter 0], .emptyParameter⟩,
    ⟨[.statement 2], .unknownNodeKind "loop"⟩] := by
  rfl

end Script

end Lineside
