import Lineside.Document.Writing
import Lineside.Proofs.JsonText

/-! A document is read back from the text it is stored under. Every member that is left out had the value
a record starts with, so reading the members that are there, one after the other, completes the record. -/

namespace Lineside.Document

open Json (Whole WholeItems WholeMembers)

section Numbers

private theorem digit?_ten {c : Char} (digit : c.isDigit = true) :
    Decimal.digit? 10 c = some (c.toNat - '0'.toNat) := by
  have numeric : Decimal.isDigit c = true := digit
  have bound : c.toNat ≤ 57 := by
    simp only [Char.isDigit, Bool.and_eq_true, decide_eq_true_eq] at digit
    exact digit.2
  simp only [Decimal.digit?, numeric, if_true]
  exact if_pos (by simp; omega)

private theorem digitsValue?_foldl {cs : List Char} (digits : ∀ c ∈ cs, c.isDigit = true) (value : Nat) :
    cs.foldlM (fun value c => (Decimal.digit? 10 c).map (10 * value + ·)) value =
      some (Nat.ofDigitChars 10 cs value) := by
  induction cs generalizing value with
  | nil => simp
  | cons c cs ih =>
    obtain ⟨first, others⟩ := List.forall_mem_cons.mp digits
    simp [digit?_ten first, ih others, Nat.ofDigitChars_cons]

theorem natural?_toDigits (n : Nat) : Decimal.natural? 10 (Nat.toDigits 10 n) = some n := by
  have digits : ∀ c ∈ Nat.toDigits 10 n, c.isDigit = true := fun _ =>
    Nat.isDigit_of_mem_toDigits (by decide) (by decide)
  rw [Decimal.natural?, if_neg Nat.toDigits_ne_nil, Decimal.digitsValue?, digitsValue?_foldl digits,
    Nat.ofDigitChars_ten_toDigits]

theorem sign_toDigits (n : Nat) : Decimal.sign (Nat.toDigits 10 n) = (false, Nat.toDigits 10 n) := by
  obtain ⟨c, digits, shape, digit⟩ := Json.toDigits_cons n
  rw [shape]
  unfold Decimal.sign
  split
  next same => cases (List.cons.inj same).1; cases digit
  next same => cases (List.cons.inj same).1; cases digit
  next => rfl

theorem ofInt?_toInt (value : Int64) : Integer.ofInt? value.toInt = some value := by
  have lower := value.le_toInt
  have upper := value.toInt_lt
  rw [Integer.ofInt?, if_pos, Int64.ofInt_toInt]
  simp only [Integer.half]
  omega

theorem signed_eq_ok {negative : Bool} {magnitude : Nat} {value : Int64}
    (same : (if negative then -(magnitude : Int) else magnitude) = value.toInt) :
    Decimal.signed negative magnitude = .ok value := by
  rw [Decimal.signed, same, ofInt?_toInt]

/-- An integer is read back from its text. -/
theorem integerOf?_repr (value : Int64) : integerOf? value.toInt.repr = some value := by
  rw [Int.repr_eq_if]
  split
  next positive =>
    have read : Decimal.signed false value.toInt.toNat = .ok value :=
      signed_eq_ok (Int.toNat_of_nonneg positive)
    simp only [integerOf?, Nat.toList_repr, sign_toDigits, natural?_toDigits, read]
    rfl
  next negative =>
    have read : Decimal.signed true (-value.toInt).toNat = .ok value := by
      refine signed_eq_ok ?_
      rw [if_pos rfl]
      omega
    simp only [integerOf?, Json.toList_minus, Decimal.sign, natural?_toDigits, read]
    rfl

end Numbers

/-- The keys of documents. -/
def keys : List String :=
  ["constant", "name", "local", "external", "minus", "function", "params", "op", "negate", "sublevel",
    "sublevel2", "kind", "term1", "term2", "compare", "group", "target", "terms", "conditions", "then",
    "elseif", "else", "locals", "statements"]

/-- Keys of documents are written in the letter case in which they are looked up. -/
theorem foldKey_of_mem : ∀ key ∈ keys, foldKey key = key := by
  decide +kernel

/-- Reading members into a record leads to another one. -/
def Reads {α : Type} (field : String → Json → α → Option α) (members : List (String × Json)) (before after : α) :
    Prop :=
  members.foldlM (fun record (key, value) => field (foldKey key) value record) before = some after

namespace Reads

variable {α : Type} {field : String → Json → α → Option α} {before middle after : α} {key : String}

theorem append {first second : List (String × Json)} (one : Reads field first before middle)
    (two : Reads field second middle after) : Reads field (first ++ second) before after := by
  unfold Reads at *
  rw [List.foldlM_append, one]
  exact two

theorem single {value : Json} (read : field key value before = some after) (known : key ∈ keys := by decide) :
    Reads field [(key, value)] before after := by
  simp [Reads, foldKey_of_mem key known, read]

theorem cons {value : Json} {members : List (String × Json)} (first : Reads field [(key, value)] before middle)
    (rest : Reads field members middle after) : Reads field ((key, value) :: members) before after :=
  append first rest

/-- A member that says nothing need not be read. -/
theorem member {value : Json} {given : Bool} (read : given = true → field key value before = some after)
    (left : given = false → before = after) (known : key ∈ keys := by decide) :
    Reads field (Document.member key given value) before after := by
  cases given with
  | true => exact single (read rfl) known
  | false =>
    rw [left rfl]
    rfl

theorem text (set : String → α) (read : ∀ text, field key (.string text) (set "") = some (set text)) {text : String}
    (known : key ∈ keys := by decide) : Reads field (textMember key text) (set "") (set text) :=
  member (fun _ => read text) (fun empty => by rw [show text = "" by simpa using empty]) known

theorem bool (set : Bool → α) (read : ∀ value, field key (.bool value) (set false) = some (set value))
    {value : Bool} (known : key ∈ keys := by decide) : Reads field (boolMember key value) (set false) (set value) :=
  member (fun given => given ▸ read true) (fun off => by rw [off]) known

theorem int (set : Int64 → α) (read : ∀ value, field key (.ofInt value) (set 0) = some (set value)) {value : Int64}
    (known : key ∈ keys := by decide) : Reads field (intMember key value) (set 0) (set value) :=
  member (fun _ => read value) (fun zero => by rw [show value = 0 by simpa using zero]) known

theorem index (set : Option Int64 → α) (read : ∀ value, field key (.ofInt value) (set none) = some (set (some value)))
    {value : Option Int64} (known : key ∈ keys := by decide) :
    Reads field (indexMember key value) (set none) (set value) := by
  cases value with
  | none => rfl
  | some value => exact single (read value) known

theorem list {β : Type} (set : Slots β → α) {items : List Json} {slots : Slots β}
    (read : field key (.array items) (set {}) = some (set slots)) (left : items = [] → slots = {})
    (known : key ∈ keys := by decide) : Reads field (listMember key items) (set {}) (set slots) :=
  member (fun _ => read) (fun empty => by rw [left (by simpa using empty)]) known

theorem recordInto_object {members : List (String × Json)} (reads : Reads field members before after) :
    recordInto field (.object members) before = some after := reads

end Reads

theorem Slots.refill_empty {α : Type} (items : List α) : Slots.refill {} items = { items } := by
  cases items <;> rfl

theorem itemsInto_map {α β : Type} {read : Json → β → Option β} {initial : β} {json : α → Json} {draft : α → β}
    (reads : ∀ item, read (json item) initial = some (draft item)) (items : List α) :
    itemsInto read initial (items.map json) [] = some (items.map draft) := by
  induction items with
  | nil => rfl
  | cons item items ih => simp [itemsInto, reads, ih]

theorem slotsInto_map {α β : Type} {read : Json → β → Option β} {initial : β} {json : α → Json} {draft : α → β}
    (reads : ∀ item, read (json item) initial = some (draft item)) (items : List α) :
    slotsInto read initial {} (.array (items.map json)) = some { items := items.map draft } := by
  have read := itemsInto_map reads items
  simp [slotsInto, Slots.all, read, Slots.refill_empty]

theorem optionalIntOf_ofInt (value : Int64) : optionalIntOf (.ofInt value) = some (some value) := by
  simp [optionalIntOf, Json.ofInt, integerOf?_repr]

theorem intOf_ofInt (current value : Int64) : intOf current (.ofInt value) = some value :=
  integerOf?_repr value

theorem recordInto_param (param : Param) : recordInto Param.jsonField param.json {} = some param := by
  obtain ⟨constant, name, localVar, slot, minus⟩ := param
  have constants : Reads Param.jsonField (indexMember "constant" constant) {} { constant } :=
    .index (fun constant => ({ constant } : Param)) fun _ => by simp [Param.jsonField, optionalIntOf_ofInt]
  have names : Reads Param.jsonField (textMember "name" name) { constant } { constant, name } :=
    .text (fun name => ({ constant, name } : Param)) fun _ => by simp [Param.jsonField, textOf]
  have locals : Reads Param.jsonField (indexMember "local" localVar) { constant, name }
      { constant, name, localVar } :=
    .index (fun localVar => ({ constant, name, localVar } : Param)) fun _ => by
      simp [Param.jsonField, optionalIntOf_ofInt]
  have slots : Reads Param.jsonField (textMember "external" slot) { constant, name, localVar }
      { constant, name, localVar, slot } :=
    .text (fun slot => ({ constant, name, localVar, slot } : Param)) fun _ => by simp [Param.jsonField, textOf]
  have signs : Reads Param.jsonField (boolMember "minus" minus) { constant, name, localVar, slot }
      { constant, name, localVar, slot, minus } :=
    .bool (fun minus => ({ constant, name, localVar, slot, minus } : Param)) fun _ => by
      simp [Param.jsonField, boolOf]
  exact ((((constants.append names).append locals).append slots).append signs).recordInto_object

/-- The draft of a term, with nothing in reserve. -/
def draftTerm (term : Term) : Draft.Term where
  function := term.function
  params := { items := term.params }
  operator := term.operator
  negate := term.negate
  minus := term.minus
  sublevel := term.sublevel
  sublevel2 := term.sublevel2

theorem recordInto_term (term : Term) :
    recordInto Draft.Term.jsonField term.json {} = some (draftTerm term) := by
  obtain ⟨function, items, operator, negate, minus, sublevel, sublevel2⟩ := term
  let params : Slots Param := { items }
  have read : slotsInto (recordInto Param.jsonField) {} {} (.array (items.map Param.json)) = some params := by
    simpa using slotsInto_map recordInto_param items
  have functions : Reads Draft.Term.jsonField (textMember "function" function) {} { function } :=
    .text (fun function => ({ function } : Draft.Term)) fun _ => by simp [Draft.Term.jsonField, textOf]
  have lists : Reads Draft.Term.jsonField (listMember "params" (items.map Param.json)) { function }
      { function, params } :=
    .list (fun params => ({ function, params } : Draft.Term)) (by simp [Draft.Term.jsonField, read])
      fun empty => by simp [params, List.map_eq_nil_iff.mp empty]
  have operators : Reads Draft.Term.jsonField (textMember "op" operator) { function, params }
      { function, params, operator } :=
    .text (fun operator => ({ function, params, operator } : Draft.Term)) fun _ => by
      simp [Draft.Term.jsonField, textOf]
  have negations : Reads Draft.Term.jsonField (boolMember "negate" negate) { function, params, operator }
      { function, params, operator, negate } :=
    .bool (fun negate => ({ function, params, operator, negate } : Draft.Term)) fun _ => by
      simp [Draft.Term.jsonField, boolOf]
  have signs : Reads Draft.Term.jsonField (boolMember "minus" minus) { function, params, operator, negate }
      { function, params, operator, negate, minus } :=
    .bool (fun minus => ({ function, params, operator, negate, minus } : Draft.Term)) fun _ => by
      simp [Draft.Term.jsonField, boolOf]
  have levels : Reads Draft.Term.jsonField (intMember "sublevel" sublevel)
      { function, params, operator, negate, minus } { function, params, operator, negate, minus, sublevel } :=
    .int (fun sublevel => ({ function, params, operator, negate, minus, sublevel } : Draft.Term)) fun _ => by
      simp [Draft.Term.jsonField, intOf_ofInt]
  have seconds : Reads Draft.Term.jsonField (intMember "sublevel2" sublevel2)
      { function, params, operator, negate, minus, sublevel }
      { function, params, operator, negate, minus, sublevel, sublevel2 } :=
    .int (fun sublevel2 => ({ function, params, operator, negate, minus, sublevel, sublevel2 } : Draft.Term))
      fun _ => by simp [Draft.Term.jsonField, intOf_ofInt]
  exact ((((((functions.append lists).append operators).append negations).append signs).append
    levels).append seconds).recordInto_object

@[simp] theorem document_comp_draftTerm : Draft.Term.document ∘ draftTerm = id := rfl

theorem optionalInto_object {α : Type} {field : String → Json → α → Option α} {initial record : α}
    {members : List (String × Json)} (read : recordInto field (.object members) initial = some record) :
    optionalInto field initial none (.object members) = some (some record) := by
  simp [optionalInto, read]

theorem optionalInto_term (term : Term) :
    optionalInto Draft.Term.jsonField {} none term.json = some (some (draftTerm term)) :=
  optionalInto_object (recordInto_term term)

theorem optionalInto_target (target : Target) :
    optionalInto Target.jsonField {} none
        (.object (indexMember "local" target.localVar ++ textMember "external" target.slot)) =
      some (some target) := by
  obtain ⟨localVar, slot⟩ := target
  have locals : Reads Target.jsonField (indexMember "local" localVar) {} { localVar } :=
    .index (fun localVar => ({ localVar } : Target)) fun _ => by simp [Target.jsonField, optionalIntOf_ofInt]
  have slots : Reads Target.jsonField (textMember "external" slot) { localVar } { localVar, slot } :=
    .text (fun slot => ({ localVar, slot } : Target)) fun _ => by simp [Target.jsonField, textOf]
  exact optionalInto_object (locals.append slots).recordInto_object

/-- How a member of a condition is read. -/
def conditionField (key : String) (value : Json) (condition : Draft.Condition) : Option Draft.Condition :=
  if key = "group" then (Draft.conditionsInto value condition.group).map fun group => { condition with group }
  else Draft.Condition.jsonField key value condition

theorem conditionMembers_eq_foldlM (members : List (String × Json)) (condition : Draft.Condition) :
    Draft.conditionMembers members condition =
      members.foldlM (fun record (key, value) => conditionField (foldKey key) value record) condition := by
  induction members generalizing condition with
  | nil => simp [Draft.conditionMembers]
  | cons member members ih =>
    obtain ⟨key, value⟩ := member
    simp only [Draft.conditionMembers, List.foldlM_cons, conditionField, ih]
    split
    next => cases Draft.conditionsInto value condition.group <;> rfl
    next => rfl

/-- How a member of a node is read. -/
def nodeField (key : String) (value : Json) (node : Draft.Node) : Option Draft.Node :=
  if key = "then" then (Draft.nodesInto value node.body).map fun body => { node with body }
  else if key = "elseif" then (Draft.armsInto value node.elseIf).map fun elseIf => { node with elseIf }
  else if key = "else" then (Draft.nodesInto value node.otherwise).map fun otherwise => { node with otherwise }
  else Draft.Node.jsonField key value node

theorem nodeMembers_eq_foldlM (members : List (String × Json)) (node : Draft.Node) :
    Draft.nodeMembers members node =
      members.foldlM (fun record (key, value) => nodeField (foldKey key) value record) node := by
  induction members generalizing node with
  | nil => simp [Draft.nodeMembers]
  | cons member members ih =>
    obtain ⟨key, value⟩ := member
    simp only [Draft.nodeMembers, List.foldlM_cons, nodeField, ih]
    split
    next => cases Draft.nodesInto value node.body <;> rfl
    next =>
      split
      next => cases Draft.armsInto value node.elseIf <;> rfl
      next =>
        split
        next => cases Draft.nodesInto value node.otherwise <;> rfl
        next => rfl

/-- How a member of an arm is read. -/
def armField (key : String) (value : Json) (arm : Draft.Arm Draft.Node) : Option (Draft.Arm Draft.Node) :=
  if key = "conditions" then
    (Draft.conditionsInto value arm.conditions).map fun conditions => { arm with conditions }
  else if key = "then" then (Draft.nodesInto value arm.body).map fun body => { arm with body }
  else some arm

theorem armMembers_eq_foldlM (members : List (String × Json)) (arm : Draft.Arm Draft.Node) :
    Draft.armMembers members arm =
      members.foldlM (fun record (key, value) => armField (foldKey key) value record) arm := by
  induction members generalizing arm with
  | nil => simp [Draft.armMembers]
  | cons member members ih =>
    obtain ⟨key, value⟩ := member
    simp only [Draft.armMembers, List.foldlM_cons, armField, ih]
    split
    next => cases Draft.conditionsInto value arm.conditions <;> rfl
    next =>
      split
      next => cases Draft.nodesInto value arm.body <;> rfl
      next => rfl

theorem conditionsInto_array {items : List Json} {drafts : List Draft.Condition}
    (read : Draft.conditionItemsInto items [] = some drafts) :
    Draft.conditionsInto (.array items) {} = some { items := drafts } := by
  simp [Draft.conditionsInto, Slots.all, read, Slots.refill_empty]

theorem nodesInto_array {items : List Json} {drafts : List Draft.Node}
    (read : Draft.nodeItemsInto items [] = some drafts) :
    Draft.nodesInto (.array items) {} = some { items := drafts } := by
  simp [Draft.nodesInto, Slots.all, read, Slots.refill_empty]

theorem armsInto_array {items : List Json} {drafts : List (Draft.Arm Draft.Node)}
    (read : Draft.armItemsInto items [] = some drafts) :
    Draft.armsInto (.array items) {} = some { items := drafts } := by
  simp [Draft.armsInto, Slots.all, read, Slots.refill_empty]

mutual

theorem conditionInto_json : ∀ condition : Condition, ∃ draft,
    Draft.conditionInto (conditionJson condition) {} = some draft ∧ draft.document = condition
  | ⟨kind, term1, term2, compare, negate, group⟩ => by
    obtain ⟨drafts, readGroup, sameGroup⟩ := conditionItemsInto_json group
    let group' : Slots Draft.Condition := { items := drafts }
    let first := term1.map draftTerm
    let second := term2.map draftTerm
    have kinds : Reads conditionField [("kind", .string kind)] {} { kind } :=
      .single (by simp [conditionField, Draft.Condition.jsonField, textOf])
    have firsts : Reads conditionField (Term.optionalMember "term1" term1) { kind } { kind, term1 := first } := by
      cases term1 with
      | none => rfl
      | some term => exact .single (by simp [conditionField, Draft.Condition.jsonField, optionalInto_term, first])
    have seconds : Reads conditionField (Term.optionalMember "term2" term2) { kind, term1 := first }
        { kind, term1 := first, term2 := second } := by
      cases term2 with
      | none => rfl
      | some term => exact .single (by simp [conditionField, Draft.Condition.jsonField, optionalInto_term, second])
    have compares : Reads conditionField (textMember "compare" compare) { kind, term1 := first, term2 := second }
        { kind, term1 := first, term2 := second, compare } :=
      .text (fun compare => ({ kind, term1 := first, term2 := second, compare } : Draft.Condition)) fun _ => by
        simp [conditionField, Draft.Condition.jsonField, textOf]
    have negations : Reads conditionField (boolMember "negate" negate)
        { kind, term1 := first, term2 := second, compare }
        { kind, term1 := first, term2 := second, compare, negate } :=
      .bool (fun negate => ({ kind, term1 := first, term2 := second, compare, negate } : Draft.Condition))
        fun _ => by simp [conditionField, Draft.Condition.jsonField, boolOf]
    have groups : Reads conditionField (listMember "group" (conditionsJson group))
        { kind, term1 := first, term2 := second, compare, negate }
        { kind, term1 := first, term2 := second, compare, negate, group := group' } :=
      .list (fun group => ({ kind, term1 := first, term2 := second, compare, negate, group } : Draft.Condition))
        (by simp [conditionField, conditionsInto_array readGroup, group'])
        fun empty => by
          simp only [empty, Draft.conditionItemsInto, Option.some.injEq] at readGroup
          simp [group', ← readGroup]
    refine ⟨{ kind, term1 := first, term2 := second, compare, negate, group := group' }, ?_, ?_⟩
    · rw [conditionJson, Draft.conditionInto, conditionMembers_eq_foldlM]
      exact ((((kinds.append firsts).append seconds).append compares).append negations).append groups
    · simp [Draft.Condition.document, Draft.conditionSlots, first, second, group', sameGroup]

theorem conditionItemsInto_json : ∀ conditions : List Condition, ∃ drafts,
    Draft.conditionItemsInto (conditionsJson conditions) [] = some drafts ∧
      Draft.conditionItems drafts = conditions
  | [] => ⟨[], by simp [conditionsJson, Draft.conditionItemsInto], by simp [Draft.conditionItems]⟩
  | condition :: conditions => by
    obtain ⟨draft, readFirst, sameFirst⟩ := conditionInto_json condition
    obtain ⟨drafts, readRest, sameRest⟩ := conditionItemsInto_json conditions
    refine ⟨draft :: drafts, ?_, ?_⟩
    · simp [conditionsJson, Draft.conditionItemsInto, readFirst, readRest]
    · simp [Draft.conditionItems, sameFirst, sameRest]

end

mutual

theorem nodeInto_json : ∀ node : Node, ∃ draft,
    Draft.nodeInto (nodeJson node) {} = some draft ∧ draft.document = node
  | ⟨kind, target, terms, conditions, body, elseIf, otherwise⟩ => by
    obtain ⟨conditionDrafts, readConditions, sameConditions⟩ := conditionItemsInto_json conditions
    obtain ⟨bodyDrafts, readBody, sameBody⟩ := nodeItemsInto_json body
    obtain ⟨armDrafts, readArms, sameArms⟩ := armItemsInto_json elseIf
    obtain ⟨otherDrafts, readOthers, sameOthers⟩ := nodeItemsInto_json otherwise
    let terms' : Slots Draft.Term := { items := terms.map draftTerm }
    let conditions' : Slots Draft.Condition := { items := conditionDrafts }
    let body' : Slots Draft.Node := { items := bodyDrafts }
    let elseIf' : Slots (Draft.Arm Draft.Node) := { items := armDrafts }
    let otherwise' : Slots Draft.Node := { items := otherDrafts }
    let opening : Draft.Node := { kind, target, terms := terms' }
    have kinds : Reads nodeField [("kind", .string kind)] {} { kind } :=
      .single (by simp [nodeField, Draft.Node.jsonField, textOf])
    have targets : Reads nodeField (Target.member target) { kind } { kind, target } := by
      cases target with
      | none => rfl
      | some target => exact .single (by simp [nodeField, Draft.Node.jsonField, optionalInto_target])
    have termLists : Reads nodeField (listMember "terms" (terms.map Term.json)) { kind, target } opening :=
      .list (fun terms => ({ kind, target, terms } : Draft.Node))
        (by simp [nodeField, Draft.Node.jsonField, slotsInto_map recordInto_term, terms'])
        fun empty => by simp [terms', List.map_eq_nil_iff.mp empty]
    have conditionLists : Reads nodeField (listMember "conditions" (conditionsJson conditions)) opening
        { opening with conditions := conditions' } :=
      .list (fun conditions => { opening with conditions })
        (by simp [nodeField, Draft.Node.jsonField, opening, conditionsInto_array readConditions, conditions'])
        fun empty => by
          simp only [empty, Draft.conditionItemsInto, Option.some.injEq] at readConditions
          simp [conditions', ← readConditions]
    have bodies : Reads nodeField (listMember "then" (nodesJson body)) { opening with conditions := conditions' }
        { opening with conditions := conditions', body := body' } :=
      .list (fun body => { opening with conditions := conditions', body })
        (by simp [nodeField, nodesInto_array readBody, body'])
        fun empty => by
          simp only [empty, Draft.nodeItemsInto, Option.some.injEq] at readBody
          simp [body', ← readBody]
    have armLists : Reads nodeField (listMember "elseif" (armsJson elseIf))
        { opening with conditions := conditions', body := body' }
        { opening with conditions := conditions', body := body', elseIf := elseIf' } :=
      .list (fun elseIf => { opening with conditions := conditions', body := body', elseIf })
        (by simp [nodeField, armsInto_array readArms, elseIf'])
        fun empty => by
          simp only [empty, Draft.armItemsInto, Option.some.injEq] at readArms
          simp [elseIf', ← readArms]
    have others : Reads nodeField (listMember "else" (nodesJson otherwise))
        { opening with conditions := conditions', body := body', elseIf := elseIf' }
        { opening with conditions := conditions', body := body', elseIf := elseIf', otherwise := otherwise' } :=
      .list (fun otherwise =>
          { opening with conditions := conditions', body := body', elseIf := elseIf', otherwise })
        (by simp [nodeField, nodesInto_array readOthers, otherwise'])
        fun empty => by
          simp only [empty, Draft.nodeItemsInto, Option.some.injEq] at readOthers
          simp [otherwise', ← readOthers]
    refine ⟨{ opening with
      conditions := conditions', body := body', elseIf := elseIf', otherwise := otherwise' }, ?_, ?_⟩
    · rw [nodeJson, Draft.nodeInto, nodeMembers_eq_foldlM]
      exact (((((kinds.append targets).append termLists).append conditionLists).append bodies).append
        armLists).append others
    · simp [Draft.Node.document, Draft.conditionSlots, Draft.nodeSlots, Draft.armSlots, opening, terms',
        conditions', body', elseIf', otherwise', sameConditions, sameBody, sameArms, sameOthers]

theorem nodeItemsInto_json : ∀ nodes : List Node, ∃ drafts,
    Draft.nodeItemsInto (nodesJson nodes) [] = some drafts ∧ Draft.nodeItems drafts = nodes
  | [] => ⟨[], by simp [nodesJson, Draft.nodeItemsInto], by simp [Draft.nodeItems]⟩
  | node :: nodes => by
    obtain ⟨draft, readFirst, sameFirst⟩ := nodeInto_json node
    obtain ⟨drafts, readRest, sameRest⟩ := nodeItemsInto_json nodes
    refine ⟨draft :: drafts, ?_, ?_⟩
    · simp [nodesJson, Draft.nodeItemsInto, readFirst, readRest]
    · simp [Draft.nodeItems, sameFirst, sameRest]

theorem armItemsInto_json : ∀ arms : List (Arm Node), ∃ drafts,
    Draft.armItemsInto (armsJson arms) [] = some drafts ∧ Draft.armItems drafts = arms
  | [] => ⟨[], by simp [armsJson, Draft.armItemsInto], by simp [Draft.armItems]⟩
  | ⟨conditions, body⟩ :: arms => by
    obtain ⟨conditionDrafts, readConditions, sameConditions⟩ := conditionItemsInto_json conditions
    obtain ⟨bodyDrafts, readBody, sameBody⟩ := nodeItemsInto_json body
    obtain ⟨drafts, readRest, sameRest⟩ := armItemsInto_json arms
    let conditions' : Slots Draft.Condition := { items := conditionDrafts }
    let body' : Slots Draft.Node := { items := bodyDrafts }
    have conditionLists : Reads armField [("conditions", .array (conditionsJson conditions))] {}
        { conditions := conditions' } :=
      .single (by simp [armField, conditionsInto_array readConditions, conditions'])
    have bodies : Reads armField (listMember "then" (nodesJson body)) { conditions := conditions' }
        { conditions := conditions', body := body' } :=
      .list (fun body => ({ conditions := conditions', body } : Draft.Arm Draft.Node))
        (by simp [armField, nodesInto_array readBody, body'])
        fun empty => by
          simp only [empty, Draft.nodeItemsInto, Option.some.injEq] at readBody
          simp [body', ← readBody]
    have readFirst := conditionLists.append bodies
    rw [Reads, ← armMembers_eq_foldlM] at readFirst
    refine ⟨{ conditions := conditions', body := body' } :: drafts, ?_, ?_⟩
    · simp only [List.cons_append, List.nil_append] at readFirst
      simp [armsJson, Draft.armItemsInto, Draft.armInto, readFirst, readRest]
    · simp [Draft.armItems, Draft.armDocument, Draft.conditionSlots, Draft.nodeSlots, conditions', body',
        sameConditions, sameBody, sameRest]

end

/-- A document without statements is read as one with an empty list of them, and the name is read as a text. -/
def Script.filled (document : Script) : Script :=
  { document with name := document.name.repaired, statements := some (document.statements.getD []) }

theorem nodesInto_statements (statements : Option (List Node)) : ∃ drafts,
    Draft.nodesInto (Script.statementsJson statements) {} = some { items := drafts } ∧
      Draft.nodeItems drafts = statements.getD [] := by
  cases statements with
  | none => exact ⟨[], by simp [Script.statementsJson, Draft.nodesInto], by simp [Draft.nodeItems]⟩
  | some statements =>
    obtain ⟨drafts, read, same⟩ := nodeItemsInto_json statements
    exact ⟨drafts, nodesInto_array read, same⟩

theorem recordInto_script (document : Script) : ∃ draft,
    recordInto Draft.Script.jsonField document.json {} = some draft ∧ draft.document = document.filled := by
  obtain ⟨name, localCount, statements⟩ := document
  obtain ⟨drafts, read, same⟩ := nodesInto_statements statements
  have names : Reads Draft.Script.jsonField [("name", .string name.text)] {} { name := name.text } :=
    .single (by simp [Draft.Script.jsonField, textOf])
  have locals : Reads Draft.Script.jsonField (intMember "locals" localCount) { name := name.text }
      { name := name.text, localCount } :=
    .int (fun localCount => ({ name := name.text, localCount } : Draft.Script)) fun _ => by
      simp [Draft.Script.jsonField, intOf_ofInt]
  refine ⟨{ name := name.text, localCount, statements := { items := drafts } }, ?_, ?_⟩
  · refine (names.append (locals.append (.single ?_))).recordInto_object
    simp [Draft.Script.jsonField, read]
  · simp [Draft.Script.document, Draft.nodeSlots, same, Script.filled, Name.repaired]

section Whole

@[simp] theorem wholeMembers_append (first second : List (String × Json)) :
    WholeMembers (first ++ second) ↔ WholeMembers first ∧ WholeMembers second := by
  induction first with
  | nil => simp [WholeMembers]
  | cons member first ih => simp [WholeMembers, ih, and_assoc]

theorem wholeMembers_member {key : String} {given : Bool} {value : Json} (whole : value.Whole) :
    WholeMembers (member key given value) := by
  cases given <;> simp [member, WholeMembers, whole]

theorem whole_ofInt (value : Int64) : (Json.ofInt value).Whole := ⟨value, rfl⟩

@[simp] theorem wholeMembers_text (key text : String) : WholeMembers (textMember key text) :=
  wholeMembers_member trivial

@[simp] theorem wholeMembers_bool (key : String) (value : Bool) : WholeMembers (boolMember key value) :=
  wholeMembers_member trivial

@[simp] theorem wholeMembers_int (key : String) (value : Int64) : WholeMembers (intMember key value) :=
  wholeMembers_member (whole_ofInt value)

@[simp] theorem wholeMembers_index (key : String) (value : Option Int64) : WholeMembers (indexMember key value) := by
  cases value <;> simp [indexMember, WholeMembers, whole_ofInt]

theorem wholeMembers_list {key : String} {items : List Json} (whole : WholeItems items) :
    WholeMembers (listMember key items) :=
  wholeMembers_member whole

theorem wholeItems_map {α : Type} {json : α → Json} (whole : ∀ item, (json item).Whole) (items : List α) :
    WholeItems (items.map json) := by
  induction items with
  | nil => trivial
  | cons item items ih => exact ⟨whole item, ih⟩

theorem Param.whole_json (param : Param) : param.json.Whole := by
  simp [Param.json, Whole]

theorem Term.whole_json (term : Term) : term.json.Whole := by
  simp [Term.json, Whole, wholeMembers_list (wholeItems_map Param.whole_json term.params)]

@[simp] theorem Term.wholeMembers_optional (key : String) (term : Option Term) :
    WholeMembers (Term.optionalMember key term) := by
  cases term <;> simp [Term.optionalMember, WholeMembers, Term.whole_json]

@[simp] theorem Target.wholeMembers_target (target : Option Target) : WholeMembers (Target.member target) := by
  cases target <;> simp [Target.member, WholeMembers, Whole]

mutual

theorem whole_conditionJson : ∀ condition, (conditionJson condition).Whole
  | ⟨kind, term1, term2, compare, negate, group⟩ => by
    simp [conditionJson, Whole, WholeMembers, wholeMembers_list (whole_conditionsJson group)]

theorem whole_conditionsJson : ∀ conditions, WholeItems (conditionsJson conditions)
  | [] => trivial
  | condition :: conditions => ⟨whole_conditionJson condition, whole_conditionsJson conditions⟩

end

mutual

theorem whole_nodeJson : ∀ node, (nodeJson node).Whole
  | ⟨kind, target, terms, conditions, body, elseIf, otherwise⟩ => by
    simp [nodeJson, Whole, WholeMembers, wholeMembers_list (wholeItems_map Term.whole_json terms),
      wholeMembers_list (whole_conditionsJson conditions), wholeMembers_list (whole_nodesJson body),
      wholeMembers_list (whole_armsJson elseIf), wholeMembers_list (whole_nodesJson otherwise)]

theorem whole_nodesJson : ∀ nodes, WholeItems (nodesJson nodes)
  | [] => trivial
  | node :: nodes => ⟨whole_nodeJson node, whole_nodesJson nodes⟩

theorem whole_armsJson : ∀ arms, WholeItems (armsJson arms)
  | [] => trivial
  | ⟨conditions, body⟩ :: arms => by
    simp [armsJson, Whole, WholeItems, WholeMembers, whole_conditionsJson conditions,
      wholeMembers_list (whole_nodesJson body), whole_armsJson arms]

end

theorem Script.whole_json (document : Script) : document.json.Whole := by
  obtain ⟨name, localCount, statements⟩ := document
  cases statements with
  | none => simp [Script.json, Script.members, Script.statementsJson, Whole, WholeMembers]
  | some statements => simp [Script.json, Script.members, Script.statementsJson, Whole, WholeMembers, whole_nodesJson]

end Whole

section Named

open Json

/-- Of the first member nothing counts but what is read of its string. -/
private theorem readValue_named {body other : List Char} (same : readString body = readString other) (fuel depth : Nat) :
    readValue fuel depth ('\x7b' :: renderString "name" ++ ':' :: '"' :: body) =
      readValue fuel depth ('\x7b' :: renderString "name" ++ ':' :: '"' :: other) := by
  have first (fuel depth : Nat) : readValue fuel depth ('"' :: body) = readValue fuel depth ('"' :: other) := by
    cases fuel with
    | zero => rfl
    | succ fuel => simp [readValue, skipBlank, isBlank, same]
  obtain ⟨key, shape, named⟩ := readString_renderString "name" (':' :: '"' :: body)
  obtain ⟨key', shape', named'⟩ := readString_renderString "name" (':' :: '"' :: other)
  rw [List.cons_append, List.cons_append, shape, shape']
  cases fuel with
  | zero => rfl
  | succ fuel =>
    cases depth with
    | zero => simp [readValue, skipBlank, isBlank]
    | succ depth =>
      rw [readValue_object, readValue_object]
      cases fuel with
      | zero => rfl
      | succ fuel => simp [readMembers, skipBlank, isBlank, named, named', first]

theorem length_renderName (name : Name) : (renderString name.text).length ≤ (renderName name).length := by
  have shown : name.text.toList = name.pieces.map pieceChar := Text.toList_ofBytes _
  have pieces (pieces : List (Except UInt8 Char)) :
      ((pieces.map pieceChar).flatMap escapedChar).length ≤ (pieces.flatMap escapedPiece).length := by
    induction pieces with
    | nil => simp
    | cons piece pieces ih =>
      have here : (escapedChar (pieceChar piece)).length ≤ (escapedPiece piece).length := by
        cases piece with
        | ok c => exact Nat.le_refl _
        | error byte =>
          have short : (escapedChar Text.replacement).length ≤ 6 := by decide
          exact short
      simp only [List.map_cons, List.flatMap_cons, List.length_append]
      omega
  simpa [renderString, renderName, shown] using pieces name.pieces

end Named

theorem Script.render_json (document : Script) :
    document.json.render = '\x7b' :: Json.renderString "name" ++ ':' ::
      (Json.renderString document.name.text ++ ',' :: Json.renderMembers document.members) := by
  have some : document.members ≠ [] := by simp [Script.members]
  obtain ⟨⟨key, value⟩, rest, members⟩ := List.exists_cons_of_ne_nil some
  simp [Script.json, members, Json.render, Json.renderMembers]

theorem Script.text_of_legible {document : Script} (legible : document.name.Legible) :
    document.text = document.json.text := by
  obtain ⟨text, named⟩ := legible
  rw [Json.text, document.render_json, Script.text, named, Name.text_ofText, Json.renderName_ofText]
  simp

/-- However the name is written, it is read as its text. -/
theorem Script.parse_text (document : Script) :
    Json.parse document.text = if document.json.depth ≤ Json.maxDepth then some document.json else none := by
  have render := document.render_json
  have written : document.text.toList = '\x7b' :: Json.renderString "name" ++ ':' ::
      (Json.renderName document.name ++ ',' :: Json.renderMembers document.members) := by
    simp [Script.text]
  have enough : document.json.render.length ≤ document.text.toList.length := by
    have name := length_renderName document.name
    rw [render, written]
    simp only [List.length_append, List.length_cons]
    omega
  obtain ⟨body, shape, read⟩ := Json.readString_renderName document.name (',' :: Json.renderMembers document.members)
  obtain ⟨other, shape', read'⟩ :=
    Json.readString_renderString document.name.text (',' :: Json.renderMembers document.members)
  rw [shape] at written
  rw [shape'] at render
  have same := readValue_named (read.trans read'.symm)
  rw [Json.parse, written, same, ← render, ← String.length_toList,
    Json.readValue_written document.whole_json (by omega)]
  by_cases shallow : document.json.depth ≤ Json.maxDepth <;> simp [shallow, Json.skipBlank]

/-- A document is read back from the text that it is stored under. -/
theorem Script.ofStored_text {document : Script} (shallow : document.json.depth ≤ Json.maxDepth) :
    Script.ofStored document.text = some document.filled := by
  obtain ⟨draft, read, same⟩ := recordInto_script document
  simp [Script.ofStored, document.parse_text, shallow, read, same]

/-- Nothing else is read from it. -/
theorem Script.eq_of_ofStored_text {document read : Script} (stored : Script.ofStored document.text = some read) :
    read = document.filled := by
  obtain ⟨draft, filled, same⟩ := recordInto_script document
  simp only [Script.ofStored, Option.bind_eq_bind, Option.bind_eq_some_iff, Option.pure_def, Option.some.injEq] at stored
  obtain ⟨value, parsed, other, found, rfl⟩ := stored
  rw [document.parse_text, Option.ite_none_right_eq_some, Option.some.injEq] at parsed
  rw [← parsed.2] at found
  cases filled.symm.trans found
  exact same

end Lineside.Document
