import Lineside.Document.OfYaml
import Lineside.Proofs.DocumentText
import Lineside.Proofs.YamlReading

/-! Documents read from the nodes of their JSON values. The keys of a record are written once each and in the letter
case in which they are looked up, so the members are read one after the other, as from JSON. -/

namespace Lineside

namespace Yaml

section Numbers

private def isNumeric (c : Char) : Bool := Json.isDigit c || c == '-'

private theorem toDigits_numeric (n : Nat) : ∀ c ∈ Nat.toDigits 10 n, isNumeric c = true := by
  intro c member
  simp [isNumeric, Json.toDigits_isDigit c member]

private theorem repr_numeric (value : Int) : ∀ c ∈ value.repr.toList, isNumeric c = true := by
  rw [Int.repr_eq_if]
  split
  · rw [Nat.toList_repr]
    exact toDigits_numeric _
  · rw [Json.toList_minus]
    exact List.forall_mem_cons.mpr ⟨rfl, toDigits_numeric _⟩

/-- The words that stand for something else than a number. -/
private def words : List String :=
  ["", "~", "null", "Null", "NULL", "true", "True", "TRUE", "false", "False", "FALSE",
    ".inf", ".Inf", ".INF", "+.inf", "+.Inf", "+.INF", "-.inf", "-.Inf", "-.INF", ".nan", ".NaN", ".NAN"]

private theorem words_apart : ∀ word ∈ words, word = "" ∨ word.toList.all isNumeric = false := by
  decide

private theorem repr_notMem_words (value : Int) : value.repr ∉ words := by
  intro member
  rcases words_apart _ member with empty | other
  · exact (isWord_repr value).present (by rw [empty]; rfl)
  · rw [List.all_eq_true.mpr (repr_numeric value)] at other
    cases other

private theorem word?_repr (value : Int) : word? value.repr = none := by
  have apart := repr_notMem_words value
  simp only [words, List.mem_cons, List.not_mem_nil, or_false, not_or] at apart
  simp [word?, isNull, apart]

private theorem basedNatural?_toDigits (n : Nat) : Decimal.basedNatural? (Nat.toDigits 10 n) = some n := by
  by_cases zero : n = 0
  · subst zero
    rfl
  · have value := Document.natural?_toDigits n
    obtain ⟨c, digits, shape, nonzero⟩ := Json.toDigits_head (Nat.pos_of_ne_zero zero)
    rw [Decimal.natural?, if_neg Nat.toDigits_ne_nil] at value
    have base : Decimal.splitBase (Nat.toDigits 10 n) = (10, Nat.toDigits 10 n) := by
      rw [shape]
      unfold Decimal.splitBase
      split
      next same => exact absurd (List.cons.inj same).1 nonzero
      next same => exact absurd (List.cons.inj same).1 nonzero
      next => rfl
    rw [Decimal.basedNatural?, if_neg Nat.toDigits_ne_nil, base]
    exact value

private theorem hasSign_toDigits (n : Nat) : hasSign (Nat.toDigits 10 n) = false := by
  obtain ⟨c, digits, shape, digit⟩ := Json.toDigits_cons n
  rw [shape]
  unfold hasSign
  split
  next same => cases (List.cons.inj same).1; cases digit
  next same => cases (List.cons.inj same).1; cases digit
  next => rfl

private theorem whole?_repr (value : Int64) : whole? value.toInt.repr.toList = some value.toInt := by
  have lower := value.le_toInt
  have upper := value.toInt_lt
  rw [Int.repr_eq_if]
  split
  next positive =>
    have small : value.toInt.toNat < 2 * Integer.half := by
      simp only [Integer.half]
      omega
    simp only [whole?, Nat.toList_repr, Document.sign_toDigits, hasSign_toDigits, basedNatural?_toDigits,
      Option.bind_eq_bind, Option.bind_some, ranged, Bool.false_eq_true, if_false, if_pos small,
      Int.toNat_of_nonneg positive]
  next negative =>
    have small : (-value.toInt).toNat ≤ Integer.half := by
      simp only [Integer.half]
      omega
    have back : -((-value.toInt).toNat : Int) = value.toInt := by omega
    simp only [whole?, Json.toList_minus, Decimal.sign, hasSign, basedNatural?_toDigits, Option.bind_eq_bind, Option.bind_some,
      ranged, if_true, if_pos small, back]

/-- The text of an integer stands for that integer. -/
theorem ofPlain_repr (value : Int64) : Scalar.ofPlain value.toInt.repr = .int value.toInt := by
  obtain ⟨c, cs, shape, numeric⟩ := Json.repr_head value.toInt
  have plain : value.toInt.repr.toList.filter (· != '_') = value.toInt.repr.toList := by
    rw [List.filter_eq_self]
    intro c member
    have numeric := repr_numeric value.toInt c member
    rw [bne_iff_ne]
    rintro rfl
    cases numeric
  have starts : c = '+' ∨ c = '-' ∨ Decimal.isDigit c = true := .inr numeric
  have number : number? (c :: cs) = some (.int value.toInt) := by
    rw [← shape, number?, plain, whole?_repr]
  simp [Scalar.ofPlain, word?_repr, shape, starts, number]

end Numbers

section Fields

variable {α : Type} {field : String → Yaml → α → Option α} {members : List (String × Json)} {before after : α}

theorem ofMembers_eq_map (members : List (String × Json)) :
    ofMembers members = members.map fun (key, value) => (.scalar false key, ofJson value) := by
  induction members with
  | nil => rfl
  | cons member members ih => rw [ofMembers, ih, List.map_cons]

theorem ofItems_eq_map (items : List Json) : ofItems items = items.map ofJson := by
  induction items with
  | nil => rfl
  | cons item items ih => rw [ofItems, ih, List.map_cons]

theorem foldFields_ofMembers (members : List (String × Json)) (record : α) :
    foldFields field (ofMembers members) record =
      members.foldlM (fun record (key, value) => field key (ofJson value) record) record := by
  induction members generalizing record with
  | nil => simp [ofMembers, foldFields]
  | cons member members ih =>
    obtain ⟨key, value⟩ := member
    simp only [ofMembers, foldFields, Bool.false_and, Bool.false_eq_true, if_false, List.foldlM_cons]
    cases field key (ofJson value) record with
    | none => rfl
    | some next => exact ih next

theorem keysDiffer_ofMembers (distinct : (members.map Prod.fst).Nodup) : keysDiffer (ofMembers members) = true := by
  induction members with
  | nil => rfl
  | cons member members ih =>
    rw [List.map_cons, List.nodup_cons] at distinct
    have fresh : ∀ other ∈ members, other.1 ≠ member.1 := by
      intro other inside same
      exact distinct.1 (same ▸ List.mem_map_of_mem inside)
    rw [ofMembers, keysDiffer, ih distinct.2, Bool.and_true, ofMembers_eq_map]
    simpa [keyText] using fresh

end Fields

section Conversions

@[simp] theorem toName_string (current : Name) (text : String) :
    toName current (ofJson (.string text)) = some (text : Name) := by
  simp [ofJson, toName]

@[simp] theorem toText_string (current text : String) : toText current (ofJson (.string text)) = some text := by
  simp [ofJson, toText]

@[simp] theorem toBool_bool (current value : Bool) : toBool current (ofJson (.bool value)) = some value := by
  cases value
  · rfl
  · rfl

@[simp] theorem toInt_ofInt (current value : Int64) : toInt current (ofJson (.ofInt value)) = some value := by
  simp [Json.ofInt, ofJson, toInt, ofPlain_repr, Document.ofInt?_toInt]

@[simp] theorem toOptionalInt_ofInt (value : Int64) : toOptionalInt (ofJson (.ofInt value)) = some (some value) := by
  have given : (ofJson (.ofInt value)).isNullNode = false := by
    have apart := repr_notMem_words value.toInt
    simp only [words, List.mem_cons, List.not_mem_nil, or_false, not_or] at apart
    simp [Json.ofInt, ofJson, isNullNode, isNull, apart]
  simp [toOptionalInt, given]

theorem toList_map {α : Type} {convert : Yaml → Option α} {members : α → List (String × Json)}
    (read : ∀ item, convert (ofJson (.object (members item))) = some item) (items : List α) :
    toList convert (ofJson (.array (items.map fun item => .object (members item)))) = some items := by
  have every : (items.map fun item => ofJson (.object (members item))).mapM convert = some items := by
    induction items with
    | nil => rfl
    | cons item items ih => simp [read, ih]
  have given : ∀ item ∈ items.map fun item => ofJson (.object (members item)), (!item.isNullNode) = true := by
    intro node member
    obtain ⟨item, _, rfl⟩ := List.mem_map.mp member
    rfl
  have nodes : ofItems (items.map fun item => .object (members item)) =
      items.map fun item => ofJson (.object (members item)) := by
    rw [ofItems_eq_map, List.map_map]
    rfl
  rw [toList, ofJson, toItems, nodes, List.filter_eq_self.mpr given]
  exact every

end Conversions

end Yaml

namespace Document

open Yaml (ofJson)

/-- Reading members, with keys among the given names, into a record leads to another one. -/
structure Fills {α : Type} (field : String → Yaml → α → Option α) (names : List String) (members : List (String × Json))
    (before after : α) : Prop where
  reads : Reads (fun key value => field key (ofJson value)) members before after
  names : (members.map Prod.fst).Sublist names

namespace Fills

variable {α : Type} {field : String → Yaml → α → Option α} {before middle after : α}

theorem append {one two : List String} {first second : List (String × Json)}
    (left : Fills field one first before middle)
    (right : Fills field two second middle after) : Fills field (one ++ two) (first ++ second) before after := by
  refine ⟨left.reads.append right.reads, ?_⟩
  rw [List.map_append]
  exact left.names.append right.names

theorem single (key : String) {value : Json} (read : field key (ofJson value) before = some after)
    (known : key ∈ keys := by decide) : Fills field [key] [(key, value)] before after :=
  ⟨.single read known, by simp⟩

private theorem names_member (key : String) (given : Bool) (value : Json) :
    ((member key given value).map Prod.fst).Sublist [key] := by
  cases given <;> simp [member]

theorem text (key : String) (set : String → α)
    (read : ∀ text, field key (ofJson (.string text)) (set "") = some (set text))
    {text : String} (known : key ∈ keys := by decide) : Fills field [key] (textMember key text) (set "") (set text) :=
  ⟨.text set read known, names_member ..⟩

theorem bool (key : String) (set : Bool → α)
    (read : ∀ value, field key (ofJson (.bool value)) (set false) = some (set value)) {value : Bool}
    (known : key ∈ keys := by decide) : Fills field [key] (boolMember key value) (set false) (set value) :=
  ⟨.bool set read known, names_member ..⟩

theorem int (key : String) (set : Int64 → α)
    (read : ∀ value, field key (ofJson (.ofInt value)) (set 0) = some (set value))
    {value : Int64} (known : key ∈ keys := by decide) : Fills field [key] (intMember key value) (set 0) (set value) :=
  ⟨.int set read known, names_member ..⟩

theorem index (key : String) (set : Option Int64 → α)
    (read : ∀ value, field key (ofJson (.ofInt value)) (set none) = some (set (some value))) {value : Option Int64}
    (known : key ∈ keys := by decide) : Fills field [key] (indexMember key value) (set none) (set value) :=
  ⟨.index set read known, by cases value <;> simp [indexMember]⟩

theorem list (key : String) (items : List Json) {β : Type} (set : List β → α) {values : List β}
    (read : field key (ofJson (.array items)) (set []) = some (set values)) (left : items = [] → values = [])
    (known : key ∈ keys := by decide) : Fills field [key] (listMember key items) (set []) (set values) :=
  ⟨.member (fun _ => read) (fun empty => by rw [left (by simpa using empty)]) known, names_member ..⟩

private theorem foldlM_foldKey {members : List (String × Json)} (known : ∀ name ∈ members.map Prod.fst, name ∈ keys)
    (step : String → Json → α → Option α) (record : α) :
    members.foldlM (fun record (key, value) => step (foldKey key) value record) record =
      members.foldlM (fun record (key, value) => step key value record) record := by
  induction members generalizing record with
  | nil => rfl
  | cons member members ih =>
    obtain ⟨key, value⟩ := member
    obtain ⟨first, others⟩ := List.forall_mem_cons.mp known
    simp only [List.foldlM_cons, foldKey_of_mem key first, ih others]

section Whole

variable {names : List String} {members : List (String × Json)} (fills : Fills field names members before after)
include fills

theorem keysDiffer (distinct : names.Nodup) : Yaml.keysDiffer (Yaml.ofMembers members) = true :=
  Yaml.keysDiffer_ofMembers (fills.names.nodup distinct)

theorem foldFields (known : ∀ name ∈ names, name ∈ keys) :
    Yaml.foldFields field (Yaml.ofMembers members) before = some after := by
  have same := foldlM_foldKey (fun name member => known name (fills.names.subset member))
    (fun key value => field key (ofJson value)) before
  rw [Yaml.foldFields_ofMembers]
  exact same.symm.trans fills.reads

theorem toRecord (distinct : names.Nodup) (known : ∀ name ∈ names, name ∈ keys) :
    Yaml.toRecord field before (ofJson (.object members)) = some after := by
  rw [ofJson, Yaml.toRecord, if_pos (fills.keysDiffer distinct), fills.foldFields known]

end Whole

end Fills

theorem toRecord_param (param : Param) : Yaml.toRecord Param.yamlField {} (ofJson param.json) = some param := by
  obtain ⟨constant, name, localVar, slot, minus⟩ := param
  have fills : Fills Param.yamlField _ _ {} { constant, name, localVar, slot, minus } :=
    ((((Fills.index "constant" (fun constant => ({ constant } : Param)) fun _ => by simp [Param.yamlField]).append
    (.text "name" (fun name => ({ constant, name } : Param)) fun _ => by simp [Param.yamlField])).append
    (.index "local" (fun localVar => ({ constant, name, localVar } : Param)) fun _ => by simp [Param.yamlField])).append
    (.text "external" (fun slot => ({ constant, name, localVar, slot } : Param)) fun _ => by
      simp [Param.yamlField])).append
    (.bool "minus" (fun minus => ({ constant, name, localVar, slot, minus } : Param)) fun _ => by
      simp [Param.yamlField])
  exact fills.toRecord (by decide) (by decide)

theorem toRecord_term (term : Term) : Yaml.toRecord Term.yamlField {} (ofJson term.json) = some term := by
  obtain ⟨function, params, operator, negate, minus, sublevel, sublevel2⟩ := term
  have read : Yaml.toList (Yaml.toRecord Param.yamlField {}) (ofJson (.array (params.map Param.json))) = some params :=
    Yaml.toList_map toRecord_param params
  have fills : Fills Term.yamlField _ _ {} { function, params, operator, negate, minus, sublevel, sublevel2 } :=
    ((((((Fills.text "function" (fun function => ({ function } : Term)) fun _ => by simp [Term.yamlField]).append
    (.list "params" (params.map Param.json) (fun params => ({ function, params } : Term))
      (by simp [Term.yamlField, read]) (by simp))).append
    (.text "op" (fun operator => ({ function, params, operator } : Term)) fun _ => by simp [Term.yamlField])).append
    (.bool "negate" (fun negate => ({ function, params, operator, negate } : Term)) fun _ => by
      simp [Term.yamlField])).append
    (.bool "minus" (fun minus => ({ function, params, operator, negate, minus } : Term)) fun _ => by
      simp [Term.yamlField])).append
    (.int "sublevel" (fun sublevel => ({ function, params, operator, negate, minus, sublevel } : Term)) fun _ => by
      simp [Term.yamlField])).append
    (.int "sublevel2" (fun sublevel2 => ({ function, params, operator, negate, minus, sublevel, sublevel2 } : Term))
      fun _ => by simp [Term.yamlField])
  exact fills.toRecord (by decide) (by decide)

theorem toRecord_target (target : Target) :
    Yaml.toRecord Target.yamlField {}
      (ofJson (.object (indexMember "local" target.localVar ++ textMember "external" target.slot))) = some target := by
  obtain ⟨localVar, slot⟩ := target
  have fills : Fills Target.yamlField _ _ {} { localVar, slot } :=
    (Fills.index "local" (fun localVar => ({ localVar } : Target)) fun _ => by simp [Target.yamlField]).append
    (.text "external" (fun slot => ({ localVar, slot } : Target)) fun _ => by simp [Target.yamlField])
  exact fills.toRecord (by decide) (by decide)

theorem toOptionalRecord_object {α : Type} {field : String → Yaml → α → Option α} {initial record : α}
    {members : List (String × Json)} (read : Yaml.toRecord field initial (ofJson (.object members)) = some record) :
    Yaml.toOptionalRecord field initial (ofJson (.object members)) = some (some record) := by
  have given : (ofJson (.object members)).isNullNode = false := rfl
  rw [Yaml.toOptionalRecord, given, read]
  rfl

theorem toOptionalRecord_term (term : Term) :
    Yaml.toOptionalRecord Term.yamlField {} (ofJson term.json) = some (some term) :=
  toOptionalRecord_object (toRecord_term term)

/-- How a member of a condition is read. -/
def conditionEntry (key : String) (node : Yaml) (condition : Condition) : Option Condition :=
  if key = "group" then (conditionsOfYaml node).map fun group => { condition with group }
  else Condition.yamlField key node condition

theorem conditionOfEntries_eq_foldFields (entries : List (Yaml × Yaml)) (condition : Condition) :
    conditionOfEntries entries condition = Yaml.foldFields conditionEntry entries condition := by
  induction entries generalizing condition with
  | nil => simp [conditionOfEntries, Yaml.foldFields]
  | cons entry entries ih =>
    obtain ⟨key, node⟩ := entry
    cases key with
    | scalar plain text =>
      simp only [conditionOfEntries, Yaml.foldFields, conditionEntry, ih]
      split
      · rfl
      · split
        · cases conditionsOfYaml node <;> rfl
        · rfl
    | _ => simp [conditionOfEntries, Yaml.foldFields]

/-- How a member of a node is read. -/
def nodeEntry (key : String) (value : Yaml) (node : Node) : Option Node :=
  if key = "then" then (nodesOfYaml value).map fun body => { node with body }
  else if key = "elseif" then (armsOfYaml value).map fun elseIf => { node with elseIf }
  else if key = "else" then (nodesOfYaml value).map fun otherwise => { node with otherwise }
  else Node.yamlField key value node

theorem nodeOfEntries_eq_foldFields (entries : List (Yaml × Yaml)) (node : Node) :
    nodeOfEntries entries node = Yaml.foldFields nodeEntry entries node := by
  induction entries generalizing node with
  | nil => simp [nodeOfEntries, Yaml.foldFields]
  | cons entry entries ih =>
    obtain ⟨key, value⟩ := entry
    cases key with
    | scalar plain text =>
      simp only [nodeOfEntries, Yaml.foldFields, nodeEntry, ih]
      split
      · rfl
      · split
        · cases nodesOfYaml value <;> rfl
        · split
          · cases armsOfYaml value <;> rfl
          · split
            · cases nodesOfYaml value <;> rfl
            · rfl
    | _ => simp [nodeOfEntries, Yaml.foldFields]

/-- How a member of an arm is read. -/
def armEntry (key : String) (value : Yaml) (arm : Arm Node) : Option (Arm Node) :=
  if key = "conditions" then (conditionsOfYaml value).map fun conditions => { arm with conditions }
  else if key = "then" then (nodesOfYaml value).map fun body => { arm with body }
  else some arm

theorem armOfEntries_eq_foldFields (entries : List (Yaml × Yaml)) (arm : Arm Node) :
    armOfEntries entries arm = Yaml.foldFields armEntry entries arm := by
  induction entries generalizing arm with
  | nil => simp [armOfEntries, Yaml.foldFields]
  | cons entry entries ih =>
    obtain ⟨key, value⟩ := entry
    cases key with
    | scalar plain text =>
      simp only [armOfEntries, Yaml.foldFields, armEntry, ih]
      split
      · rfl
      · split
        · cases conditionsOfYaml value <;> rfl
        · split
          · cases nodesOfYaml value <;> rfl
          · rfl
    | _ => simp [armOfEntries, Yaml.foldFields]

theorem Fills.optionalTerm {α : Type} {field : String → Yaml → α → Option α} (key : String) (set : Option Term → α)
    (read : ∀ term : Term, field key (ofJson term.json) (set none) = some (set (some term))) {term : Option Term}
    (known : key ∈ keys := by decide) : Fills field [key] (Term.optionalMember key term) (set none) (set term) := by
  cases term with
  | none => exact ⟨rfl, by simp [Term.optionalMember]⟩
  | some term => exact .single key (read term) known

mutual

theorem conditionOfYaml_json : (condition : Condition) →
    conditionOfYaml (ofJson (conditionJson condition)) = some condition
  | ⟨kind, term1, term2, compare, negate, group⟩ => by
    have read : conditionsOfYaml (ofJson (.array (conditionsJson group))) = some group := conditionsOfItems_json group
    have kinds : Fills conditionEntry ["kind"] [("kind", .string kind)] {} { kind } :=
      .single "kind" (by simp [conditionEntry, Condition.yamlField])
    have fills : Fills conditionEntry _ _ {} { kind, term1, term2, compare, negate, group } :=
      ((((kinds.append
      (.optionalTerm "term1" (fun term1 => ({ kind, term1 } : Condition)) fun _ => by
        simp [conditionEntry, Condition.yamlField, toOptionalRecord_term])).append
      (.optionalTerm "term2" (fun term2 => ({ kind, term1, term2 } : Condition)) fun _ => by
        simp [conditionEntry, Condition.yamlField, toOptionalRecord_term])).append
      (.text "compare" (fun compare => ({ kind, term1, term2, compare } : Condition)) fun _ => by
        simp [conditionEntry, Condition.yamlField])).append
      (.bool "negate" (fun negate => ({ kind, term1, term2, compare, negate } : Condition)) fun _ => by
        simp [conditionEntry, Condition.yamlField])).append
      (.list "group" (conditionsJson group) (fun group => ({ kind, term1, term2, compare, negate, group } : Condition))
        (by simp [conditionEntry, read]) (by cases group <;> simp [conditionsJson]))
    rw [conditionJson, ofJson, conditionOfYaml, conditionOfEntries_eq_foldFields]
    exact (if_pos (fills.keysDiffer (by decide))).trans (fills.foldFields (by decide))

theorem conditionsOfItems_json : (conditions : List Condition) →
    conditionsOfItems (Yaml.ofItems (conditionsJson conditions)) = some conditions
  | [] => by simp [conditionsJson, Yaml.ofItems, conditionsOfItems]
  | condition :: conditions => by
    have given : (ofJson (conditionJson condition)).isNullNode = false := by
      cases condition
      rw [conditionJson]
      rfl
    simp [conditionsJson, Yaml.ofItems, conditionsOfItems, given, conditionOfYaml_json condition,
      conditionsOfItems_json conditions]

end

mutual

theorem nodeOfYaml_json : (node : Node) → nodeOfYaml (ofJson (nodeJson node)) = some node
  | ⟨kind, target, terms, conditions, body, elseIf, otherwise⟩ => by
    have readTerms :
        Yaml.toList (Yaml.toRecord Term.yamlField {}) (ofJson (.array (terms.map Term.json))) = some terms :=
      Yaml.toList_map toRecord_term terms
    have readConditions : conditionsOfYaml (ofJson (.array (conditionsJson conditions))) = some conditions :=
      conditionsOfItems_json conditions
    have readBody : nodesOfYaml (ofJson (.array (nodesJson body))) = some body := nodesOfItems_json body
    have readArms : armsOfYaml (ofJson (.array (armsJson elseIf))) = some elseIf := armsOfItems_json elseIf
    have readOthers : nodesOfYaml (ofJson (.array (nodesJson otherwise))) = some otherwise :=
      nodesOfItems_json otherwise
    have kinds : Fills nodeEntry ["kind"] [("kind", .string kind)] {} { kind } :=
      .single "kind" (by simp [nodeEntry, Node.yamlField])
    have targets : Fills nodeEntry ["target"] (Target.member target) { kind } { kind, target } := by
      cases target with
      | none => exact ⟨rfl, by simp [Target.member]⟩
      | some target =>
        exact .single "target" (by
          simp [nodeEntry, Node.yamlField, toOptionalRecord_object (toRecord_target target)])
    have fills : Fills nodeEntry _ _ {} { kind, target, terms, conditions, body, elseIf, otherwise } :=
      (((((kinds.append targets).append
      (.list "terms" (terms.map Term.json) (fun terms => ({ kind, target, terms } : Node))
        (by simp [nodeEntry, Node.yamlField, readTerms]) (by simp))).append
      (.list "conditions" (conditionsJson conditions) (fun conditions => ({ kind, target, terms, conditions } : Node))
        (by simp [nodeEntry, Node.yamlField, readConditions]) (by cases conditions <;> simp [conditionsJson]))).append
      (.list "then" (nodesJson body) (fun body => ({ kind, target, terms, conditions, body } : Node))
        (by simp [nodeEntry, readBody]) (by cases body <;> simp [nodesJson]))).append
      (.list "elseif" (armsJson elseIf) (fun elseIf => ({ kind, target, terms, conditions, body, elseIf } : Node))
        (by simp [nodeEntry, readArms]) (by cases elseIf <;> simp [armsJson]))).append
      (.list "else" (nodesJson otherwise)
        (fun otherwise => ({ kind, target, terms, conditions, body, elseIf, otherwise } : Node))
        (by simp [nodeEntry, readOthers]) (by cases otherwise <;> simp [nodesJson]))
    rw [nodeJson, ofJson, nodeOfYaml, nodeOfEntries_eq_foldFields]
    exact (if_pos (fills.keysDiffer (by decide))).trans (fills.foldFields (by decide))

theorem nodesOfItems_json : (nodes : List Node) → nodesOfItems (Yaml.ofItems (nodesJson nodes)) = some nodes
  | [] => by simp [nodesJson, Yaml.ofItems, nodesOfItems]
  | node :: nodes => by
    have given : (ofJson (nodeJson node)).isNullNode = false := by
      cases node
      rw [nodeJson]
      rfl
    simp [nodesJson, Yaml.ofItems, nodesOfItems, given, nodeOfYaml_json node, nodesOfItems_json nodes]

theorem armsOfItems_json : (arms : List (Arm Node)) → armsOfItems (Yaml.ofItems (armsJson arms)) = some arms
  | [] => by simp [armsJson, Yaml.ofItems, armsOfItems]
  | ⟨conditions, body⟩ :: arms => by
    have readConditions : conditionsOfYaml (ofJson (.array (conditionsJson conditions))) = some conditions :=
      conditionsOfItems_json conditions
    have readBody : nodesOfYaml (ofJson (.array (nodesJson body))) = some body := nodesOfItems_json body
    have tests : Fills armEntry ["conditions"] [("conditions", .array (conditionsJson conditions))] {} { conditions } :=
      .single "conditions" (by simp [armEntry, readConditions])
    have fills : Fills armEntry _ _ {} { conditions, body } :=
      tests.append (.list "then" (nodesJson body) (fun body => ({ conditions, body } : Arm Node))
        (by simp [armEntry, readBody]) (by cases body <;> simp [nodesJson]))
    have first : armOfYaml (ofJson (.object (("conditions", .array (conditionsJson conditions)) ::
        listMember "then" (nodesJson body)))) = some { conditions, body } := by
      rw [ofJson, armOfYaml, armOfEntries_eq_foldFields]
      exact (if_pos (fills.keysDiffer (by decide))).trans (fills.foldFields (by decide))
    have given : ∀ members, (ofJson (.object members)).isNullNode = false := fun _ => rfl
    simp [armsJson, Yaml.ofItems, armsOfItems, given, first, armsOfItems_json arms]

end

theorem nodesOfYaml_statements (statements : Option (List Node)) :
    nodesOfYaml (ofJson (Script.statementsJson statements)) = some (statements.getD []) := by
  cases statements with
  | none => rfl
  | some statements => exact nodesOfItems_json statements

/-- A document is read from the node of its JSON value. -/
theorem Script.toRecord_json (document : Script) :
    Yaml.toRecord Script.yamlField {} (ofJson document.json) = some document.filled := by
  obtain ⟨name, localCount, statements⟩ := document
  have names : Fills Script.yamlField ["name"] [("name", .string name.text)] {} { name := name.repaired } :=
    .single "name" (by simp [Script.yamlField, Name.repaired])
  have nodes : Fills Script.yamlField ["statements"] [("statements", Script.statementsJson statements)]
      { name := name.repaired, localCount }
      { name := name.repaired, localCount, statements := some (statements.getD []) } :=
    .single "statements" (by simp [Script.yamlField, nodesOfYaml_statements])
  have fills : Fills Script.yamlField _ _ {}
      { name := name.repaired, localCount, statements := some (statements.getD []) } :=
    (names.append (.int "locals" (fun localCount => ({ name := name.repaired, localCount } : Script)) fun _ => by
      simp [Script.yamlField])).append nodes
  exact fills.toRecord (by decide) (by decide)

end Document

end Lineside
