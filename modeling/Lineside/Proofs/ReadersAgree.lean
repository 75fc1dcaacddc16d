import Lineside.Document.Text
import Lineside.Proofs.DocumentRoundTrip
import Lineside.Proofs.ScriptFiles
import Lineside.Proofs.YamlDocument

/-! The text under which a script is stored can also be read as YAML, which gives the same script. Apart from the name
of the script, it consists of words of the language. -/

namespace Lineside

namespace Text

private theorem printableRanges_allowed : ∀ range ∈ printableRanges.toList,
    0x20 ≤ range.1 ∧ range.2 ≤ 0x7E ∨ 0xA0 ≤ range.1 ∧ range.2 ≤ 0xD7FF ∨ 0xE000 ≤ range.1 ∧ range.2 ≤ 0xFFFD ∨
      0x10000 ≤ range.1 := by
  decide +kernel

theorem legible_of_printable {c : Char} (printable : isPrintable c = true) : Yaml.isLegible c = true := by
  rw [isPrintable, Array.any_eq_true'] at printable
  obtain ⟨⟨low, high⟩, member, within⟩ := printable
  simp only [Bool.and_eq_true, decide_eq_true_eq] at within
  have range := printableRanges_allowed (low, high) (Array.mem_toList_iff.mpr member)
  simp only [Yaml.isLegible, Yaml.isAllowed, Bool.or_eq_true, Bool.and_eq_true, decide_eq_true_eq, beq_iff_eq,
    bne_iff_ne]
  omega

end Text

namespace Document

open Yaml (Legible LegibleItems LegibleMembers isLegible)

/-- Every character of the text is read back from YAML. -/
def Spelled (text : String) : Prop := ∀ c ∈ text.toList, isLegible c = true

instance (text : String) : Decidable (Spelled text) :=
  decidable_of_iff (text.toList.all isLegible = true) List.all_eq_true

theorem spelled_empty : Spelled "" := nofun

theorem spelled_slot (slot : SlotRef) : Spelled slot.name := by
  rcases slot with slot | code
  · cases slot <;> decide
  · show Spelled "NONE"
    decide

theorem spelled_callee (function : Callee) : Spelled function.name := by
  rcases function with _ | _ | function | code
  · show Spelled "NONE"
    decide
  · show Spelled "RETURN"
    decide
  · cases function <;> decide
  · show Spelled "UNKNOWN"
    decide

theorem spelled_operator (operator : Operator) : Spelled operator.name := by
  cases operator <;> decide

theorem spelled_comparator (comparator : Comparator) : Spelled comparator.name := by
  cases comparator <;> decide

theorem keys_spelled : ∀ key ∈ keys, Spelled key ∧ (Json.renderString key).length ≤ 1024 := by
  decide +kernel

section Members

variable {key : String}

theorem legible_single {value : Json} (legible : Legible value) (known : key ∈ keys) :
    LegibleMembers [(key, value)] :=
  ⟨keys_spelled key known, legible, trivial⟩

theorem legible_member {given : Bool} {value : Json} (legible : Legible value) (known : key ∈ keys) :
    LegibleMembers (member key given value) := by
  cases given with
  | true => exact legible_single legible known
  | false => trivial

theorem legible_text {text : String} (spelled : Spelled text) (known : key ∈ keys) :
    LegibleMembers (textMember key text) :=
  legible_member spelled known

theorem legible_bool (value : Bool) (known : key ∈ keys) : LegibleMembers (boolMember key value) :=
  legible_member trivial known

theorem legible_int (value : Int64) (known : key ∈ keys) : LegibleMembers (intMember key value) :=
  legible_member ⟨value, rfl⟩ known

theorem legible_index (value : Option Int64) (known : key ∈ keys) :
    LegibleMembers (indexMember key value) := by
  cases value with
  | none => trivial
  | some value => exact legible_single ⟨value, rfl⟩ known

theorem legible_list {items : List Json} (legible : LegibleItems items) (known : key ∈ keys) :
    LegibleMembers (listMember key items) :=
  legible_member legible known

end Members

theorem Param.legible_json {param : Param} (name : Spelled param.name) (slot : Spelled param.slot) :
    Legible param.json := by
  refine (((LegibleMembers.append ?_ ?_).append ?_).append ?_).append ?_
  · exact legible_index _ (by decide)
  · exact legible_text name (by decide)
  · exact legible_index _ (by decide)
  · exact legible_text slot (by decide)
  · exact legible_bool _ (by decide)

theorem Param.legible_ofParameter {entry : Option Parameter} {written : Param}
    (wrote : Param.ofParameter entry = .ok written) : Legible written.json := by
  rcases entry with _ | ⟨operand, minus⟩
  · cases wrote
  · cases wrote
    cases operand with
    | slot slot => exact Param.legible_json spelled_empty (spelled_slot slot)
    | _ => exact Param.legible_json spelled_empty spelled_empty

theorem legible_mapM {α β : Type} {write : α → Except Fault β} {json : β → Json}
    (each : ∀ {entry written}, write entry = .ok written → Legible (json written)) {entries : List α} {written : List β}
    (wrote : entries.mapM write = .ok written) : LegibleItems (written.map json) := by
  induction entries generalizing written with
  | nil =>
    cases wrote
    trivial
  | cons entry entries ih =>
    simp only [List.mapM_cons, bind_eq_ok, pure_eq_ok, Except.ok.injEq] at wrote
    obtain ⟨first, wroteFirst, rest, wroteRest, rfl⟩ := wrote
    exact ⟨each wroteFirst, ih wroteRest⟩

theorem Term.legible_ofTerm {term : Lineside.Term} {written : Term} (wrote : Term.ofTerm term = .ok written) :
    Legible written.json := by
  simp only [Term.ofTerm, bind_eq_ok, pure_eq_ok, Except.ok.injEq] at wrote
  obtain ⟨params, wrote, rfl⟩ := wrote
  refine (((((LegibleMembers.append ?_ ?_).append ?_).append ?_).append ?_).append ?_).append ?_
  · refine legible_text ?_ (by decide)
    dsimp only
    split
    · decide
    · exact spelled_callee term.function
  · exact legible_list (legible_mapM Param.legible_ofParameter wrote) (by decide)
  · refine legible_text ?_ (by decide)
    dsimp only
    split
    · decide
    · exact spelled_operator term.operator
  · exact legible_bool _ (by decide)
  · exact legible_bool _ (by decide)
  · exact legible_int _ (by decide)
  · exact legible_int _ (by decide)

theorem Term.legible_ofEntry {entry : Option Lineside.Term} {written : Term}
    (wrote : Term.ofEntry entry = .ok written) : Legible written.json := by
  cases entry with
  | none => cases wrote
  | some term => exact Term.legible_ofTerm wrote

theorem Term.legible_ofOptional {entry : Option Lineside.Term} {written : Option Term}
    (wrote : Term.ofOptional entry = .ok written) {key : String} (known : key ∈ keys) :
    LegibleMembers (Term.optionalMember key written) := by
  cases entry with
  | none =>
    cases wrote
    trivial
  | some term =>
    obtain ⟨document, found, rfl⟩ := map_eq_ok.mp wrote
    exact legible_single (Term.legible_ofTerm found) known

theorem Target.legible_ofTarget (target : Lineside.Target) :
    LegibleMembers (Target.member (Target.ofTarget target)) := by
  cases target with
  | none => trivial
  | localVar index =>
    exact legible_single ((legible_index _ (by decide)).append (legible_text spelled_empty (by decide))) (by decide)
  | slot slot =>
    exact legible_single ((legible_index _ (by decide)).append (legible_text (spelled_slot slot) (by decide)))
      (by decide)

theorem legible_conditionJson {kind compare : String} {term1 term2 : Option Term} {negate : Bool}
    {group : List Condition}
    (kinds : Spelled kind) (first : LegibleMembers (Term.optionalMember "term1" term1))
    (second : LegibleMembers (Term.optionalMember "term2" term2)) (compares : Spelled compare)
    (groups : LegibleItems (conditionsJson group)) :
    Legible (conditionJson { kind, term1, term2, compare, negate, group }) := by
  rw [conditionJson]
  have named : LegibleMembers [("kind", .string kind)] := legible_single kinds (by decide)
  refine ((((named.append first).append second).append ?_).append ?_).append ?_
  · exact legible_text compares (by decide)
  · exact legible_bool _ (by decide)
  · exact legible_list groups (by decide)

theorem Condition.legible_ofCondition {condition : Lineside.Condition} {written : Condition}
    (wrote : Condition.ofCondition condition = .ok written) : Legible (conditionJson written) := by
  simp only [Condition.ofCondition, bind_eq_ok, pure_eq_ok, Except.ok.injEq] at wrote
  obtain ⟨first, wroteFirst, second, wroteSecond, rfl⟩ := wrote
  refine legible_conditionJson (by decide) (Term.legible_ofOptional wroteFirst (by decide))
    (Term.legible_ofOptional wroteSecond (by decide)) ?_ trivial
  split
  · exact spelled_empty
  · exact spelled_comparator condition.comparator

/-- An element that consists of its kind, and possibly of a group. -/
private theorem legible_marker {kind : String} {group : List Condition} (kinds : Spelled kind)
    (groups : LegibleItems (conditionsJson group)) : Legible (conditionJson { kind, group }) :=
  legible_conditionJson kinds trivial trivial spelled_empty groups

theorem legible_ofElements : (elements : List Element) → {written : List Condition} →
    Condition.ofElements elements = .ok written → LegibleItems (conditionsJson written)
  | [], _, wrote => by
    rw [Condition.ofElements] at wrote
    cases wrote
    trivial
  | .absent :: rest, _, wrote => by
    rw [Condition.ofElements] at wrote
    exact legible_ofElements rest wrote
  | .combinator marker :: rest, _, wrote => by
    simp only [Condition.ofElements, bind_eq_ok, pure_eq_ok, Except.ok.injEq] at wrote
    obtain ⟨others, wrote, rfl⟩ := wrote
    refine ⟨legible_marker ?_ trivial, legible_ofElements rest wrote⟩
    split <;> decide
  | .negation :: rest, _, wrote => by
    simp only [Condition.ofElements, bind_eq_ok, pure_eq_ok, Except.ok.injEq] at wrote
    obtain ⟨others, wrote, rfl⟩ := wrote
    exact ⟨legible_marker (by decide) trivial, legible_ofElements rest wrote⟩
  | .condition condition :: rest, _, wrote => by
    simp only [Condition.ofElements, bind_eq_ok, pure_eq_ok, Except.ok.injEq] at wrote
    obtain ⟨first, wroteFirst, others, wrote, rfl⟩ := wrote
    exact ⟨Condition.legible_ofCondition wroteFirst, legible_ofElements rest wrote⟩
  | .group elements :: rest, _, wrote => by
    simp only [Condition.ofElements, bind_eq_ok, pure_eq_ok, Except.ok.injEq] at wrote
    obtain ⟨group, wroteGroup, others, wrote, rfl⟩ := wrote
    exact ⟨legible_marker (by decide) (legible_ofElements elements wroteGroup), legible_ofElements rest wrote⟩

theorem legible_nodeJson (target : Lineside.Target) {kind : String} {terms : List Term} {conditions : List Condition}
    {body otherwise : List Node} {elseIf : List (Arm Node)} (kinds : Spelled kind)
    (values : LegibleItems (terms.map Term.json)) (tests : LegibleItems (conditionsJson conditions))
    (bodies : LegibleItems (nodesJson body)) (arms : LegibleItems (armsJson elseIf))
    (others : LegibleItems (nodesJson otherwise)) :
    Legible (nodeJson { kind, target := Target.ofTarget target, terms, conditions, body, elseIf, otherwise }) := by
  have named : LegibleMembers [("kind", .string kind)] := legible_single kinds (by decide)
  rw [nodeJson]
  refine (((((named.append (Target.legible_ofTarget target)).append ?_).append ?_).append ?_).append ?_).append ?_
  · exact legible_list values (by decide)
  · exact legible_list tests (by decide)
  · exact legible_list bodies (by decide)
  · exact legible_list arms (by decide)
  · exact legible_list others (by decide)

theorem Node.legible_ofStatement {statement : Statement} {written : Node}
    (wrote : Node.ofStatement statement = .ok written) : Legible (nodeJson written) := by
  simp only [Node.ofStatement, bind_eq_ok] at wrote
  obtain ⟨returns, _, wrote⟩ := wrote
  cases returns with
  | true =>
    cases wrote
    exact legible_nodeJson .none (by decide) trivial trivial trivial trivial trivial
  | false =>
    simp only [Bool.false_eq_true, if_false, bind_eq_ok, pure_eq_ok, Except.ok.injEq] at wrote
    obtain ⟨terms, wrote, rfl⟩ := wrote
    exact legible_nodeJson _ (by decide) (legible_mapM Term.legible_ofEntry wrote) trivial trivial trivial trivial

mutual

theorem legible_ofNodes : (nodes : List Lineside.Node) → {written : List Node} → Node.ofNodes nodes = .ok written →
    LegibleItems (nodesJson written)
  | [], _, wrote => by
    rw [Node.ofNodes] at wrote
    cases wrote
    trivial
  | .absent :: rest, _, wrote => by
    rw [Node.ofNodes] at wrote
    exact legible_ofNodes rest wrote
  | .statement statement :: rest, _, wrote => by
    simp only [Node.ofNodes, bind_eq_ok, pure_eq_ok, Except.ok.injEq] at wrote
    obtain ⟨first, wroteFirst, others, wrote, rfl⟩ := wrote
    exact ⟨Node.legible_ofStatement wroteFirst, legible_ofNodes rest wrote⟩
  | .branch conditions body arms otherwise :: rest, _, wrote => by
    simp only [Node.ofNodes, bind_eq_ok, pure_eq_ok, Except.ok.injEq] at wrote
    obtain ⟨tests, wroteTests, bodies, wroteBodies, lefts, wroteLefts, tries, wroteTries, others, wrote, rfl⟩ := wrote
    refine ⟨?_, legible_ofNodes rest wrote⟩
    exact legible_nodeJson .none (by decide) trivial (legible_ofElements conditions wroteTests)
      (legible_ofNodes body wroteBodies) (legible_ofArms arms wroteTries) (legible_ofNodes otherwise wroteLefts)

theorem legible_ofArms : (arms : List Lineside.Arm) → {written : List (Arm Node)} → Node.ofArms arms = .ok written →
    LegibleItems (armsJson written)
  | [], _, wrote => by
    rw [Node.ofArms] at wrote
    cases wrote
    trivial
  | .absent :: rest, _, wrote => by
    rw [Node.ofArms] at wrote
    cases wrote
  | .arm conditions body :: rest, _, wrote => by
    simp only [Node.ofArms, bind_eq_ok, pure_eq_ok, Except.ok.injEq] at wrote
    obtain ⟨tests, wroteTests, bodies, wroteBodies, others, wrote, rfl⟩ := wrote
    have named : LegibleMembers [("conditions", .array (conditionsJson tests))] :=
      legible_single (legible_ofElements conditions wroteTests) (by decide)
    exact ⟨named.append (legible_list (legible_ofNodes body wroteBodies) (by decide)), legible_ofArms rest wrote⟩

end

/-- The document of a script whose name is legible. -/
theorem Script.legible_ofScript {script : Lineside.Script} {written : Script}
    (wrote : Script.ofScript (some script) = .ok written) (spelled : Spelled script.name.text) : Legible written.json := by
  obtain ⟨name, _, nodes⟩ := Script.ofScript_eq_ok wrote
  have statements : Legible (Script.statementsJson written.statements) := by
    cases given : written.statements with
    | none => trivial
    | some statements =>
      rw [given] at nodes
      exact legible_ofNodes script.nodes nodes
  have named : LegibleMembers [("name", .string written.name.text)] :=
    legible_single (name ▸ spelled) (by decide)
  exact (named.append (legible_int _ (by decide))).append (legible_single statements (by decide))

end Document

namespace Script

section Written

variable {document : Document.Script} (named : document.name.Legible) (legible : Yaml.Legible document.json)
include named legible

/-- Read as YAML, the text of a document gives what it gives when it is read as JSON. -/
theorem parse_document (shallow : document.json.depth ≤ Json.maxDepth) (given : document.name ≠ "") :
    parse document.text.toUTF8 = ofDocument document.filled := by
  have read : Yaml.parse document.text.toUTF8 = some (some (Yaml.ofJson document.json)) := by
    rw [Yaml.parse, Yaml.textOf_toUTF8, Document.Script.text_of_legible named]
    exact Yaml.parse_text legible shallow
  have name : document.filled.name ≠ "" := mt Name.repaired_eq_empty.mp given
  simp only [parse, Yaml.readInto, read, Document.Script.toRecord_json, Outcome.require_some, ok_bind, if_neg name]

theorem parse_document_deep (deep : Json.maxDepth < document.json.depth) (script : Script) :
    parse document.text.toUTF8 ≠ .ok script := by
  have read : Yaml.parse document.text.toUTF8 = none := by
    rw [Yaml.parse, Yaml.textOf_toUTF8, Document.Script.text_of_legible named]
    exact Yaml.parse_text_deep legible deep
  rw [parse, Yaml.readInto, read]
  nofun

end Written

theorem decode_document_deep {document : Document.Script} (deep : Json.maxDepth < document.json.depth) (kind : Name)
    (script : Script) : decode kind document.text.toUTF8 ≠ .ok script := by
  have read : Json.parse document.text = none := by
    rw [document.parse_text, if_neg (Nat.not_le_of_lt deep)]
  rw [decode, Text.ofBytes_toUTF8, Document.Script.ofStored, read]
  intro found
  cases found

/-- The two readers of the text of a document agree, also on whether it can be read. -/
theorem parse_iff_decode {document : Document.Script} (named : document.name.Legible)
    (legible : Yaml.Legible document.json) (given : document.name ≠ "") (kind : Name) (script : Script) :
    parse document.text.toUTF8 = .ok script ↔ decode kind document.text.toUTF8 = .ok script := by
  by_cases shallow : document.json.depth ≤ Json.maxDepth
  · rw [parse_document named legible shallow given, decode_text shallow]
  · have deep := Nat.lt_of_not_le shallow
    exact iff_of_false (parse_document_deep named legible deep script) (decode_document_deep deep kind script)

end Script

namespace Store

/-- What is stored for a script that a document describes can be read as YAML and as JSON. Both give the same script,
which is, as far as the nesting can be followed, the script that was stored with every return bare. -/
theorem readers_agree {document : Document.Script} {script : Script} (resolved : document.resolve = .ok script)
    {name : String} (named : script.name = name) (given : name ≠ "")
    (printable : ∀ c ∈ name.toList, Text.isPrintable c = true) :
    ∃ written blob, Document.Script.ofScript (some script) = .ok written ∧ script.encode = .ok blob ∧
      (∀ kind read, Script.parse blob = .ok read ↔ Script.decode kind blob = .ok read) ∧
      (written.json.depth ≤ Json.maxDepth → Script.parse blob = .ok script.bared) ∧
      ∀ store changed notice, Store.put store (some script) = (.ok notice, changed) →
        changed.backing.table.get (Piece.blob.key script.name) = some blob ∧
        (store.backing.Readable → ∀ moment read,
          (changed.get moment script.name).1 = .ok read ↔ Script.parse blob = .ok read) := by
  obtain ⟨written, wrote, encoded, decoded⟩ := Script.decode_encode (Document.Script.resolve_expressible resolved)
  have legible : Yaml.Legible written.json := by
    refine Document.Script.legible_ofScript wrote fun c member => ?_
    rw [named, Name.text_ofText] at member
    exact Text.legible_of_printable (printable c member)
  have name : written.name = name := (Document.Script.ofScript_eq_ok wrote).1.trans named
  have nameless : written.name ≠ "" := by
    rw [name]
    exact mt Name.ofText_inj.mp given
  have agree (kind : Name) (read : Script) :
      Script.parse written.text.toUTF8 = .ok read ↔ Script.decode kind written.text.toUTF8 = .ok read :=
    Script.parse_iff_decode ⟨_, name⟩ legible nameless kind read
  refine ⟨written, written.text.toUTF8, wrote, encoded, agree, fun shallow => ?_, fun store changed notice done => ?_⟩
  · rw [agree script.name, ← Script.stored_of_legible ⟨_, named⟩]
    exact decoded shallow script.name
  · obtain ⟨_, _, blob, stored, rfl⟩ := put_some_eq_ok done
    obtain rfl : written.text.toUTF8 = blob := Except.ok.inj (encoded.symm.trans stored)
    refine ⟨Piece.get_written_blob _ _, fun readable moment read => ?_⟩
    rw [get_holding_self readable, agree script.name]

end Store

/-- The name has letters outside of ASCII and spaces, and the constant is negative. -/
private def southExit : Document.Script where
  name := "Ausfahrt Süd <3>"
  localCount := 2
  statements := some [
    { kind := "if"
      conditions := [{ kind := "not" }, { term1 := some { function := "ROUTE_SET" } }]
      body := [{ kind := "assign", target := some { localVar := some 1 }
                 terms := [{ params := [{ constant := some (-9223372036854775808), minus := true }] }] }] },
    { kind := "return" }]

private def southExitScript : Script where
  name := "Ausfahrt Süd <3>"
  localCount := 2
  nodes := [
    .branch [.negation, .condition { first := some { function := .builtin .routeSet } }]
      [.statement {
        target := .localVar 1
        terms := [some { params := [some { operand := .constant (-9223372036854775808), minus := true }] }] }]
      [] [],
    .statement .leave]

theorem readers_agree_southExit :
    ∃ blob changed notice, southExitScript.encode = .ok blob ∧
      Script.parse blob = .ok southExitScript ∧
      Store.put {} (some southExitScript) = (.ok notice, changed) ∧
      ∀ moment, (changed.get moment "Ausfahrt Süd <3>").1 = .ok southExitScript := by
  have resolved : southExit.resolve = .ok southExitScript := by rfl
  have printable : "Ausfahrt Süd <3>".toList.all Text.isPrintable = true := by
    decide +kernel
  have depth : (Document.Node.ofNodes southExitScript.nodes).toOption.map
      (fun nodes => Json.itemsDepth (Document.nodesJson nodes)) = some 7 := by
    dsimp only [southExitScript]
    cbv
  have bared : southExitScript.bared = southExitScript := by rfl
  have valid : Script.validate (some southExitScript) = .ok none :=
    Script.validate_eq_none_iff.mpr ⟨by simp [southExitScript], by decide, by dsimp only [southExitScript]; cbv⟩
  obtain ⟨written, blob, wrote, encoded, _, parsed, stored⟩ := Store.readers_agree resolved rfl (by decide)
    (List.all_eq_true.mp printable)
  have shallow : written.json.depth ≤ Json.maxDepth :=
    Nat.le_trans (Document.Script.depth_of_measured wrote depth) (by decide)
  have read := parsed shallow
  rw [bared] at read
  have expressible := Document.Script.resolve_expressible resolved
  obtain ⟨changed, notice, done⟩ : ∃ changed notice, Store.put {} (some southExitScript) = (.ok notice, changed) :=
    (Store.put_total expressible).mpr ⟨valid, rfl, rfl, rfl, rfl⟩
  obtain ⟨_, same⟩ := stored {} changed notice done
  refine ⟨blob, changed, notice, encoded, read, done, fun moment => ?_⟩
  exact (same ⟨rfl, rfl⟩ moment southExitScript).mpr read

end Lineside
