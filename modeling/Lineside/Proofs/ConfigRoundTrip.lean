import Lineside.Config.Writing
import Lineside.Proofs.FileWriting
import Lineside.Proofs.YamlDocument
import Lineside.Proofs.YamlSheets

/-! Configurations come back from the files they are saved in. What is written is a sheet whose lines are the settings
of the configuration, so reading the file gives a mapping with an entry for every setting, and none keeps its
default. -/

namespace Lineside

namespace Yaml

/-- There are no line breaks in a text. -/
def OneLine (text : String) : Prop := ∀ c ∈ text.toList, isBreak c = false

instance (text : String) : Decidable (OneLine text) :=
  decidable_of_iff (text.toList.all (!isBreak ·) = true) (by simp [OneLine])

/-- A text as the writer puts it on a line. -/
def Line.ofText (text : String) : Line :=
  if line : OneLine text then ⟨text, isBare text, lineText text, written_lineText line⟩
  else ⟨text, false, _, .double false⟩

def Line.ofInt (value : Int64) : Line := ⟨value.toInt.repr, true, _, .plain (isWord_repr value.toInt).bare⟩

def Line.ofBool : Bool → Line
  | true => ⟨"true", true, _, .plain isWord_true.bare⟩
  | false => ⟨"false", true, _, .plain isWord_false.bare⟩

section Nodes

@[simp] theorem node_line (line : Line) : (Sheet.line line).node = line.node := rfl

/-- No text is written in a way that is read as nothing. -/
theorem node_ofText (text : String) : ∃ plain, (Line.ofText text).node = .scalar plain text ∧
    (plain && isNull text) = false := by
  unfold Line.ofText
  split
  · refine ⟨isBare text, rfl, ?_⟩
    rw [Bool.and_eq_false_imp]
    exact fun bare => isNull_of_standsForItself (Bool.and_eq_true_iff.mp bare).1
  · exact ⟨false, rfl, rfl⟩

@[simp] theorem toText_line (current text : String) : toText current (Line.ofText text).node = some text := by
  obtain ⟨plain, node, given⟩ := node_ofText text
  simp [node, toText, given]

theorem isNullNode_line (text : String) : (Line.ofText text).node.isNullNode = false := by
  obtain ⟨plain, node, given⟩ := node_ofText text
  cases plain with
  | false => rw [node]; rfl
  | true => rw [node]; exact given

@[simp] theorem toList_lines (texts : List String) :
    toList (toText "") (Sheet.list (texts.map .ofText)).node = some texts := by
  have given : ∀ item ∈ (texts.map Line.ofText).map Line.node, (!item.isNullNode) = true := by
    simp [isNullNode_line]
  have every : ((texts.map Line.ofText).map Line.node).mapM (toText "") = some texts := by
    clear given
    induction texts with
    | nil => rfl
    | cons text texts ih =>
      rw [List.map_cons, List.map_cons, List.mapM_cons, toText_line, ih]
      rfl
  rw [toList, Sheet.node, toItems, List.filter_eq_self.mpr given]
  exact every

@[simp] theorem toInt_line (current value : Int64) : toInt current (Line.ofInt value).node = some value := by
  simp [Line.ofInt, Line.node, toInt, ofPlain_repr, Document.ofInt?_toInt]

@[simp] theorem toBool_line (current value : Bool) : toBool current (Line.ofBool value).node = some value := by
  cases value
  · rfl
  · rfl

end Nodes

section Fields

theorem chars_record (fields : Fields) (column : Nat) : (Sheet.record fields).chars column =
    '\n' :: (List.replicate (column + indentStep) ' ' ++ fields.chars (column + indentStep)) := rfl

theorem toRecord_fields {α : Type} {field : String → Yaml → α → Option α} {fields : Fields} {before after : α}
    (distinct : keysDiffer fields.entries = true) (filled : foldFields field fields.entries before = some after) :
    toRecord field before (Sheet.record fields).node = some after := by
  simp [Sheet.node, toRecord, distinct, filled]

end Fields

end Yaml

namespace Config

open Yaml

def Engine.fields (engine : Engine) : Fields :=
  .more { text := "ticks" } (.line (.ofInt engine.ticks)) <|
  .more { text := "tick_interval" } (.line (.ofText engine.tickInterval)) <|
  .more { text := "script_debug" } (.line (.ofBool engine.scriptDebug)) <|
  .last { text := "realtime" } (.line (.ofBool engine.realtime))

def Scripts.fields (scripts : Scripts) : Fields :=
  .more { text := "dir" } (.line (.ofText scripts.directory)) <|
  .more { text := "cache_size" } (.line (.ofInt scripts.cacheSize)) <|
  .more { text := "cache_ttl" } (.line (.ofText scripts.cacheLifetime)) <|
  .last { text := "watch" } (.line (.ofBool scripts.watch))

def Metrics.fields (metrics : Metrics) : Fields :=
  .more { text := "enabled" } (.line (.ofBool metrics.enabled)) <|
  .last { text := "bind_address" } (.line (.ofText metrics.bindAddress))

def Logging.fields (logging : Logging) : Fields :=
  .more { text := "level" } (.line (.ofText logging.level)) <|
  .more { text := "encoding" } (.line (.ofText logging.encoding)) <|
  .last { text := "output_paths" } (.list (logging.outputPaths.map .ofText))

/-- The sheet of a configuration. -/
def fields (config : Config) : Fields :=
  .more { text := "engine" } (.record config.engine.fields) <|
  .more { text := "scripts" } (.record config.scripts.fields) <|
  .more { text := "layout" } (.line (.ofText config.layout)) <|
  .more { text := "metrics" } (.record config.metrics.fields) <|
  .last { text := "logging" } (.record config.logging.fields)

section Reading

variable (engine : Engine) (scripts : Scripts) (metrics : Metrics) (logging : Logging)

@[simp] theorem toRecord_engine (before : Engine) :
    toRecord Engine.yamlField before (Sheet.record engine.fields).node = some engine := by
  refine Yaml.toRecord_fields rfl ?_
  simp [Engine.fields, Fields.entries, foldFields, Engine.yamlField, isNull]

@[simp] theorem toRecord_scripts (before : Scripts) :
    toRecord Scripts.yamlField before (Sheet.record scripts.fields).node = some scripts := by
  refine Yaml.toRecord_fields rfl ?_
  simp [Scripts.fields, Fields.entries, foldFields, Scripts.yamlField, isNull]

@[simp] theorem toRecord_metrics (before : Metrics) :
    toRecord Metrics.yamlField before (Sheet.record metrics.fields).node = some metrics := by
  refine Yaml.toRecord_fields rfl ?_
  simp [Metrics.fields, Fields.entries, foldFields, Metrics.yamlField, isNull]

@[simp] theorem toRecord_logging (before : Logging) :
    toRecord Logging.yamlField before (Sheet.record logging.fields).node = some logging := by
  have paths := toList_lines logging.outputPaths
  refine Yaml.toRecord_fields rfl ?_
  simp [Logging.fields, Fields.entries, foldFields, Logging.yamlField, isNull, paths]

/-- Every setting is read back, whatever it was before. -/
theorem toRecord_config (before config : Config) :
    toRecord yamlField before (Sheet.record config.fields).node = some config := by
  refine Yaml.toRecord_fields rfl ?_
  simp [fields, Fields.entries, foldFields, yamlField, isNull]

end Reading

section Writing

theorem toList_margin (level : Nat) : (margin level).toList = List.replicate (level * indentStep) ' ' := by
  simp [margin]

theorem shown_ofText {text : String} (line : OneLine text) :
    (Line.ofText text).shown = lineText text := by
  rw [Line.ofText, dif_pos line]

theorem toList_textEntry (level : Nat) (key : String) {text : String} (line : OneLine text) :
    (textEntry level key text).toList = List.replicate (level * indentStep) ' ' ++
      (key.toList ++ ':' :: (Sheet.line (.ofText text)).chars (level * indentStep)) := by
  simp [textEntry, String.toList_append, toList_margin, written_eq line, Sheet.chars, shown_ofText line]

theorem toList_intEntry (level : Nat) (key : String) (value : Int64) :
    (intEntry level key value).toList = List.replicate (level * indentStep) ' ' ++
      (key.toList ++ ':' :: (Sheet.line (.ofInt value)).chars (level * indentStep)) := by
  simp [intEntry, plainEntry, String.toList_append, toList_margin, Sheet.chars, Line.ofInt]

theorem toList_boolEntry (level : Nat) (key : String) (value : Bool) :
    (boolEntry level key value).toList = List.replicate (level * indentStep) ' ' ++
      (key.toList ++ ':' :: (Sheet.line (.ofBool value)).chars (level * indentStep)) := by
  cases value <;> simp [boolEntry, plainEntry, String.toList_append, toList_margin, Sheet.chars, Line.ofBool]

theorem toList_block (level : Nat) (key : String) (lines : List String) :
    (block level key lines).toList = List.replicate (level * indentStep) ' ' ++
      (key.toList ++ ':' :: '\n' :: lines.flatMap String.toList) := by
  simp [block, String.toList_append, toList_margin]

theorem toList_listEntry (level : Nat) (key : String) {texts : List String} (lines : ∀ text ∈ texts, OneLine text) :
    (listEntry level key texts).toList = List.replicate (level * indentStep) ' ' ++
      (key.toList ++ ':' :: (Sheet.list (texts.map .ofText)).chars (level * indentStep)) := by
  cases texts with
  | nil => simp [listEntry, plainEntry, String.toList_append, toList_margin, Sheet.chars]
  | cons first others =>
    have items : (first :: others).flatMap (fun text => (margin (level + 1) ++ "- " ++
        written ((level + 1) * indentStep + 2) text).toList) =
          lineChars (level * indentStep + indentStep) ((first :: others).map .ofText) := by
      rw [lineChars, List.flatMap_map, List.flatMap_def, List.flatMap_def]
      refine congrArg List.flatten (List.map_congr_left fun text member => ?_)
      have line := lines text member
      simp [String.toList_append, toList_margin, written_eq line, shown_ofText line, Nat.succ_mul]
    rw [listEntry, toList_block, List.flatMap_map, items]
    · rfl
    · exact List.cons_ne_nil _ _

/-- The texts among the settings. -/
def texts (config : Config) : List String :=
  [config.engine.tickInterval, config.scripts.directory, config.scripts.cacheLifetime, config.layout,
    config.metrics.bindAddress, config.logging.level, config.logging.encoding] ++ config.logging.outputPaths

theorem text_eq {config : Config} (lines : ∀ text ∈ config.texts, OneLine text) :
    config.text = String.ofList (config.fields.chars 0) := by
  simp only [texts, List.forall_mem_append, List.forall_mem_cons] at lines
  obtain ⟨⟨interval, directory, lifetime, layout, address, level, encoding, _⟩, paths⟩ := lines
  refine String.toList_injective ?_
  rw [String.toList_ofList]
  simp only [text, String.toList_append, toList_block, toList_intEntry, toList_boolEntry, toList_listEntry _ _ paths,
    toList_textEntry _ _ interval, toList_textEntry _ _ directory, toList_textEntry _ _ lifetime,
    toList_textEntry _ _ layout, toList_textEntry _ _ address, toList_textEntry _ _ level,
    toList_textEntry _ _ encoding, fields, Engine.fields, Scripts.fields, Metrics.fields, Logging.fields,
    Fields.chars, chars_record, List.flatMap_cons, List.flatMap_nil, List.append_assoc, List.cons_append,
    List.nil_append, List.append_nil, Nat.zero_mul, Nat.one_mul, Nat.zero_add, List.replicate_zero]

/-- The text of a configuration is read as that configuration, on top of any other. -/
theorem readInto_text {config : Config} (lines : ∀ text ∈ config.texts, OneLine text) (before : Config) :
    readInto yamlField before config.text.toUTF8 = .ok config := by
  have shallow : config.fields.depth < maxLevel := by
    have depth : config.fields.depth = 2 := rfl
    rw [depth]
    decide
  have read : Yaml.parse config.text.toUTF8 = some (some (.mapping config.fields.entries)) := by
    rw [Yaml.parse, textOf_toUTF8, text_eq lines]
    exact parse_fields config.fields shallow
  have filled : toRecord yamlField before (.mapping config.fields.entries) = some config :=
    toRecord_config before config
  simp only [readInto, read, filled, Outcome.require_some, ok_bind]

end Writing

section Saving

variable {config : Config} {tree : FileTree} {path : String}

/-- Where a file can be written, the text of the configuration is in it afterwards. -/
theorem save_of_writable (config : Config) (writable : tree.Writable path) :
    ∃ changed, config.save tree path = .ok changed ∧ changed.read path = .ok config.text.toUTF8 := by
  obtain ⟨around, place, before, made, target⟩ := writable
  obtain ⟨changed, written, found⟩ := FileTree.read_write target config.text
  refine ⟨changed, ?_, found⟩
  simp only [save, made, written, Outcome.because_ok, Outcome.during_ok, ok_bind]

theorem ofVariables_silent {value? : String → Option String}
    (silent : ∀ name ∈ Environment.names, value? name = none ∨ value? name = some "") :
    Environment.ofVariables value? = {} := by
  have empty : ∀ name ∈ Environment.names, (value? name).getD "" = "" := fun name member => by
    rcases silent name member with absent | present
    · rw [absent]; rfl
    · rw [present]; rfl
  simp only [Environment.names, List.forall_mem_cons] at empty
  obtain ⟨level, address, directory, _⟩ := empty
  simp only [Environment.ofVariables, level, address, directory]

/-- A configuration without line breaks in its texts is loaded as it was saved, under every path that can be written.
Each setting is found in the file: what is read does not depend on what the settings were before. -/
theorem load_save (lines : ∀ text ∈ config.texts, OneLine text) (writable : tree.Writable path)
    {value? : String → Option String}
    (silent : ∀ name ∈ Environment.names, value? name = none ∨ value? name = some "") :
    ∃ changed, config.save tree path = .ok changed ∧
      load changed.view (Environment.ofVariables value?) path = .ok config ∧
      ∃ bytes, changed.read path = .ok bytes ∧ ∀ before, readInto yamlField before bytes = .ok config := by
  obtain ⟨changed, saved, found⟩ := save_of_writable config writable
  refine ⟨changed, saved, ?_, config.text.toUTF8, found, readInto_text lines⟩
  rw [ofVariables_silent silent]
  simp only [load, FileTree.view, found, parse, readInto_text lines, Outcome.during_ok, ok_bind]
  rfl

/-- Texts that a reader may take for something else, and no text at all. -/
private def lookalikes : Config where
  engine := { ticks := -1, tickInterval := "", realtime := true }
  scripts := { directory := "null", cacheSize := 0, cacheLifetime := "12:30:45" }
  layout := "true"
  metrics := { bindAddress := "- it's # odd: " }
  logging := { level := "~", encoding := "\"\\\t", outputPaths := ["", "1e3", "no"] }

theorem load_save_lookalikes : ∃ changed, lookalikes.save {} "etc/rail.yaml" = .ok changed ∧
    load changed.view (Environment.ofVariables fun _ => none) "etc/rail.yaml" = .ok lookalikes ∧
    ∃ bytes, changed.read "etc/rail.yaml" = .ok bytes ∧ ∀ before, readInto yamlField before bytes = .ok lookalikes := by
  refine load_save ?_ ?_ fun _ _ => .inl rfl
  · decide
  · exact ⟨_, _, _, rfl, rfl⟩

end Saving

end Config

end Lineside
