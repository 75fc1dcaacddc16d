import Lineside.Proofs.YamlBlocks

/-! Sheets: records of lines, lists and further records, written one below the other. Reading the text of a sheet gives
its node. The scanner finds the tokens of a sheet in front of any rest of the text that stands no deeper, and the
reader finds the node from the tokens. -/

namespace Lineside.Yaml

/-- A text as it stands on a line, so that a reader finds it there. -/
structure Line where
  text : String
  plain : Bool
  shown : List Char
  written : Written text plain shown

/-- The name of a field. -/
structure Label where
  text : String
  fits : fitsPlain text.toList = true := by decide
  letter : text.toList.head?.any Char.isAlpha = true := by decide
  short : text.toList.length ≤ 1024 := by decide

mutual

/-- What stands under a name. -/
inductive Sheet where
  | line (line : Line)
  | list (lines : List Line)
  | record (fields : Fields)

/-- Fields of a record, of which there is at least one. -/
inductive Fields where
  | last (key : Label) (value : Sheet)
  | more (key : Label) (value : Sheet) (rest : Fields)

end

def lineChars (column : Nat) (lines : List Line) : List Char :=
  lines.flatMap fun line => List.replicate column ' ' ++ '-' :: ' ' :: (line.shown ++ ['\n'])

mutual

/-- What is written behind the colon of a name that stands in a column. -/
def Sheet.chars (column : Nat) : Sheet → List Char
  | .line line => ' ' :: (line.shown ++ ['\n'])
  | .list [] => [' ', '[', ']', '\n']
  | .list (first :: others) => '\n' :: lineChars (column + indentStep) (first :: others)
  | .record fields =>
    '\n' :: (List.replicate (column + indentStep) ' ' ++ fields.chars (column + indentStep))

/-- What is written for fields from the first name on. -/
def Fields.chars (column : Nat) : Fields → List Char
  | .last key value => key.text.toList ++ ':' :: value.chars column
  | .more key value rest =>
    key.text.toList ++ ':' :: (value.chars column ++ (List.replicate column ' ' ++ rest.chars column))

end

def Line.token (line : Line) : Token := .scalar line.plain line.text

def lineTokens (lines : List Line) : List Token := lines.flatMap fun line => [.blockEntry, line.token]

mutual

def Sheet.tokens : Sheet → List Token
  | .line line => [line.token]
  | .list [] => [.flowSequence, .flowSequenceEnd]
  | .list (first :: others) => .blockSequence :: (lineTokens (first :: others) ++ [.blockEnd])
  | .record fields => .blockMapping :: (fields.tokens ++ [.blockEnd])

def Fields.tokens : Fields → List Token
  | .last key value => [.key, .scalar true key.text, .value] ++ value.tokens
  | .more key value rest => [.key, .scalar true key.text, .value] ++ (value.tokens ++ rest.tokens)

end

mutual

/-- How many blocks are opened. -/
def Sheet.depth : Sheet → Nat
  | .line _ => 0
  | .list _ => 1
  | .record fields => fields.depth + 1

def Fields.depth : Fields → Nat
  | .last _ value => value.depth
  | .more _ value rest => max value.depth rest.depth

end

def Line.node (line : Line) : Yaml := .scalar line.plain line.text

mutual

def Sheet.node : Sheet → Yaml
  | .line line => line.node
  | .list lines => .sequence (lines.map Line.node)
  | .record fields => .mapping fields.entries

def Fields.entries : Fields → List (Yaml × Yaml)
  | .last key value => [(.scalar true key.text, value.node)]
  | .more key value rest => (.scalar true key.text, value.node) :: rest.entries

end

def Line.raw (line : Line) : Raw := .scalar line.plain line.text

mutual

/-- The node of what stands under a name, as it is written. -/
def Sheet.raw : Sheet → Raw
  | .line line => line.raw
  | .list lines => .sequence (lines.map Line.raw)
  | .record fields => .mapping fields.rawEntries

def Fields.rawEntries : Fields → List (Raw × Raw)
  | .last key value => [(.scalar true key.text, value.raw)]
  | .more key value rest => (.scalar true key.text, value.raw) :: rest.rawEntries

end

section Written

theorem lineChars_cons (column : Nat) (line : Line) (lines : List Line) (rest : List Char) :
    lineChars column (line :: lines) ++ rest =
      List.replicate column ' ' ++ '-' :: ' ' :: (line.shown ++ '\n' :: (lineChars column lines ++ rest)) := by
  simp [lineChars]

end Written

section Labels

theorem Label.bare (label : Label) : Bare label.text.toList :=
  bare_of_fitsPlain label.fits fun empty => by
    have letter := label.letter
    rw [empty] at letter
    cases letter

theorem Label.unmarked (label : Label) (level : Nat) (rest : List Char) :
    Scanner.Unmarked level (label.text.toList ++ rest) := by
  obtain ⟨c, cs, shape⟩ := List.exists_cons_of_ne_nil label.bare.present
  have letter : c.isAlpha = true := by simpa [shape] using label.letter
  have apart : c ≠ '%' ∧ c ≠ '-' ∧ c ≠ '.' := by
    refine ⟨?_, ?_, ?_⟩ <;> (rintro rfl; cases letter)
  rw [shape]
  refine .inr ⟨by simpa using apart.1, fun mark => ?_⟩
  rcases rest' : cs ++ rest with _ | ⟨a, _ | ⟨b, more⟩⟩ <;> simp [Cursor.atMarker, rest', apart]

/-- What stands behind a colon does not belong to the name. -/
theorem Sheet.chars_apart (value : Sheet) (column : Nat) (rest : List Char) :
    endsWord (value.chars column ++ rest) = true ∧
      ∀ mark, skipLineComment ⟨value.chars column ++ rest, mark⟩ = ⟨value.chars column ++ rest, mark⟩ := by
  match value with
  | .line entry =>
    rw [Sheet.chars, List.cons_append, List.append_assoc]
    exact ⟨rfl, skipLineComment_space (entry.written.tight _)⟩
  | .list [] => exact ⟨rfl, skipLineComment_space (.sign _)⟩
  | .list (_ :: _) => exact ⟨rfl, skipLineComment_line _⟩
  | .record _ => exact ⟨rfl, skipLineComment_line _⟩

theorem Fields.tight (fields : Fields) (column : Nat) (rest : List Char) : Tight (fields.chars column ++ rest) := by
  cases fields with
  | last key => exact (List.append_assoc _ _ rest).symm ▸ key.bare.tight _
  | more key => exact (List.append_assoc _ _ rest).symm ▸ key.bare.tight _

end Labels

namespace Scanner

section Scanning

variable {scanner : Scanner} {queue new : List Token} {before base : List Nat} {mark : Mark} {level count : Nat}
  {rest : List Char}

/-- The items of a list are found one after the other. -/
theorem Nears.finds_items (first : Line) (others : List Line)
    (nears : scanner.Nears queue before true level
      ('-' :: ' ' :: (first.shown ++ '\n' :: (lineChars level others ++ (List.replicate count ' ' ++ rest)))))
    (opens : Opens .blockSequence level base before new) (outside : count ≤ level) (tight : Tight rest) :
    scanner.Finds queue (queue ++ (new ++ lineTokens (first :: others) ++ closers (level :: base) count))
      (Nears · · ((level :: base).dropWhile (count < ·)) true count rest) := by
  induction others generalizing scanner queue before first new with
  | nil =>
    have dash := nears.finds_dash opens (first.written.tight _)
    have item := dash.trans fun next left nears =>
      nears.finds_scalar first.written (Nat.lt_add_of_pos_right (by decide)) outside tight
    simpa [lineTokens, Line.token] using item
  | cons second others ih =>
    rw [lineChars_cons] at nears
    obtain ⟨none, all⟩ := closers_deeper (show ∀ outer ∈ (level :: base).head?, outer ≤ level by simp)
    have dash := nears.finds_dash opens (first.written.tight _)
    have item := dash.trans fun next left nears =>
      nears.finds_scalar first.written (Nat.lt_add_of_pos_right (by decide)) (Nat.le_refl level)
        (.cons rfl rfl (by decide) _)
    rw [none, all] at item
    have items := item.trans fun next left nears => ih second nears .within
    simpa [lineTokens, Line.token] using items

theorem closers_cons {column : Nat} (deep : count < column) :
    closers (column :: base) count = .blockEnd :: closers base count ∧
      (column :: base).dropWhile (count < ·) = base.dropWhile (count < ·) := by
  simp [closers, deep]

/-- The name of a field is found, with its colon. -/
theorem Nears.finds_field (key : Label) (value : Sheet)
    (nears : scanner.Nears queue before true level (key.text.toList ++ ':' :: (value.chars level ++ rest)))
    (opens : Opens .blockMapping level base before new) :
    scanner.Finds queue (queue ++ (new ++ [.key, .scalar true key.text, .value]))
      (Behind · · base level (value.chars level ++ rest)) := by
  obtain ⟨ends, quiet⟩ := value.chars_apart level rest
  have found := nears.finds_key key.bare key.short (key.unmarked level _) opens ends quiet
  rwa [String.ofList_toList] at found

mutual

/-- What stands under a name is found, up to where the text goes on no deeper than the name. -/
theorem Behind.finds : (value : Sheet) → {scanner : Scanner} → {queue : List Token} → {base : List Nat} →
    {level count : Nat} → {rest : List Char} →
      scanner.Behind queue base level (value.chars level ++ (List.replicate count ' ' ++ rest)) → count ≤ level →
        Tight rest → base.length + value.depth < maxLevel →
          scanner.Finds queue (queue ++ (value.tokens ++ closers (level :: base) count))
            (Nears · · ((level :: base).dropWhile (count < ·)) true count rest)
  | .line line, _, _, _, _, count, rest, behind, outside, tight, _ => by
    rw [Sheet.chars, List.cons_append, List.append_assoc, List.singleton_append] at behind
    obtain ⟨column, deep, nears⟩ := behind.nears_line (line.written.tight _)
    exact nears.finds_scalar line.written deep outside tight
  | .list [], _, _, _, _, count, rest, behind, outside, tight, _ => by
    obtain ⟨column, deep, nears⟩ := behind.nears_line (.sign _)
    exact nears.finds_empty (by omega) tight
  | .list (first :: others), _, queue, base, level, count, rest, behind, outside, tight, room => by
    rw [Sheet.chars, List.cons_append, lineChars_cons] at behind
    have nears := behind.nears_block (.cons rfl rfl (by decide) _) (Nat.le_add_right _ _)
    have deep : ∀ outer ∈ (level :: base).head?, outer < level + indentStep := by simp [indentStep]
    have items := nears.finds_items first others (.fresh deep (by simp [Sheet.depth] at room ⊢; omega))
      (by omega) tight
    obtain ⟨ends, all⟩ := closers_cons (show count < level + indentStep by simp [indentStep]; omega)
    rw [ends, all] at items
    simpa [Sheet.tokens] using items
  | .record fields, _, queue, base, level, count, rest, behind, outside, tight, room => by
    rw [Sheet.chars, List.cons_append, List.append_assoc] at behind
    have nears := behind.nears_block (fields.tight _ _) (Nat.le_add_right _ _)
    have deep : ∀ outer ∈ (level :: base).head?, outer < level + indentStep := by simp [indentStep]
    rw [Sheet.depth] at room
    have inner := nears.finds_fields fields (.fresh deep (by simp; omega)) (by omega) tight (by simp; omega)
    obtain ⟨ends, all⟩ := closers_cons (show count < level + indentStep by simp [indentStep]; omega)
    rw [ends, all] at inner
    simpa [Sheet.tokens] using inner

/-- Fields are found, the first of which may open their block. -/
theorem Nears.finds_fields : (fields : Fields) → {scanner : Scanner} → {queue new : List Token} →
    {before base : List Nat} → {level count : Nat} → {rest : List Char} →
      scanner.Nears queue before true level (fields.chars level ++ (List.replicate count ' ' ++ rest)) →
        Opens .blockMapping level base before new → count ≤ level → Tight rest →
          base.length + fields.depth < maxLevel →
            scanner.Finds queue (queue ++ (new ++ fields.tokens ++ closers (level :: base) count))
              (Nears · · ((level :: base).dropWhile (count < ·)) true count rest)
  | .last key value, _, _, _, _, _, level, count, rest, nears, opens, outside, tight, room => by
    rw [Fields.chars, List.append_assoc, List.cons_append] at nears
    have field := (nears.finds_field key value opens).trans fun _ _ behind => behind.finds value outside tight room
    simpa [Fields.tokens] using field
  | .more key value others, _, _, _, _, _, level, count, rest, nears, opens, outside, tight, room => by
    rw [Fields.chars, List.append_assoc, List.cons_append, List.append_assoc, List.append_assoc] at nears
    rw [Fields.depth] at room
    obtain ⟨none, all⟩ := closers_deeper (show ∀ outer ∈ (level :: _).head?, outer ≤ level by simp)
    have field := (nears.finds_field key value opens).trans fun _ _ behind =>
      behind.finds value (Nat.le_refl level) (others.tight level _) (by omega)
    rw [none, all] at field
    have fields := field.trans fun _ _ nears => nears.finds_fields others .within outside tight (by omega)
    simpa [Fields.tokens] using fields

end

end Scanning

end Scanner

section Text

theorem Clear.of_visible {c : Char} (visible : isVisible c = true) : Clear c := by
  simp only [isVisible, Bool.or_eq_true, Bool.and_eq_true, beq_iff_eq, decide_eq_true_eq] at visible
  refine ⟨?_, ?_, by omega⟩
  · simp only [isAllowed, Bool.or_eq_true, Bool.and_eq_true, beq_iff_eq, decide_eq_true_eq]
    omega
  · rintro rfl
    simp at visible

theorem visible_lines (column : Nat) (lines : List Line) : ∀ c ∈ lineChars column lines, isVisible c = true := by
  intro c member
  simp only [lineChars, List.mem_flatMap, List.mem_append, List.mem_cons, List.not_mem_nil, or_false] at member
  obtain ⟨line, _, space | rfl | rfl | inside | rfl⟩ := member
  · rw [List.eq_of_mem_replicate space]
    rfl
  · rfl
  · rfl
  · exact line.written.visible c inside
  · rfl

theorem visible_margin (count : Nat) : ∀ c ∈ List.replicate count ' ', isVisible c = true := by
  intro c member
  rw [List.eq_of_mem_replicate member]
  rfl

theorem length_lineTokens (column : Nat) (lines : List Line) :
    (lineTokens lines).length ≤ (lineChars column lines).length := by
  induction lines with
  | nil => exact Nat.le_refl _
  | cons line lines ih =>
    simp only [lineTokens, lineChars, List.flatMap_cons, List.length_append, List.length_cons, List.length_nil] at ih ⊢
    omega

mutual

theorem Sheet.visible : (value : Sheet) → (column : Nat) → ∀ c ∈ value.chars column, isVisible c = true
  | .line entry, column => by
    simp only [Sheet.chars, List.forall_mem_cons, List.forall_mem_append]
    exact ⟨rfl, entry.written.visible, rfl, nofun⟩
  | .list [], column => by
    simp only [Sheet.chars, List.forall_mem_cons]
    exact ⟨rfl, rfl, rfl, rfl, nofun⟩
  | .list (first :: others), column => by
    simp only [Sheet.chars, List.forall_mem_cons]
    exact ⟨rfl, visible_lines _ _⟩
  | .record fields, column => by
    simp only [Sheet.chars, List.forall_mem_cons, List.forall_mem_append]
    exact ⟨rfl, visible_margin _, fields.visible _⟩

theorem Fields.visible : (fields : Fields) → (column : Nat) → ∀ c ∈ fields.chars column, isVisible c = true
  | .last key value, column => by
    simp only [Fields.chars, List.forall_mem_cons, List.forall_mem_append]
    exact ⟨key.bare.visible, rfl, value.visible column⟩
  | .more key value others, column => by
    simp only [Fields.chars, List.forall_mem_cons, List.forall_mem_append]
    exact ⟨key.bare.visible, rfl, value.visible column, visible_margin _, others.visible column⟩

end

mutual

/-- The text of a sheet has at least a third as many characters as the sheet has tokens. -/
theorem Sheet.length_tokens : (value : Sheet) → (column : Nat) →
    value.tokens.length ≤ 3 * (value.chars column).length
  | .line entry, column => by simp [Sheet.tokens, Sheet.chars]; omega
  | .list [], column => by simp [Sheet.tokens, Sheet.chars]
  | .list (first :: others), column => by
    have lines := length_lineTokens (column + indentStep) (first :: others)
    simp only [Sheet.tokens, Sheet.chars, List.length_cons, List.length_append, List.length_nil]
    omega
  | .record fields, column => by
    have inner := fields.length_tokens (column + indentStep)
    simp only [Sheet.tokens, Sheet.chars, List.length_cons, List.length_append, List.length_nil]
    omega

theorem Fields.length_tokens : (fields : Fields) → (column : Nat) →
    fields.tokens.length ≤ 3 * (fields.chars column).length
  | .last key value, column => by
    have inner := value.length_tokens column
    simp only [Fields.tokens, Fields.chars, List.length_cons, List.length_append, List.length_nil]
    omega
  | .more key value others, column => by
    have inner := value.length_tokens column
    have rest := others.length_tokens column
    simp only [Fields.tokens, Fields.chars, List.length_cons, List.length_append, List.length_nil]
    omega

end

theorem Scanner.Nears.tokens_fields {scanner : Scanner} {queue : List Token} {fields : Fields}
    (nears : scanner.Nears queue [] true 0 (fields.chars 0)) (room : fields.depth < maxLevel) {fuel : Nat}
    (enough : queue.length + 2 * fields.tokens.length + 4 ≤ fuel) :
    scanner.tokens fuel = queue ++ .blockMapping :: (fields.tokens ++ [.blockEnd, .streamEnd]) := by
  have nears : scanner.Nears queue [] true 0 (fields.chars 0 ++ (List.replicate 0 ' ' ++ [])) := by simpa using nears
  have opens : Opens .blockMapping 0 [] [] [.blockMapping] := .fresh nofun (by decide)
  have finds := nears.finds_fields fields opens (Nat.le_refl 0) .nil (by simpa using room)
  have none : closers [0] 0 = [] := rfl
  rw [none, List.append_nil] at finds
  have all := finds.tokens_eq (show _ ≤ fuel + queue.length by simp; omega)
  simpa using all

/-- The scanner finds the tokens of the fields, and the ends of their block and of the text. -/
theorem tokens_fields (fields : Fields) (room : fields.depth < maxLevel) :
    tokens (String.ofList (fields.chars 0)) =
      .streamStart :: .blockMapping :: (fields.tokens ++ [.blockEnd, .streamEnd]) := by
  have clear : ∀ c ∈ (String.ofList (fields.chars 0)).toList, Clear c := by
    rw [String.toList_ofList]
    exact fun c member => .of_visible (fields.visible 0 c member)
  have unmarked : (String.ofList (fields.chars 0)).toList.head? ≠ some byteOrderMark := by
    rw [String.toList_ofList]
    exact fun found => absurd (fields.visible 0 byteOrderMark (List.mem_of_mem_head? found)) (by decide)
  have start := ofText_clear clear unmarked
  rw [String.toList_ofList] at start
  have tight := fields.tight 0 []
  rw [List.append_nil] at tight
  have stands : (Scanner.ofText (String.ofList (fields.chars 0))).Stands [.streamStart] [] true (.along 0)
      (fields.chars 0) := by
    rw [start]
    exact ⟨rfl, rfl, rfl, rfl, rfl, rfl, rfl, rfl, Nat.le_refl _⟩
  have free : (Scanner.ofText (String.ofList (fields.chars 0))).Free := ⟨by rw [start]; rfl⟩
  have size : (Scanner.ofText (String.ofList (fields.chars 0))).size = (fields.chars 0).length := by rw [start]
  have bound := fields.length_tokens 0
  exact (stands.nears_here free tight rfl).tokens_fields room (by simp [size, Scanner.closers]; omega)

end Text

section Reading

/-- The token starts what stands under a name. -/
theorem Sheet.tokens_head (value : Sheet) :
    ∃ token tail, value.tokens = token :: tail ∧ endsBlockEntry token = false := by
  match value with
  | .line _ => exact ⟨_, _, rfl, rfl⟩
  | .list [] => exact ⟨_, _, rfl, rfl⟩
  | .list (_ :: _) => exact ⟨_, _, rfl, rfl⟩
  | .record _ => exact ⟨_, _, rfl, rfl⟩

theorem readItems_line (line : Line) (fuel : Nat) (rest : List Token) :
    readItems (fuel + 2) (.blockEntry :: line.token :: rest) =
      (readItems (fuel + 1) rest).map fun (items, rest) => (line.raw :: items, rest) := by
  rw [readItems]
  simp only [Line.token, readNode, reduceCtorEq, or_self, if_false, Option.bind_eq_bind, Option.bind_some]
  cases readItems (fuel + 1) rest <;> rfl

theorem readItems_lines (lines : List Line) (rest : List Token) {fuel : Nat}
    (enough : (lineTokens lines).length < fuel) :
    readItems fuel (lineTokens lines ++ .blockEnd :: rest) = some (lines.map Line.raw, rest) := by
  induction lines generalizing fuel with
  | nil =>
    obtain ⟨fuel, rfl⟩ : ∃ less, fuel = less + 1 := ⟨fuel - 1, by omega⟩
    rfl
  | cons line lines ih =>
    have shape : lineTokens (line :: lines) = .blockEntry :: line.token :: lineTokens lines := rfl
    rw [shape, List.length_cons, List.length_cons] at enough
    obtain ⟨fuel, rfl⟩ : ∃ less, fuel = less + 2 := ⟨fuel - 2, by omega⟩
    rw [shape, List.cons_append, List.cons_append, readItems_line, ih (by omega)]
    rfl

theorem readOptional_sheet (value : Sheet) (fuel : Nat) (rest : List Token) :
    readOptional (fuel + 1) true endsBlockEntry (value.tokens ++ rest) =
      readNode fuel true true (value.tokens ++ rest) := by
  obtain ⟨token, tail, shape, starts⟩ := value.tokens_head
  rw [shape, List.cons_append, readOptional, starts]
  rfl

theorem readEntries_field (key : String) (value : Sheet) (fuel : Nat) (rest : List Token) :
    readEntries (fuel + 3) (.key :: .scalar true key :: .value :: (value.tokens ++ rest)) = (do
      let (value, rest) ← readNode fuel true true (value.tokens ++ rest)
      let (entries, rest) ← readEntries (fuel + 2) rest
      return ((.scalar true key, value) :: entries, rest)) := by
  have named : readOptional (fuel + 2) true endsBlockEntry (.scalar true key :: .value :: (value.tokens ++ rest)) =
      some (.scalar true key, .value :: (value.tokens ++ rest)) := by
    simp [readOptional, readNode, endsBlockEntry]
  have given : readValue (fuel + 2) true endsBlockEntry (.value :: (value.tokens ++ rest)) =
      readNode fuel true true (value.tokens ++ rest) := by
    rw [readValue]
    exact readOptional_sheet value fuel rest
  rw [readEntries]
  simp [named, given]

mutual

/-- What stands under a name is read from its tokens. -/
theorem readNode_sheet : (value : Sheet) → (fuel : Nat) → value.tokens.length < fuel → (beside : Bool) →
    (rest : List Token) → readNode fuel true beside (value.tokens ++ rest) = some (value.raw, rest)
  | .line entry, fuel + 1, _, beside, rest => by simp [Sheet.tokens, Line.token, readNode, Sheet.raw, Line.raw]
  | .list [], fuel + 2, _, beside, rest => by simp [Sheet.tokens, readNode, readFlowItems, Sheet.raw]
  | .list (first :: others), fuel + 1, enough, beside, rest => by
    simp only [Sheet.tokens, List.length_cons, List.length_append, List.length_nil] at enough
    have items := readItems_lines (first :: others) rest (show _ < fuel by omega)
    simp [Sheet.tokens, readNode, items, Sheet.raw]
  | .record fields, fuel + 1, enough, beside, rest => by
    simp only [Sheet.tokens, List.length_cons, List.length_append, List.length_nil] at enough
    have entries := readEntries_fields fields fuel (by omega) rest
    simp [Sheet.tokens, readNode, entries, Sheet.raw]

/-- Fields are read from their tokens, up to the end of their block. -/
theorem readEntries_fields : (fields : Fields) → (fuel : Nat) → fields.tokens.length < fuel → (rest : List Token) →
    readEntries fuel (fields.tokens ++ .blockEnd :: rest) = some (fields.rawEntries, rest)
  | .last key value, fuel, enough, rest => by
    simp only [Fields.tokens, List.length_append, List.length_cons, List.length_nil] at enough
    obtain ⟨fuel, rfl⟩ : ∃ less, fuel = less + 3 := ⟨fuel - 3, by omega⟩
    have read := readNode_sheet value fuel (by omega) true (.blockEnd :: rest)
    have ended : readEntries (fuel + 2) (.blockEnd :: rest) = some ([], rest) := rfl
    simp [Fields.tokens, readEntries_field, read, ended, Fields.rawEntries]
  | .more key value others, fuel, enough, rest => by
    simp only [Fields.tokens, List.length_append, List.length_cons, List.length_nil] at enough
    obtain ⟨fuel, rfl⟩ : ∃ less, fuel = less + 3 := ⟨fuel - 3, by omega⟩
    have read := readNode_sheet value fuel (by omega) true (others.tokens ++ .blockEnd :: rest)
    have entries := readEntries_fields others (fuel + 2) (by omega) rest
    simp [Fields.tokens, readEntries_field, read, entries, Fields.rawEntries]

end

section Settled

variable (handles : Handles) (anchors : Anchors)

theorem Raw.settleItems_lines (lines : List Line) :
    settleItems handles (lines.map Line.raw) anchors = some (lines.map Line.node, anchors) := by
  induction lines with
  | nil => rfl
  | cons line lines ih => simp [settleItems, Line.raw, settle, ih, Line.node]

/-- No name is the key that brings in entries. -/
theorem Label.ne_merge (label : Label) : label.text ≠ "<<" := by
  intro same
  have letter := label.letter
  rw [same] at letter
  cases letter

mutual

theorem Sheet.settle_raw : (sheet : Sheet) → sheet.raw.settle handles anchors = some (sheet.node, anchors)
  | .line line => by simp [Sheet.raw, Line.raw, Raw.settle, Sheet.node, Line.node]
  | .list lines => by simp [Sheet.raw, Raw.settle, Raw.settleItems_lines, Sheet.node]
  | .record fields => by simp [Sheet.raw, Raw.settle, fields.settle_rawEntries, merged, Sheet.node]

theorem Fields.settle_rawEntries : (fields : Fields) →
    Raw.settleEntries handles fields.rawEntries anchors = some (fields.entries, [], anchors)
  | .last label value => by
    simp [Fields.rawEntries, Raw.settleEntries, Raw.settle, value.settle_raw, Raw.isMerge, label.ne_merge, key,
      Fields.entries]
  | .more label value rest => by
    simp [Fields.rawEntries, Raw.settleEntries, Raw.settle, value.settle_raw, rest.settle_rawEntries, Raw.isMerge,
      label.ne_merge, key, Fields.entries]

end

end Settled

/-- A sheet is read back from its text. -/
theorem parse_fields (fields : Fields) (room : fields.depth < maxLevel) :
    parseText (String.ofList (fields.chars 0)) = some (some (.mapping fields.entries)) := by
  unfold parseText
  rw [tokens_fields fields room]
  have entries := readEntries_fields fields (3 * fields.tokens.length + 11) (by omega) [.streamEnd]
  have settled : (Raw.mapping fields.rawEntries).settle [] [] = some (.mapping fields.entries, []) :=
    Sheet.settle_raw [] [] (.record fields)
  simp [readRoot, readNode, Nat.mul_add, entries, settled]

end Reading

end Lineside.Yaml
