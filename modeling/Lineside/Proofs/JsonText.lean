import Lineside.Json.Reader
import Lineside.Document.OfJson

/-! Compact JSON text is read back as the value it was written from, as long as the value is not nested
deeper than the reader goes and its numbers are 64-bit integers. A piece of text is always read in front
of some rest, which the reader leaves alone. -/

namespace Lineside.Json

theorem isDigit_eq (c : Char) : isDigit c = c.isDigit := by
  rfl

/-- The digits of a number in front of something that is no digit. -/
theorem digits_append {digits rest : List Char} (all : ∀ c ∈ digits, isDigit c = true)
    (stop : ∀ c ∈ rest.head?, isDigit c = false) :
    (digits ++ rest).takeWhile isDigit = digits ∧ (digits ++ rest).dropWhile isDigit = rest := by
  rw [List.takeWhile_append_of_pos all, List.dropWhile_append_of_pos all]
  cases rest with
  | nil => simp
  | cons c rest =>
    have ends : isDigit c = false := stop c rfl
    simp [ends]

theorem toDigits_isDigit {n : Nat} : ∀ c ∈ Nat.toDigits 10 n, isDigit c = true :=
  fun c member => (isDigit_eq c).trans (Nat.isDigit_of_mem_toDigits (by decide) (by decide) member)

theorem toDigits_cons (n : Nat) : ∃ c rest, Nat.toDigits 10 n = c :: rest ∧ isDigit c = true := by
  obtain ⟨c, rest, shape⟩ := List.exists_cons_of_ne_nil (Nat.toDigits_ne_nil (n := n) (b := 10))
  exact ⟨c, rest, shape, toDigits_isDigit c (shape ▸ List.mem_cons_self)⟩

theorem toList_minus (n : Nat) : ("-" ++ n.repr).toList = '-' :: Nat.toDigits 10 n := by
  simp [String.toList_append]

private theorem digitChar_ne_zero : ∀ n < 10, 0 < n → n.digitChar ≠ '0' := by
  decide

/-- Only the number zero starts with the digit zero. -/
theorem toDigits_head {n : Nat} (positive : 0 < n) : ∃ c rest, Nat.toDigits 10 n = c :: rest ∧ c ≠ '0' := by
  induction n using Nat.strongRecOn with
  | ind n ih =>
    by_cases small : n < 10
    · exact ⟨n.digitChar, [], Nat.toDigits_of_lt_base small, digitChar_ne_zero n small positive⟩
    · obtain ⟨c, rest, digits, nonzero⟩ := ih (n / 10) (by omega) (by omega)
      refine ⟨c, rest ++ [(n % 10).digitChar], ?_, nonzero⟩
      rw [Nat.toDigits_of_base_le (by decide) (by omega), digits, List.cons_append]

/-- What may follow a number: nothing that could belong to it. -/
def Stops (rest : List Char) : Prop :=
  ∀ c ∈ rest.head?, isDigit c = false ∧ c ≠ '.' ∧ c ≠ 'e' ∧ c ≠ 'E'

theorem Stops.cons {c : Char} (rest : List Char)
    (stop : isDigit c = false ∧ c ≠ '.' ∧ c ≠ 'e' ∧ c ≠ 'E') : Stops (c :: rest) := by
  intro first found
  cases found
  exact stop

section Numbers

variable {rest : List Char} (stops : Stops rest)
include stops

theorem wholeDigits_toDigits (n : Nat) :
    wholeDigits (Nat.toDigits 10 n ++ rest) = some (Nat.toDigits 10 n, rest) := by
  by_cases zero : n = 0
  · subst zero
    simp [wholeDigits]
  · obtain ⟨c, digits, shape, nonzero⟩ := toDigits_head (Nat.pos_of_ne_zero zero)
    have whole := digits_append (toDigits_isDigit (n := n)) fun c first => (stops c first).1
    rw [shape] at whole ⊢
    unfold wholeDigits
    split
    next same => exact absurd (List.cons.inj same).1 nonzero
    next => rw [digits1, whole.1, whole.2]

theorem fractionDigits_of_stops : fractionDigits rest = some ([], rest) := by
  unfold fractionDigits
  split
  next => exact absurd rfl (stops '.' rfl).2.1
  next => rfl

theorem exponentDigits_of_stops : exponentDigits rest = some ([], rest) := by
  rcases rest with _ | ⟨c, _ | ⟨d, rest⟩⟩
  · rfl
  all_goals
    obtain ⟨_, _, lower, upper⟩ := stops c rfl
    simp [exponentDigits, lower, upper]

omit stops in
theorem numberSign_toDigits (n : Nat) :
    numberSign (Nat.toDigits 10 n ++ rest) = ([], Nat.toDigits 10 n ++ rest) := by
  obtain ⟨c, digits, shape, digit⟩ := toDigits_cons n
  rw [shape]
  unfold numberSign
  split
  next same =>
    cases (List.cons.inj same).1
    cases digit
  next => rfl

theorem readNumber_repr (value : Int) :
    readNumber (value.repr.toList ++ rest) = some (value.repr.toList, rest) := by
  rw [Int.repr_eq_if]
  split
  · simp [readNumber, numberSign_toDigits, wholeDigits_toDigits stops, fractionDigits_of_stops stops,
      exponentDigits_of_stops stops]
  · rw [toList_minus, List.cons_append]
    simp [readNumber, numberSign, wholeDigits_toDigits stops, fractionDigits_of_stops stops, exponentDigits_of_stops stops]

end Numbers

/-- The codes that are written as four hexadecimal digits. -/
def codes : List Nat := List.range 0x20 ++ [0x26, 0x3c, 0x3e, 0x2028, 0x2029]

private theorem hex_codes :
    ∀ code ∈ codes, (Text.hex 4 code).length = 4 ∧ hexValue? (Text.hex 4 code) = some code := by
  decide

theorem readUnits_hex {code : Nat} (escaped : code ∈ codes) (rest : List Char) :
    readUnits ('\\' :: 'u' :: Text.hex 4 code ++ rest) =
      (readUnits rest).map fun (units, rest) => (code :: units, rest) := by
  obtain ⟨four, value⟩ := hex_codes code escaped
  obtain ⟨a, b, c, d, digits⟩ : ∃ a b c d, Text.hex 4 code = [a, b, c, d] := by
    match hex : Text.hex 4 code, four with
    | [a, b, c, d], _ => exact ⟨a, b, c, d, rfl⟩
  rw [digits] at value ⊢
  simp [readUnits, value]

/-- A character is written as an escape of two characters, as four digits, or as itself. -/
theorem escapedChar_cases (c : Char) :
    (∃ letter, escapedChar c = ['\\', letter] ∧ simpleEscape? letter = some c) ∨
    c.toNat ∈ codes ∧ escapedChar c = '\\' :: 'u' :: Text.hex 4 c.toNat ∨
    escapedChar c = [c] ∧ c ≠ '"' ∧ c ≠ '\\' ∧ 0x20 ≤ c.toNat ∧ c.toNat ≠ 0x2028 ∧ c.toNat ≠ 0x2029 := by
  unfold escapedChar
  split
  case h_8 quote backslash _ _ _ _ _ =>
    right
    split
    next special =>
      refine .inl ⟨?_, rfl⟩
      simp only [codes, List.mem_append, List.mem_range, List.mem_cons, List.not_mem_nil, or_false]
      rcases special with low | rfl | rfl | rfl | separator | separator
      · exact .inl low
      all_goals simp_all
    next plain =>
      simp only [not_or, Nat.not_lt] at plain
      exact .inr ⟨rfl, quote, backslash, plain.1, plain.2.2.2.2.1, plain.2.2.2.2.2⟩
  all_goals exact .inl ⟨_, rfl, by decide⟩

/-- A character is read back from what is written for it, as the unit that is its code. -/
theorem readUnits_escapedChar (c : Char) (rest : List Char) :
    readUnits (escapedChar c ++ rest) = (readUnits rest).map fun (units, rest) => (c.toNat :: units, rest) := by
  rcases escapedChar_cases c with
    ⟨letter, written, named⟩ | ⟨special, written⟩ | ⟨written, quote, backslash, visible, _⟩
  · rw [written]
    unfold simpleEscape? at named
    split at named <;> cases named <;> simp [readUnits, simpleEscape?]
  · rw [written]
    exact readUnits_hex special rest
  · rw [written, List.singleton_append, readUnits.eq_def]
    split
    next impossible => cases impossible
    next same => exact absurd (List.cons.inj same).1 quote
    next same => exact absurd (List.cons.inj same).1 backslash
    next same => exact absurd (List.cons.inj same).1 backslash
    next same =>
      obtain ⟨rfl, rfl⟩ := List.cons.inj same
      rw [if_neg (by simp only [not_or, Nat.not_lt]; exact ⟨backslash, visible⟩)]

/-- The character that is read of what is written for a character or a byte. -/
def pieceChar (piece : Except UInt8 Char) : Char := piece.toOption.getD Text.replacement

theorem readUnits_escapedPiece (piece : Except UInt8 Char) (rest : List Char) :
    readUnits (escapedPiece piece ++ rest) =
      (readUnits rest).map fun (units, rest) => ((pieceChar piece).toNat :: units, rest) := by
  cases piece with
  | ok c => exact readUnits_escapedChar c rest
  | error byte =>
    have value : hexValue? ['f', 'f', 'f', 'd'] = some Text.replacement.toNat := by decide
    simp [escapedPiece, readUnits, value, pieceChar, Except.toOption]

theorem readUnits_pieces (pieces : List (Except UInt8 Char)) (rest : List Char) :
    readUnits (pieces.flatMap escapedPiece ++ '"' :: rest) = some ((pieces.map pieceChar).map Char.toNat, rest) := by
  induction pieces with
  | nil => simp [readUnits]
  | cons piece pieces ih =>
    rw [List.flatMap_cons, List.append_assoc, readUnits_escapedPiece, ih]
    rfl

theorem not_surrogate (c : Char) : isHighSurrogate c.toNat = false ∧ isLowSurrogate c.toNat = false := by
  have valid : c.toNat < 0xD800 ∨ 0xDFFF < c.toNat ∧ c.toNat < 0x110000 := c.valid
  simp only [isHighSurrogate, isLowSurrogate, Bool.and_eq_false_iff, decide_eq_false_iff_not]
  omega

theorem unitChar_toNat (c : Char) : unitChar c.toNat = c := by
  simp [unitChar, not_surrogate c, Char.ofNat_toNat]

/-- The codes of characters hold no half of a pair, so each of them stands for itself. -/
theorem joinUnits_toNat : (cs : List Char) → joinUnits (cs.map Char.toNat) = cs
  | [] => rfl
  | [c] => by simp [joinUnits, unitChar_toNat]
  | first :: second :: rest => by
    have later := joinUnits_toNat (second :: rest)
    rw [List.map_cons] at later
    simp [joinUnits, not_surrogate first, unitChar_toNat, later]

/-- A name is read as its text. -/
theorem readString_renderName (name : Name) (rest : List Char) :
    ∃ body, renderName name ++ rest = '"' :: body ∧ readString body = some (name.text, rest) := by
  refine ⟨name.pieces.flatMap escapedPiece ++ '"' :: rest, by simp [renderName], ?_⟩
  have shown : name.pieces.map pieceChar = name.text.toList := (Text.toList_ofBytes _).symm
  rw [readString, readUnits_pieces, shown]
  simp [joinUnits_toNat]

/-- A name that is a text is written as that text. -/
theorem renderName_ofText (text : String) : renderName text = renderString text := by
  have pieces : (Name.ofText text).pieces = text.toList.map .ok := Text.pieces_toUTF8 text
  rw [renderName, renderString, pieces, List.flatMap_map]
  rfl

theorem readString_renderString (text : String) (rest : List Char) :
    ∃ body, renderString text ++ rest = '"' :: body ∧ readString body = some (text, rest) := by
  have read := readString_renderName text rest
  rwa [renderName_ofText, Name.text_ofText] at read

mutual

/-- How many arrays and objects lie within one another. -/
def depth : Json → Nat
  | .array items => itemsDepth items + 1
  | .object members => membersDepth members + 1
  | _ => 0

def itemsDepth : List Json → Nat
  | [] => 0
  | item :: rest => max (depth item) (itemsDepth rest)

def membersDepth : List (String × Json) → Nat
  | [] => 0
  | (_, value) :: rest => max (depth value) (membersDepth rest)

end

mutual

/-- All numbers are 64-bit integers. -/
def Whole : Json → Prop
  | .number text => ∃ value : Int64, text = value.toInt.repr
  | .array items => WholeItems items
  | .object members => WholeMembers members
  | _ => True

def WholeItems : List Json → Prop
  | [] => True
  | item :: rest => Whole item ∧ WholeItems rest

def WholeMembers : List (String × Json) → Prop
  | [] => True
  | (_, value) :: rest => Whole value ∧ WholeMembers rest

end

theorem skipBlank_cons {c : Char} (visible : isBlank c = false) (cs : List Char) :
    skipBlank (c :: cs) = c :: cs := by
  simp [skipBlank, visible]

/-- The text of an integer starts with a minus or a digit. -/
theorem repr_head (value : Int) : ∃ c cs, value.repr.toList = c :: cs ∧ (c = '-' ∨ isDigit c = true) := by
  rw [Int.repr_eq_if]
  split
  · obtain ⟨c, digits, shape, digit⟩ := toDigits_cons value.toNat
    exact ⟨c, digits, by rw [Nat.toList_repr, shape], .inr digit⟩
  · exact ⟨'-', Nat.toDigits 10 (-value).toNat, toList_minus _, .inl rfl⟩

theorem numeric_visible {c : Char} (numeric : c = '-' ∨ isDigit c = true) : isBlank c = false := by
  rcases numeric with rfl | digit
  · rfl
  · simp only [isBlank, Bool.or_eq_false_iff, beq_eq_false_iff_ne]
    refine ⟨⟨⟨?_, ?_⟩, ?_⟩, ?_⟩ <;> (rintro rfl; cases digit)

/-- Where the text of a value starts there is no blank, and no end of an array. -/
theorem render_head {value : Json} (whole : value.Whole) :
    ∃ c cs, value.render = c :: cs ∧ isBlank c = false ∧ c ≠ ']' := by
  cases value with
  | null => exact ⟨_, _, rfl, by decide, by decide⟩
  | bool value => cases value <;> exact ⟨_, _, rfl, by decide, by decide⟩
  | string text => exact ⟨_, _, rfl, by decide, by decide⟩
  | array items => exact ⟨_, _, rfl, by decide, by decide⟩
  | object members => exact ⟨_, _, rfl, by decide, by decide⟩
  | number text =>
    obtain ⟨value, rfl⟩ := whole
    obtain ⟨c, cs, shape, numeric⟩ := repr_head value.toInt
    refine ⟨c, cs, shape, numeric_visible numeric, ?_⟩
    rintro rfl
    rcases numeric with impossible | impossible <;> cases impossible

theorem readValue_number (value : Int) {fuel depth : Nat} {rest : List Char} (stops : Stops rest) :
    readValue (fuel + 1) depth (value.repr.toList ++ rest) = some (.number value.repr, rest) := by
  have number := readNumber_repr stops value
  obtain ⟨c, cs, shape, numeric⟩ := repr_head value
  have others : ∀ d : Char, (isDigit d = false ∧ d ≠ '-') → d ≠ c := by
    rintro d ⟨nodigit, nominus⟩ rfl
    rcases numeric with rfl | digit
    · exact nominus rfl
    · simp [nodigit] at digit
  rw [shape, List.cons_append] at number ⊢
  rw [readValue, skipBlank_cons (numeric_visible numeric)]
  split
  next same => exact absurd (List.cons.inj same).1.symm (others 'n' (by decide))
  next same => exact absurd (List.cons.inj same).1.symm (others 't' (by decide))
  next same => exact absurd (List.cons.inj same).1.symm (others 'f' (by decide))
  next same => exact absurd (List.cons.inj same).1.symm (others '"' (by decide))
  next same => exact absurd (List.cons.inj same).1.symm (others '[' (by decide))
  next same => exact absurd (List.cons.inj same).1.symm (others '\x7b' (by decide))
  next => simp [number, ← shape]

theorem renderItems_head {item : Json} (whole : item.Whole) (tail : List Json) :
    ∃ c cs, renderItems (item :: tail) = c :: cs ∧ isBlank c = false ∧ c ≠ ']' := by
  obtain ⟨c, cs, shape, visible, inside⟩ := render_head whole
  cases tail with
  | nil => exact ⟨c, cs ++ [']'], by simp [renderItems, shape], visible, inside⟩
  | cons next tail =>
    exact ⟨c, cs ++ ',' :: renderItems (next :: tail), by simp [renderItems, shape], visible, inside⟩

theorem readValue_array {fuel depth : Nat} {c : Char} (visible : isBlank c = false) (inside : c ≠ ']')
    (cs : List Char) :
    readValue (fuel + 1) (depth + 1) ('[' :: c :: cs) =
      (readItems fuel depth (c :: cs)).map fun (items, rest) => (.array items, rest) := by
  rw [readValue, skipBlank_cons (by decide)]
  simp only [skipBlank_cons visible]
  split
  next => omega
  next same => exact absurd (List.cons.inj same).1 inside
  next same _ =>
    cases same
    rfl

theorem readValue_object {fuel depth : Nat} (cs : List Char) :
    readValue (fuel + 1) (depth + 1) ('\x7b' :: '"' :: cs) =
      (readMembers fuel depth ('"' :: cs)).map fun (members, rest) => (.object members, rest) := by
  simp [readValue, skipBlank, isBlank]

mutual

/-- A value is read back in front of any rest, given two units of fuel for every character. -/
theorem readValue_render : (value : Json) → value.Whole → (fuel depth : Nat) →
    2 * value.render.length ≤ fuel → value.depth ≤ depth → (rest : List Char) → Stops rest →
      readValue fuel depth (value.render ++ rest) = some (value, rest)
  | value, whole, 0, _, enough, _, _, _ => by
    obtain ⟨c, cs, shape, _⟩ := render_head whole
    simp [shape] at enough
  | .null, _, fuel + 1, _, _, _, rest, _ => by simp [render, readValue, skipBlank, isBlank]
  | .bool true, _, fuel + 1, _, _, _, rest, _ => by simp [render, readValue, skipBlank, isBlank]
  | .bool false, _, fuel + 1, _, _, _, rest, _ => by simp [render, readValue, skipBlank, isBlank]
  | .number text, whole, fuel + 1, _, _, _, rest, stops => by
    obtain ⟨value, rfl⟩ := whole
    exact readValue_number value.toInt stops
  | .string text, _, fuel + 1, _, _, _, rest, _ => by
    obtain ⟨body, shape, read⟩ := readString_renderString text rest
    rw [render, shape, readValue, skipBlank_cons (by decide)]
    simp [read]
  | .array _, _, _ + 1, 0, _, deep, _, _ => by simp [Json.depth] at deep
  | .array [], _, fuel + 1, depth + 1, _, _, rest, _ => by
    simp [render, renderItems, readValue, skipBlank, isBlank]
  | .array (item :: tail), whole, fuel + 1, depth + 1, enough, deep, rest, _ => by
    simp only [Json.depth, Nat.add_le_add_iff_right, render, List.length_cons] at deep enough
    have read := readItems_render item tail whole fuel depth (by omega) deep rest
    obtain ⟨c, cs, shape, visible, inside⟩ := renderItems_head whole.1 tail
    rw [render, List.cons_append]
    rw [shape, List.cons_append] at read ⊢
    rw [readValue_array visible inside, read, Option.map_some]
  | .object _, _, _ + 1, 0, _, deep, _, _ => by simp [Json.depth] at deep
  | .object [], _, fuel + 1, depth + 1, _, _, rest, _ => by
    simp [render, renderMembers, readValue, skipBlank, isBlank]
  | .object ((key, value) :: tail), whole, fuel + 1, depth + 1, enough, deep, rest, _ => by
    simp only [Json.depth, Nat.add_le_add_iff_right, render, List.length_cons] at deep enough
    have read := readMembers_render key value tail whole fuel depth (by omega) deep rest
    obtain ⟨cs, shape⟩ : ∃ cs, renderMembers ((key, value) :: tail) = '"' :: cs := by
      cases tail <;> simp [renderMembers, renderString]
    rw [render, List.cons_append]
    rw [shape, List.cons_append] at read ⊢
    rw [readValue_object, read, Option.map_some]

theorem readItems_render : (item : Json) → (tail : List Json) → WholeItems (item :: tail) → (fuel depth : Nat) →
    2 * (renderItems (item :: tail)).length ≤ fuel → itemsDepth (item :: tail) ≤ depth → (rest : List Char) →
      readItems fuel depth (renderItems (item :: tail) ++ rest) = some (item :: tail, rest)
  | item, [], whole, 0, _, enough, _, _ => by simp [renderItems] at enough
  | item, next :: tail, whole, 0, _, enough, _, _ => by simp [renderItems] at enough
  | item, [], whole, fuel + 1, depth, enough, deep, rest => by
    simp only [renderItems, itemsDepth, List.length_append, List.length_cons] at enough deep
    have read := readValue_render item whole.1 fuel depth (by omega) (by omega) (']' :: rest) (.cons rest (by decide))
    simp [renderItems, readItems, read, skipBlank, isBlank]
  | item, next :: tail, whole, fuel + 1, depth, enough, deep, rest => by
    rw [itemsDepth] at deep
    simp only [renderItems, List.length_append, List.length_cons] at enough
    have first := readValue_render item whole.1 fuel depth (by omega) (by omega)
      (',' :: (renderItems (next :: tail) ++ rest)) (.cons _ (by decide))
    have others := readItems_render next tail whole.2 fuel depth (by omega) (by omega) rest
    simp [renderItems, readItems, first, others, skipBlank, isBlank]

theorem readMembers_render : (key : String) → (value : Json) → (tail : List (String × Json)) →
    WholeMembers ((key, value) :: tail) → (fuel depth : Nat) →
    2 * (renderMembers ((key, value) :: tail)).length ≤ fuel → membersDepth ((key, value) :: tail) ≤ depth →
      (rest : List Char) →
        readMembers fuel depth (renderMembers ((key, value) :: tail) ++ rest) = some ((key, value) :: tail, rest)
  | _, _, [], _, 0, _, enough, _, _ => by simp [renderMembers] at enough
  | _, _, next :: tail, _, 0, _, enough, _, _ => by simp [renderMembers] at enough
  | key, value, [], whole, fuel + 1, depth, enough, deep, rest => by
    simp only [renderMembers, membersDepth, List.length_append, List.length_cons] at enough deep
    have read := readValue_render value whole.1 fuel depth (by omega) (by omega) ('\x7d' :: rest) (.cons rest (by decide))
    obtain ⟨body, shape, name⟩ := readString_renderString key (':' :: (value.render ++ '\x7d' :: rest))
    rw [renderMembers, List.append_assoc, List.append_assoc, List.cons_append, List.singleton_append, shape]
    simp [readMembers, name, read, skipBlank, isBlank]
  | key, value, (other, next) :: tail, whole, fuel + 1, depth, enough, deep, rest => by
    rw [membersDepth] at deep
    simp only [renderMembers, List.length_append, List.length_cons] at enough
    have first := readValue_render value whole.1 fuel depth (by omega) (by omega)
      (',' :: (renderMembers ((other, next) :: tail) ++ rest)) (.cons _ (by decide))
    have others := readMembers_render other next tail whole.2 fuel depth (by omega) (by omega) rest
    obtain ⟨body, shape, name⟩ := readString_renderString key
      (':' :: (value.render ++ ',' :: (renderMembers ((other, next) :: tail) ++ rest)))
    have text : renderMembers ((key, value) :: (other, next) :: tail) ++ rest = '"' :: body := by
      rw [← shape, renderMembers]
      · simp
      · simp
    rw [text]
    simp [readMembers, name, first, others, skipBlank, isBlank]

end

mutual

/-- What can be read can also be read where values may be nested deeper. -/
theorem readValue_deeper : (fuel : Nat) → {depth deeper : Nat} → depth ≤ deeper → {cs : List Char} →
    {result : Json × List Char} → readValue fuel depth cs = some result → readValue fuel deeper cs = some result
  | 0, _, _, _, _, _, read => by simp [readValue] at read
  | fuel + 1, depth, deeper, within, cs, result, read => by
    rw [readValue] at read ⊢
    generalize skipBlank cs = cs at read ⊢
    split at read
    case h_5 rest =>
      obtain _ | deeper := deeper
      · obtain rfl := Nat.le_zero.mp within
        exact read
      · generalize skipBlank rest = rest at read ⊢
        split at read
        next => cases read
        next => exact read
        next =>
          obtain ⟨items, first, same⟩ := Option.map_eq_some_iff.mp read
          have deep := readItems_deeper fuel (Nat.le_of_succ_le_succ within) first
          exact Option.map_eq_some_iff.mpr ⟨items, deep, same⟩
    case h_6 rest =>
      obtain _ | deeper := deeper
      · obtain rfl := Nat.le_zero.mp within
        exact read
      · generalize skipBlank rest = rest at read ⊢
        split at read
        next => cases read
        next => exact read
        next =>
          obtain ⟨members, first, same⟩ := Option.map_eq_some_iff.mp read
          have deep := readMembers_deeper fuel (Nat.le_of_succ_le_succ within) first
          exact Option.map_eq_some_iff.mpr ⟨members, deep, same⟩
    all_goals exact read

theorem readItems_deeper : (fuel : Nat) → {depth deeper : Nat} → depth ≤ deeper → {cs : List Char} →
    {result : List Json × List Char} → readItems fuel depth cs = some result → readItems fuel deeper cs = some result
  | 0, _, _, _, _, _, read => by simp [readItems] at read
  | fuel + 1, depth, deeper, within, cs, result, read => by
    rw [readItems] at read ⊢
    obtain ⟨⟨item, rest⟩, first, read⟩ := Option.bind_eq_some_iff.mp read
    rw [readValue_deeper fuel within first]
    dsimp only [Option.bind_eq_bind, Option.bind_some] at read ⊢
    split at read
    next rest _ =>
      obtain ⟨items, others, read⟩ := Option.bind_eq_some_iff.mp read
      rw [readItems_deeper fuel within others]
      exact read
    next => exact read
    next => exact read

theorem readMembers_deeper : (fuel : Nat) → {depth deeper : Nat} → depth ≤ deeper → {cs : List Char} →
    {result : List (String × Json) × List Char} → readMembers fuel depth cs = some result →
      readMembers fuel deeper cs = some result
  | 0, _, _, _, _, _, read => by simp [readMembers] at read
  | fuel + 1, depth, deeper, within, cs, result, read => by
    rw [readMembers] at read ⊢
    split at read
    next rest _ =>
      obtain ⟨⟨key, rest⟩, named, read⟩ := Option.bind_eq_some_iff.mp read
      rw [named]
      dsimp only [Option.bind_eq_bind, Option.bind_some] at read ⊢
      split at read
      next rest _ =>
        obtain ⟨⟨value, rest⟩, first, read⟩ := Option.bind_eq_some_iff.mp read
        rw [readValue_deeper fuel within first]
        dsimp only [Option.bind_eq_bind, Option.bind_some] at read ⊢
        split at read
        next rest _ =>
          obtain ⟨members, others, read⟩ := Option.bind_eq_some_iff.mp read
          rw [readMembers_deeper fuel within others]
          exact read
        next => exact read
        next => exact read
      next => exact read
    next => exact read

end

mutual

/-- What can be read is not nested deeper than the reader goes. -/
theorem depth_of_readValue : (fuel : Nat) → {limit : Nat} → {cs rest : List Char} → {value : Json} →
    readValue fuel limit cs = some (value, rest) → value.depth ≤ limit
  | 0, _, _, _, _, read => by simp [readValue] at read
  | fuel + 1, limit, cs, rest, value, read => by
    rw [readValue] at read
    split at read
    case h_5 =>
      split at read
      next => cases read
      next =>
        cases read
        simp [depth, itemsDepth]
      next =>
        obtain ⟨⟨items, last⟩, inner, same⟩ := Option.map_eq_some_iff.mp read
        cases same
        exact Nat.succ_le_succ (depth_of_readItems fuel inner)
    case h_6 =>
      split at read
      next => cases read
      next =>
        cases read
        simp [depth, membersDepth]
      next =>
        obtain ⟨⟨members, last⟩, inner, same⟩ := Option.map_eq_some_iff.mp read
        cases same
        exact Nat.succ_le_succ (depth_of_readMembers fuel inner)
    case h_4 =>
      obtain ⟨⟨text, last⟩, _, same⟩ := Option.map_eq_some_iff.mp read
      cases same
      exact Nat.zero_le limit
    case h_7 =>
      obtain ⟨⟨text, last⟩, _, same⟩ := Option.map_eq_some_iff.mp read
      cases same
      exact Nat.zero_le limit
    all_goals
      cases read
      exact Nat.zero_le limit

theorem depth_of_readItems : (fuel : Nat) → {limit : Nat} → {cs rest : List Char} → {items : List Json} →
    readItems fuel limit cs = some (items, rest) → itemsDepth items ≤ limit
  | 0, _, _, _, _, read => by simp [readItems] at read
  | fuel + 1, limit, cs, rest, items, read => by
    rw [readItems] at read
    obtain ⟨⟨item, one⟩, first, read⟩ := Option.bind_eq_some_iff.mp read
    have bound := depth_of_readValue fuel first
    dsimp only at read
    split at read
    next =>
      obtain ⟨⟨others, two⟩, last, same⟩ := Option.bind_eq_some_iff.mp read
      cases same
      exact Nat.max_le.mpr ⟨bound, depth_of_readItems fuel last⟩
    next =>
      cases read
      exact Nat.max_le.mpr ⟨bound, Nat.zero_le limit⟩
    next => cases read

theorem depth_of_readMembers : (fuel : Nat) → {limit : Nat} → {cs rest : List Char} →
    {members : List (String × Json)} → readMembers fuel limit cs = some (members, rest) → membersDepth members ≤ limit
  | 0, _, _, _, _, read => by simp [readMembers] at read
  | fuel + 1, limit, cs, rest, members, read => by
    rw [readMembers] at read
    split at read
    next =>
      obtain ⟨⟨key, one⟩, _, read⟩ := Option.bind_eq_some_iff.mp read
      dsimp only at read
      split at read
      next =>
        obtain ⟨⟨value, two⟩, first, read⟩ := Option.bind_eq_some_iff.mp read
        have bound := depth_of_readValue fuel first
        dsimp only at read
        split at read
        next =>
          obtain ⟨⟨others, three⟩, last, same⟩ := Option.bind_eq_some_iff.mp read
          cases same
          exact Nat.max_le.mpr ⟨bound, depth_of_readMembers fuel last⟩
        next =>
          cases read
          exact Nat.max_le.mpr ⟨bound, Nat.zero_le limit⟩
        next => cases read
      next => cases read
    next => cases read

end

/-- What is written for a value is read as that value, unless it is nested too deep, given two units of fuel for every
character. -/
theorem readValue_written {value : Json} (whole : value.Whole) {fuel : Nat} (enough : 2 * value.render.length ≤ fuel) :
    readValue fuel maxDepth value.render = if value.depth ≤ maxDepth then some (value, []) else none := by
  have reads (depth : Nat) (shallow : value.depth ≤ depth) : readValue fuel depth value.render = some (value, []) := by
    have read := readValue_render value whole fuel depth enough shallow [] (by intro c found; cases found)
    rwa [List.append_nil] at read
  split
  next shallow => exact reads maxDepth shallow
  next deep =>
    cases read : readValue fuel maxDepth value.render with
    | none => rfl
    | some result =>
      -- It would also be read with more depth to spare, and then it is the value itself.
      have deeper := readValue_deeper fuel (Nat.le_max_left maxDepth value.depth) read
      rw [reads _ (Nat.le_max_right maxDepth value.depth)] at deeper
      cases deeper
      exact absurd (depth_of_readValue fuel read) deep

/-- Reading inverts writing, as deep as values may be nested. -/
theorem parse_text {value : Json} (whole : value.Whole) :
    parse value.text = if value.depth ≤ maxDepth then some value else none := by
  have written : value.text.toList = value.render := by simp [text]
  rw [parse, ← String.length_toList, written, readValue_written whole (Nat.le_add_right _ 2)]
  by_cases shallow : value.depth ≤ maxDepth <;> simp [shallow, skipBlank]

end Lineside.Json
