import Lineside.Yaml.Reader
import Lineside.Yaml.Writing

/-! Texts between quotes. A reader of quoted text takes the spaces of a gap at once and anything else character by
character, so a text is read back from what was written for it as soon as each of its characters is. -/

namespace Lineside.Yaml

section Places

@[simp] theorem Mark.right_zero (mark : Mark) : mark.right 0 = mark := rfl

@[simp] theorem Mark.right_right (mark : Mark) (first second : Nat) :
    (mark.right first).right second = mark.right (first + second) := by
  simp [right, Nat.add_assoc]

theorem Mark.right_inside {mark : Mark} (inside : 0 < mark.column) (count : Nat) : 0 < (mark.right count).column :=
  Nat.add_pos_left inside count

theorem Cursor.atMarker_inside {mark : Mark} (inside : 0 < mark.column) (rest : List Char) :
    atMarker ⟨rest, mark⟩ = false := by
  have column : (column ⟨rest, mark⟩ == 0) = false := by
    simpa [Cursor.column] using Nat.ne_of_gt inside
  rw [atMarker, column, Bool.false_and]

/-- Nothing here belongs to a gap. -/
def Solid (cs : List Char) : Prop := ∀ c ∈ cs.head?, isBlank c = false ∧ isBreak c = false

theorem Solid.cons {c : Char} (blank : isBlank c = false) (breaks : isBreak c = false) (cs : List Char) :
    Solid (c :: cs) := by
  intro first found
  cases found
  exact ⟨blank, breaks⟩

/-- Spaces count on the line on which a gap starts, and not as the indentation of a further one. -/
theorem Gap.extend_spaces (count : Nat) {cs : List Char} (solid : Solid cs) (gap : Gap) (mark : Mark) :
    Gap.extend gap (List.replicate count ' ' ++ cs) mark = { gap with
      blanks := gap.blanks ++ if gap.breaks.isEmpty then List.replicate count ' ' else []
      next := ⟨cs, mark.right count⟩ } := by
  induction count generalizing mark gap with
  | zero =>
    cases cs with
    | nil => simp [Gap.extend]
    | cons c cs =>
      obtain ⟨blank, breaks⟩ := solid c rfl
      simp [Gap.extend, blank, breaks]
  | succ count ih =>
    have blank : isBlank ' ' = true := rfl
    cases line : gap.breaks.isEmpty <;> simp [List.replicate_succ, Gap.extend, blank, line, ih, Nat.add_comm 1 count]

theorem Gap.after_spaces (count : Nat) {cs : List Char} (solid : Solid cs) (mark : Mark) :
    Gap.after ⟨List.replicate count ' ' ++ cs, mark⟩ =
      { blanks := List.replicate count ' ', next := ⟨cs, mark.right count⟩ } :=
  Gap.extend_spaces count solid _ mark

end Places

section Quotes

/-- Reads a text behind its opening quote. -/
abbrev QuotedReader := Nat → Cursor → Option (List Char × Cursor)

variable {read : QuotedReader} {shown : Char → List Char} {quote c : Char} {cs rest : List Char} {fuel : Nat}
  {mark : Mark}

/-- The reader keeps the spaces in front of what is no gap. -/
def KeepsSpaces (read : QuotedReader) : Prop :=
  ∀ {mark : Mark}, 0 < mark.column → ∀ (fuel count : Nat) {cs : List Char}, Solid cs →
    read (fuel + 1) ⟨List.replicate (count + 1) ' ' ++ cs, mark⟩ =
      (read fuel ⟨cs, mark.right (count + 1)⟩).map fun (text, last) => (List.replicate (count + 1) ' ' ++ text, last)

/-- What is written for a character is read as that character. -/
structure Shows (read : QuotedReader) (c : Char) (written : List Char) : Prop where
  present : written ≠ []
  solid : ∀ rest, Solid (written ++ rest)
  found : ∀ {mark : Mark}, 0 < mark.column → ∀ (fuel : Nat) (rest : List Char),
    read (fuel + 1) ⟨written ++ rest, mark⟩ =
      (read fuel ⟨rest, mark.right written.length⟩).map fun (text, last) => (c :: text, last)

/-- The quote ends the text in front of what follows it. -/
structure Ends (read : QuotedReader) (quote : Char) (rest : List Char) : Prop where
  solid : Solid (quote :: rest)
  found : ∀ {mark : Mark}, 0 < mark.column → ∀ fuel : Nat,
    read (fuel + 1) ⟨quote :: rest, mark⟩ = some ([], ⟨rest, mark.right 1⟩)

/-- What is read back from solid text is also read back behind spaces. -/
private theorem read_pad (keeps : KeepsSpaces read) {text : List Char} {length : Nat} (solid : Solid cs)
    (found : ∀ {mark : Mark} {fuel : Nat}, 0 < mark.column → length < fuel →
      read fuel ⟨cs, mark⟩ = some (text, ⟨rest, mark.right (length + 1)⟩))
    (count : Nat) (inside : 0 < mark.column) (enough : count + length < fuel) :
    read fuel ⟨List.replicate count ' ' ++ cs, mark⟩ =
      some (List.replicate count ' ' ++ text, ⟨rest, mark.right (count + length + 1)⟩) := by
  cases count with
  | zero => simpa using found inside (by omega)
  | succ count =>
    obtain ⟨fuel, rfl⟩ : ∃ less, fuel = less + 1 := ⟨fuel - 1, by omega⟩
    rw [keeps inside fuel count solid, found (Mark.right_inside inside _) (by omega), Option.map_some,
      Mark.right_right, ← Nat.add_assoc]

/-- The induction goes over the characters, with the spaces in front that wait to be taken together. -/
private theorem read_padded (keeps : KeepsSpaces read) (ends : Ends read quote rest) (cs : List Char)
    (each : ∀ c ∈ cs, c = ' ' ∧ shown c = [' '] ∨ Shows read c (shown c)) (count : Nat) (inside : 0 < mark.column)
    (enough : count + (cs.flatMap shown).length < fuel) :
    read fuel ⟨List.replicate count ' ' ++ (cs.flatMap shown ++ quote :: rest), mark⟩ =
      some (List.replicate count ' ' ++ cs, ⟨rest, mark.right (count + (cs.flatMap shown).length + 1)⟩) := by
  induction cs generalizing count mark fuel with
  | nil =>
    refine read_pad keeps ends.solid (fun {mark fuel} inside enough => ?_) count inside enough
    obtain ⟨fuel, rfl⟩ : ∃ less, fuel = less + 1 := ⟨fuel - 1, by omega⟩
    exact ends.found inside fuel
  | cons c cs ih =>
    obtain ⟨first, others⟩ := List.forall_mem_cons.mp each
    rw [List.flatMap_cons, List.length_append] at enough ⊢
    rw [List.append_assoc]
    rcases first with ⟨rfl, written⟩ | shows
    · rw [written, List.length_singleton] at enough ⊢
      have more := ih others (count + 1) inside (show count + 1 + (cs.flatMap shown).length < fuel by omega)
      rw [List.replicate_succ', List.append_assoc, List.append_assoc] at more
      rw [more, Nat.add_assoc count]
      rfl
    · refine read_pad keeps (shows.solid _) (fun {mark fuel} inside enough => ?_) count inside enough
      obtain ⟨fuel, rfl⟩ : ∃ less, fuel = less + 1 := ⟨fuel - 1, by omega⟩
      have grows : 0 < (shown c).length := List.length_pos_iff.mpr shows.present
      have more := ih others 0 (Mark.right_inside inside (shown c).length)
        (show 0 + (cs.flatMap shown).length < fuel by omega)
      rw [List.replicate_zero, List.nil_append, Nat.zero_add] at more
      rw [shows.found inside, more, Option.map_some, Mark.right_right, ← Nat.add_assoc]
      rfl

/-- A text is read back if each of its characters is. -/
theorem read_shown (keeps : KeepsSpaces read) (ends : Ends read quote rest) (cs : List Char)
    (each : ∀ c ∈ cs, c = ' ' ∧ shown c = [' '] ∨ Shows read c (shown c)) (inside : 0 < mark.column)
    (enough : (cs.flatMap shown).length < fuel) :
    read fuel ⟨cs.flatMap shown ++ quote :: rest, mark⟩ =
      some (cs, ⟨rest, mark.right ((cs.flatMap shown).length + 1)⟩) := by
  simpa using read_padded keeps ends cs each 0 inside (by simpa using enough)

end Quotes

section Double

variable {c : Char}

theorem keepsSpaces_readDoubleQuoted : KeepsSpaces readDoubleQuoted := by
  intro mark inside fuel count cs solid
  have gap := Gap.after_spaces (count + 1) solid mark
  rw [readDoubleQuoted, Cursor.atMarker_inside inside]
  rw [List.replicate_succ, List.cons_append] at gap ⊢
  simp [isBlank, gap, Gap.folded]

theorem ends_readDoubleQuoted (rest : List Char) : Ends readDoubleQuoted '"' rest where
  solid := .cons rfl rfl rest
  found := by
    intro mark inside fuel
    simp [readDoubleQuoted, Cursor.atMarker_inside inside, Cursor.skip]

theorem shows_raw (quote : c ≠ '"') (backslash : c ≠ '\\') (blank : isBlank c = false) (breaks : isBreak c = false) :
    Shows readDoubleQuoted c [c] where
  present := List.cons_ne_nil c []
  solid := fun rest => .cons blank breaks rest
  found := by
    intro mark inside fuel rest
    rw [List.singleton_append, readDoubleQuoted, Cursor.atMarker_inside inside]
    simp [Cursor.skip, blank, breaks]

theorem shows_escape {letter : Char} {digits : List Char} (whole : isBreak letter = false)
    (read : ∀ rest, readEscape (letter :: (digits ++ rest)) = some (c, digits.length + 1)) :
    Shows readDoubleQuoted c ('\\' :: letter :: digits) where
  present := List.cons_ne_nil _ _
  solid := fun rest => .cons rfl rfl _
  found := by
    intro mark inside fuel rest
    rw [List.cons_append, List.cons_append, readDoubleQuoted, Cursor.atMarker_inside inside]
    simp [whole, read, Cursor.skip]

end Double

section Escapes

private theorem hexDigit?_upper : ∀ digit < 16, hexDigit? digit.digitChar.toUpper = some digit := by
  decide

/-- The value of digits behind others. -/
private def hexValue (before : Nat) (digits : List Char) : Option Nat :=
  digits.foldlM (fun value c => (hexDigit? c).map (16 * value + ·)) before

private theorem hexValue_toDigits (n : Nat) : hexValue 0 ((Nat.toDigits 16 n).map Char.toUpper) = some n := by
  induction n using Nat.strongRecOn with
  | ind n ih =>
    by_cases small : n < 16
    · simp [Nat.toDigits_of_lt_base small, hexValue, hexDigit?_upper n small]
    · have less : n / 16 < n := Nat.div_lt_self (by omega) (by decide)
      have before := ih (n / 16) less
      unfold hexValue at before ⊢
      rw [Nat.toDigits_of_base_le (by decide) (by omega), List.map_append, List.foldlM_append, before]
      simp [hexDigit?_upper (n % 16) (Nat.mod_lt n (by decide)), Nat.div_add_mod]

private theorem hexValue_zeros (count : Nat) (digits : List Char) :
    hexValue 0 (List.replicate count '0' ++ digits) = hexValue 0 digits := by
  induction count with
  | zero => rfl
  | succ count ih =>
    have zero : hexDigit? '0' = some 0 := rfl
    rw [List.replicate_succ, List.cons_append, hexValue, List.foldlM_cons, zero]
    exact ih

/-- A character is named by its hexadecimal digits. -/
theorem codeChar?_upperHex (width : Nat) (c : Char) : codeChar? (upperHex width c.toNat) = some c := by
  have value : hexValue 0 (upperHex width c.toNat) = some c.toNat := by
    have upper : Char.toUpper '0' = '0' := rfl
    rw [upperHex, Text.hex, List.map_append, List.map_replicate, upper, hexValue_zeros, hexValue_toDigits]
  have named : c.toNat < 0x110000 ∧ ¬(0xD800 ≤ c.toNat ∧ c.toNat ≤ 0xDFFF) := by
    have valid : c.toNat < 0xD800 ∨ 0xDFFF < c.toNat ∧ c.toNat < 0x110000 := c.valid
    omega
  rw [hexValue] at value
  simp [codeChar?, value, named, Char.ofNat_toNat]

theorem length_upperHex {width value : Nat} (fits : (Nat.toDigits 16 value).length ≤ width) :
    (upperHex width value).length = width := by
  rw [upperHex, Text.hex, List.length_map, List.length_append, List.length_replicate, Nat.sub_add_cancel fits]

/-- A letter that can stand behind a backslash. -/
def isLetter (c : Char) : Bool := isVisible c && !isBreak c

/-- An escape is a letter, or a letter and hexadecimal digits. -/
theorem escape_cases (c : Char) :
    (∃ letter, escape c = ['\\', letter] ∧ isLetter letter = true ∧ escapeWidth? letter = none ∧
      simpleEscape? letter = some c) ∨
    ∃ letter width, escape c = '\\' :: letter :: upperHex width c.toNat ∧ isLetter letter = true ∧
      escapeWidth? letter = some width ∧ (Nat.toDigits 16 c.toNat).length ≤ width := by
  have named {code : Nat} (same : c.toNat = code) : c = Char.ofNat code :=
    (Char.ofNat_toNat c).symm.trans (congrArg Char.ofNat same)
  have bounded : c.toNat < 0x110000 := by
    have valid : c.toNat < 0xD800 ∨ 0xDFFF < c.toNat ∧ c.toNat < 0x110000 := c.valid
    omega
  have short {width : Nat} (positive : 0 < width) (fits : c.toNat < 16 ^ width) :
      (Nat.toDigits 16 c.toNat).length ≤ width := (Nat.length_toDigits_le_iff (by decide) positive).mpr fits
  unfold escape
  split
  case h_16 =>
    right
    split
    · exact ⟨'x', 2, rfl, rfl, rfl, short (by decide) (by omega)⟩
    · split
      · exact ⟨'u', 4, rfl, rfl, rfl, short (by decide) (by omega)⟩
      · exact ⟨'U', 8, rfl, rfl, rfl, short (by decide) (by omega)⟩
  all_goals
    left
    rename_i same
    rw [named same]
    exact ⟨_, rfl, rfl, rfl, rfl⟩

theorem shows_escape_char (c : Char) : Shows readDoubleQuoted c (escape c) := by
  rcases escape_cases c with
    ⟨letter, written, fits, single, named⟩ | ⟨letter, width, written, fits, named, short⟩
  · rw [written]
    refine shows_escape ?_ fun rest => by simp [readEscape, single, named]
    simpa using (Bool.and_eq_true_iff.mp fits).2
  · have length := length_upperHex short
    rw [written]
    refine shows_escape ?_ fun rest => ?_
    · simpa using (Bool.and_eq_true_iff.mp fits).2
    · have digits : (upperHex width c.toNat ++ rest).take width = upperHex width c.toNat := List.take_left' length
      simp [readEscape, named, digits, length, codeChar?_upperHex]

private theorem toDigits_digitChar (n : Nat) : ∀ c ∈ Nat.toDigits 16 n, ∃ digit < 16, c = digit.digitChar := by
  induction n using Nat.strongRecOn with
  | ind n ih =>
    by_cases small : n < 16
    · rw [Nat.toDigits_of_lt_base small]
      exact List.forall_mem_cons.mpr ⟨⟨n, small, rfl⟩, nofun⟩
    · have less : n / 16 < n := Nat.div_lt_self (by omega) (by decide)
      rw [Nat.toDigits_of_base_le (by decide) (by omega), List.forall_mem_append]
      exact ⟨ih (n / 16) less, List.forall_mem_cons.mpr ⟨⟨n % 16, Nat.mod_lt n (by decide), rfl⟩, nofun⟩⟩

private theorem isVisible_upper : ∀ digit < 16, isVisible digit.digitChar.toUpper = true := by
  decide

theorem isVisible_upperHex (width value : Nat) : ∀ c ∈ upperHex width value, isVisible c = true := by
  intro c member
  simp only [upperHex, Text.hex, List.map_append, List.map_replicate, List.mem_append, List.mem_map] at member
  rcases member with zero | ⟨d, inside, rfl⟩
  · rw [List.eq_of_mem_replicate zero]
    rfl
  · obtain ⟨digit, small, rfl⟩ := toDigits_digitChar value d inside
    exact isVisible_upper digit small

theorem isVisible_escape (c : Char) : ∀ d ∈ escape c, isVisible d = true := by
  rcases escape_cases c with ⟨letter, written, fits, _⟩ | ⟨letter, width, written, fits, _⟩
  · rw [written]
    exact List.forall_mem_cons.mpr ⟨rfl, List.forall_mem_cons.mpr ⟨(Bool.and_eq_true_iff.mp fits).1, nofun⟩⟩
  · rw [written]
    exact List.forall_mem_cons.mpr
      ⟨rfl, List.forall_mem_cons.mpr ⟨(Bool.and_eq_true_iff.mp fits).1, isVisible_upperHex _ _⟩⟩

end Escapes

section Written

variable {cs rest : List Char} {fuel : Nat} {mark : Mark}

/-- What stands for a character between double quotes. Where the text starts with a mark, that is always an escape. -/
def shownDouble (marked : Bool) (c : Char) : List Char :=
  if marked || !isVisible c || isBreak c || c == '"' || c == '\\' then escape c else [c]

theorem doubleQuoted_eq (cs : List Char) :
    doubleQuoted cs = '"' :: cs.flatMap (shownDouble (cs.head? == some byteOrderMark)) ++ ['"'] := rfl

theorem isBlank_visible {c : Char} (visible : isVisible c = true) (other : c ≠ ' ') : isBlank c = false := by
  simp only [isBlank, Bool.or_eq_false_iff, beq_eq_false_iff_ne]
  refine ⟨other, ?_⟩
  rintro rfl
  exact absurd visible (by decide)

theorem shows_shownDouble (marked : Bool) (c : Char) :
    c = ' ' ∧ shownDouble marked c = [' '] ∨ Shows readDoubleQuoted c (shownDouble marked c) := by
  unfold shownDouble
  split
  next => exact .inr (shows_escape_char c)
  next raw =>
    simp only [Bool.or_eq_true, Bool.not_eq_true', beq_iff_eq, not_or, Bool.not_eq_true, Bool.not_eq_false] at raw
    obtain ⟨⟨⟨⟨_, visible⟩, breaks⟩, quote⟩, backslash⟩ := raw
    by_cases space : c = ' '
    · exact .inl ⟨space, by rw [space]⟩
    · exact .inr (shows_raw quote backslash (isBlank_visible visible space) breaks)

theorem isVisible_shownDouble (marked : Bool) (c : Char) : ∀ d ∈ shownDouble marked c, isVisible d = true := by
  unfold shownDouble
  split
  next => exact isVisible_escape c
  next raw =>
    simp only [Bool.or_eq_true, Bool.not_eq_true', not_or, Bool.not_eq_false] at raw
    exact List.forall_mem_cons.mpr ⟨raw.1.1.1.2, nofun⟩

theorem readDoubleQuoted_shown (marked : Bool) (cs rest : List Char) (inside : 0 < mark.column)
    (enough : (cs.flatMap (shownDouble marked)).length < fuel) :
    readDoubleQuoted fuel ⟨cs.flatMap (shownDouble marked) ++ '"' :: rest, mark⟩ =
      some (cs, ⟨rest, mark.right ((cs.flatMap (shownDouble marked)).length + 1)⟩) :=
  read_shown keepsSpaces_readDoubleQuoted (ends_readDoubleQuoted rest) cs (fun c _ => shows_shownDouble marked c) inside
    enough

/-- What stands for a character between single quotes. -/
def shownSingle (c : Char) : List Char := if c = '\x27' then [c, c] else [c]

theorem indentLines_line (spaces : Nat) (shown : Char → List Char) (line : ∀ c ∈ cs, isBreak c = false) :
    indentLines spaces shown false cs = cs.flatMap shown := by
  induction cs with
  | nil => rfl
  | cons c cs ih =>
    obtain ⟨first, others⟩ := List.forall_mem_cons.mp line
    simp [indentLines, first, ih others]

theorem singleQuoted_eq (spaces : Nat) (line : ∀ c ∈ cs, isBreak c = false) :
    singleQuoted spaces cs = '\x27' :: cs.flatMap shownSingle ++ ['\x27'] := by
  rw [singleQuoted, indentLines_line spaces _ line]
  rfl

theorem keepsSpaces_readSingleQuoted : KeepsSpaces readSingleQuoted := by
  intro mark inside fuel count cs solid
  have gap := Gap.after_spaces (count + 1) solid mark
  rw [readSingleQuoted, Cursor.atMarker_inside inside]
  rw [List.replicate_succ, List.cons_append] at gap ⊢
  simp [isBlank, gap, Gap.folded]

theorem ends_readSingleQuoted (apart : rest.head? ≠ some '\x27') : Ends readSingleQuoted '\x27' rest where
  solid := .cons rfl rfl rest
  found := by
    intro mark inside fuel
    cases rest with
    | nil => simp [readSingleQuoted, Cursor.atMarker_inside inside, Cursor.skip]
    | cons c rest =>
      have other : c ≠ '\x27' := by simpa using apart
      simp [readSingleQuoted, Cursor.atMarker_inside inside, Cursor.skip, other]

theorem shows_shownSingle {c : Char} (visible : isVisible c = true) (line : isBreak c = false) :
    c = ' ' ∧ shownSingle c = [' '] ∨ Shows readSingleQuoted c (shownSingle c) := by
  by_cases space : c = ' '
  · exact .inl ⟨space, by rw [space]; rfl⟩
  · have blank := isBlank_visible visible space
    right
    by_cases quote : c = '\x27'
    · subst quote
      refine ⟨by decide, fun rest => .cons rfl rfl _, fun {mark} inside fuel rest => ?_⟩
      simp [shownSingle, readSingleQuoted, Cursor.atMarker_inside inside, Cursor.skip]
    · rw [shownSingle, if_neg quote]
      refine ⟨List.cons_ne_nil c [], fun rest => .cons blank line rest, fun {mark} inside fuel rest => ?_⟩
      rw [List.singleton_append, readSingleQuoted, Cursor.atMarker_inside inside]
      simp [Cursor.skip, blank, line, quote]

theorem readSingleQuoted_shown (visible : ∀ c ∈ cs, isVisible c = true) (line : ∀ c ∈ cs, isBreak c = false)
    (apart : rest.head? ≠ some '\x27') (inside : 0 < mark.column)
    (enough : (cs.flatMap shownSingle).length < fuel) :
    readSingleQuoted fuel ⟨cs.flatMap shownSingle ++ '\x27' :: rest, mark⟩ =
      some (cs, ⟨rest, mark.right ((cs.flatMap shownSingle).length + 1)⟩) :=
  read_shown keepsSpaces_readSingleQuoted (ends_readSingleQuoted apart) cs
    (fun c member => shows_shownSingle (visible c member) (line c member)) inside enough

end Written

end Lineside.Yaml
