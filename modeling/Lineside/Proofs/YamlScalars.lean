import Lineside.Proofs.JsonText
import Lineside.Proofs.YamlQuotes

/-! JSON text within a line of YAML. A string that was written for JSON is read back between double quotes, and a
number or a word as a plain scalar, in front of any rest of the line. -/

namespace Lineside.Yaml

/-- The place behind a number of characters in the first line. -/
def Mark.along (index : Nat) : Mark := ⟨index, 0, index⟩

@[simp] theorem Mark.along_right (index count : Nat) : (along index).right count = along (index + count) := rfl

/-- A character that is read back once it was written as part of a string: it is written as an escape, or may
stand in YAML text and is no line break there. -/
def isLegible (c : Char) : Bool := c.toNat < 0x20 || (isAllowed c && c.toNat != 0x85)

section Quoted

private theorem hex_codes : ∀ code ∈ Json.codes, (Text.hex 4 code).length = 4 ∧
    codeChar? (Text.hex 4 code) = some (Char.ofNat code) := by
  decide

private theorem readEscape_simple {letter c : Char} (named : Json.simpleEscape? letter = some c) (rest : List Char) :
    readEscape (letter :: rest) = some (c, 1) ∧ isBreak letter = false := by
  unfold Json.simpleEscape? at named
  split at named <;> cases named <;> exact ⟨rfl, rfl⟩

private theorem solid_raw {c : Char} (other : c ≠ ' ') (visible : 0x20 ≤ c.toNat) (line : c.toNat ≠ 0x2028)
    (paragraph : c.toNat ≠ 0x2029) : isBlank c = false ∧ isBreak c = false := by
  simp only [isBlank, isBreak, Bool.or_eq_false_iff, beq_eq_false_iff_ne]
  refine ⟨⟨other, ?_⟩, ⟨?_, ?_⟩, ?_⟩
  · rintro rfl
    exact absurd visible (by decide)
  · rintro rfl
    exact absurd visible (by decide)
  · rintro rfl
    exact line rfl
  · rintro rfl
    exact paragraph rfl

/-- A character is read back from what is written for it in JSON. -/
theorem shows_escapedChar (c : Char) :
    c = ' ' ∧ Json.escapedChar c = [' '] ∨ Shows readDoubleQuoted c (Json.escapedChar c) := by
  rcases Json.escapedChar_cases c with
    ⟨letter, written, named⟩ | ⟨special, written⟩ | ⟨written, quote, backslash, visible, line, paragraph⟩
  · obtain ⟨_, whole⟩ := readEscape_simple named []
    rw [written]
    exact .inr (shows_escape whole fun rest => (readEscape_simple named rest).1)
  · obtain ⟨four, char⟩ := hex_codes c.toNat special
    rw [written]
    refine .inr (shows_escape rfl fun rest => ?_)
    have digits : (Text.hex 4 c.toNat ++ rest).take 4 = Text.hex 4 c.toNat := List.take_left' four
    simp [readEscape, escapeWidth?, digits, four, char, Char.ofNat_toNat]
  · by_cases space : c = ' '
    · exact .inl ⟨space, by rw [written, space]⟩
    · obtain ⟨blank, breaks⟩ := solid_raw space visible line paragraph
      rw [written]
      exact .inr (shows_raw quote backslash blank breaks)

/-- A string is read back from what is written for it in JSON. -/
theorem readDoubleQuoted_escaped {index : Nat} (inside : 0 < index) (cs rest : List Char) {fuel : Nat}
    (enough : (cs.flatMap Json.escapedChar).length < fuel) :
    readDoubleQuoted fuel ⟨cs.flatMap Json.escapedChar ++ '"' :: rest, .along index⟩ =
      some (cs, ⟨rest, .along (index + (cs.flatMap Json.escapedChar).length + 1)⟩) :=
  read_shown keepsSpaces_readDoubleQuoted (ends_readDoubleQuoted rest) cs (fun c _ => shows_escapedChar c) inside enough

end Quoted

section Plain

/-- A character of a number, or of a word that stands for a truth value or for nothing. -/
def isWordChar (c : Char) : Bool := c.isAlphanum || c == '-'

/-- What follows a value inside a collection. -/
def Closes (rest : List Char) : Prop := ∃ c tail, rest = c :: tail ∧ (c = ',' ∨ c = ']' ∨ c = '\x7d')

theorem Closes.solid {rest : List Char} (closes : Closes rest) : Solid rest := by
  obtain ⟨c, tail, rfl, rfl | rfl | rfl⟩ := closes <;> exact .cons rfl rfl tail

theorem isWordChar_apart {c : Char} (word : isWordChar c = true) (d : Char) (other : isWordChar d = false) : c ≠ d := by
  rintro rfl
  simp [other] at word

theorem Solid.word {c : Char} (word : isWordChar c = true) (cs : List Char) : Solid (c :: cs) := by
  have apart := isWordChar_apart word
  refine .cons ?_ ?_ cs
  · simp [isBlank, apart ' ' (by decide), apart '\t' (by decide)]
  · simp [isBreak, apart '\n' (by decide), apart lineSeparator (by decide), apart paragraphSeparator (by decide)]

private theorem plainWord_wordChar {c : Char} (word : isWordChar c = true) (rest : List Char) :
    plainWord true (c :: rest) = (c :: (plainWord true rest).1, (plainWord true rest).2) := by
  have apart := isWordChar_apart word
  obtain ⟨blank, breaks⟩ := Solid.word word rest c rfl
  have goes : endsFlowWord c rest = false := by
    simp [endsFlowWord, apart ',' (by decide), apart '[' (by decide), apart ']' (by decide), apart '\x7b' (by decide),
      apart '\x7d' (by decide), apart '?' (by decide)]
  simp [plainWord, blank, breaks, goes, apart ':' (by decide)]

theorem plainWord_append {word rest : List Char} (all : ∀ c ∈ word, isWordChar c = true) (closes : Closes rest) :
    plainWord true (word ++ rest) = (word, rest) := by
  induction word with
  | nil => obtain ⟨c, tail, rfl, rfl | rfl | rfl⟩ := closes <;> rfl
  | cons c word ih =>
    obtain ⟨first, others⟩ := List.forall_mem_cons.mp all
    rw [List.cons_append, plainWord_wordChar first, ih others]

/-- A word in front of the end of an entry is a scalar of its own. -/
theorem readPlain_append {word rest : List Char} (all : ∀ c ∈ word, isWordChar c = true) (closes : Closes rest)
    (fuel index : Nat) :
    readPlain true 0 (fuel + 1) ⟨word ++ rest, .along index⟩ =
      some ⟨word, ⟨rest, .along (index + word.length)⟩, false⟩ := by
  have gap : Gap.after ⟨rest, .along (index + word.length)⟩ = { next := ⟨rest, .along (index + word.length)⟩ } :=
    Gap.after_spaces 0 closes.solid _
  simp [readPlain, plainWord_append all closes, Cursor.skip, gap]

end Plain

end Lineside.Yaml
