import Lineside.Proofs.YamlReading

/-! Texts written on a line. A text stands there without quotes where nothing in it ends a plain scalar or starts a
comment, and between quotes otherwise. Of a plain scalar the reader takes one word after the other, with the spaces
between them. -/

namespace Lineside.Yaml

section Flow

variable {cs rest : List Char}

/-- A plain scalar goes on over these characters: no colon among them ends a word, and no space is the last of them or
stands in front of a comment. -/
def Flows : List Char → Prop
  | [] => True
  | c :: rest => isBreak c = false ∧ c ≠ '\t' ∧ (c = ':' → endsWord rest = false) ∧
      (c = ' ' → ∃ d ∈ rest.head?, d ≠ '#') ∧ Flows rest

theorem Flows.right {first : List Char} (flows : Flows (first ++ rest)) : Flows rest := by
  induction first with
  | nil => exact flows
  | cons c first ih => exact ih flows.2.2.2.2

/-- Behind the spaces between two words, the second one starts. -/
theorem Flows.spaces (flows : Flows (' ' :: cs)) :
    ∃ count more, ' ' :: cs = List.replicate (count + 1) ' ' ++ more ∧ Flows more ∧
      ∃ d ∈ more.head?, d ≠ ' ' ∧ d ≠ '#' := by
  induction cs with
  | nil =>
    obtain ⟨d, none, _⟩ := flows.2.2.2.1 rfl
    cases none
  | cons c cs ih =>
    obtain ⟨d, found, comment⟩ := flows.2.2.2.1 rfl
    cases found
    by_cases space : c = ' '
    · subst space
      obtain ⟨count, more, same, rest⟩ := ih flows.2.2.2.2
      exact ⟨count + 1, more, by rw [same, List.replicate_succ (n := count + 1), List.cons_append], rest⟩
    · exact ⟨0, c :: cs, rfl, flows.2.2.2.2, c, rfl, space, comment⟩

/-- A word without spaces is left, or spaces in front of another word. -/
theorem Flows.parts (flows : Flows cs) :
    cs.dropWhile (· != ' ') = [] ∨ ∃ count more, cs.dropWhile (· != ' ') = List.replicate (count + 1) ' ' ++ more ∧
      Flows more ∧ ∃ d ∈ more.head?, d ≠ ' ' ∧ d ≠ '#' := by
  cases left : cs.dropWhile (· != ' ') with
  | nil => exact .inl rfl
  | cons c tail =>
    obtain rfl : c = ' ' := by
      have first := List.head?_dropWhile_not (· != ' ') cs
      rw [left] at first
      simpa using first
    have follows : Flows (cs.takeWhile (· != ' ') ++ ' ' :: tail) := by
      rwa [← left, List.takeWhile_append_dropWhile]
    exact .inr follows.right.spaces

theorem Flows.solid (flows : Flows cs) {d : Char} (found : d ∈ cs.head?) (space : d ≠ ' ') (rest : List Char) :
    Solid (cs ++ rest) := by
  obtain ⟨tail, rfl⟩ : ∃ tail, cs = d :: tail := List.head?_eq_some_iff.mp found
  refine .cons ?_ flows.1 _
  simp [isBlank, space, flows.2.1]

/-- The first word goes up to a space or to the end. -/
theorem Flows.plainWord (flows : Flows cs) (stops : plainWord false rest = ([], rest)) :
    plainWord false (cs ++ rest) = (cs.takeWhile (· != ' '), cs.dropWhile (· != ' ') ++ rest) := by
  induction cs with
  | nil => exact stops
  | cons c cs ih =>
    obtain ⟨breaks, tab, colon, _, others⟩ := flows
    by_cases space : c = ' '
    · subst space
      rfl
    · have goes : (c == ':' && endsWord (cs ++ rest)) = false := by
        by_cases mark : c = ':'
        · have long := colon mark
          cases cs with
          | nil => cases long
          | cons d cs => simpa [mark, endsWord] using long
        · simp [mark]
      simp [Yaml.plainWord, isBlank, space, tab, breaks, goes, ih others]

end Flow

section Plain

variable {indent : Nat} {cs rest : List Char} {mark : Mark} {last : Cursor} {broken : Bool}

/-- A plain scalar of a block ends in front of these characters, either on its line or with it. -/
structure Stops (indent : Nat) (rest : List Char) (mark : Mark) (last : Cursor) (broken : Bool) : Prop where
  word : plainWord false rest = ([], rest)
  gap : ∃ breaks, Gap.after ⟨rest, mark⟩ = { breaks, next := last } ∧ breaks.isEmpty = !broken
  outside : broken = true → last.column < indent

theorem stops_colon (ends : endsWord rest = true) : Stops indent (':' :: rest) mark ⟨':' :: rest, mark⟩ false where
  word := by simp [plainWord, ends]
  gap := ⟨[], rfl, rfl⟩
  outside := nofun

theorem stops_line (solid : Solid cs) {column : Nat} (outside : column < indent) :
    Stops indent ('\n' :: (List.replicate column ' ' ++ cs)) mark ⟨cs, mark.nextLine.right column⟩ true where
  word := rfl
  gap := ⟨['\n'], Gap.extend_spaces column solid _ _, rfl⟩
  outside := fun _ => by
    simpa [Cursor.column, Mark.right, Mark.nextLine] using outside

/-- After a word and spaces the reader goes on where another word starts. -/
theorem readPlain_word {word more : List Char} {count : Nat}
    (read : plainWord false cs = (word, List.replicate (count + 1) ' ' ++ more)) (solid : Solid more)
    (comment : more.head? ≠ some '#') (next : (plainWord false more).1 ≠ []) (room : indent ≤ mark.column + 1)
    (fuel : Nat) :
    readPlain false indent (fuel + 1) ⟨cs, mark⟩ =
      (readPlain false indent fuel ⟨more, mark.right (word.length + (count + 1))⟩).map fun plain =>
        { plain with text := word ++ List.replicate (count + 1) ' ' ++ plain.text } := by
  have gap := Gap.after_spaces (count + 1) solid (mark.right word.length)
  rw [Mark.right_right] at gap
  have ahead : 0 < (mark.right (word.length + (count + 1))).column := by
    simp only [Mark.right]
    omega
  have deep : ¬ (mark.right (word.length + (count + 1))).column < indent := by
    simp only [Mark.right]
    omega
  simp only [readPlain, read, Cursor.skip, gap, Cursor.atMarker_inside ahead]
  simp [comment, Cursor.column, deep, next, Gap.folded]

theorem readPlain_last {word : List Char} (read : plainWord false cs = (word, rest))
    (stops : Stops indent rest (mark.right word.length) last broken) (fuel : Nat) :
    readPlain false indent (fuel + 1) ⟨cs, mark⟩ = some ⟨word, last, broken⟩ := by
  obtain ⟨breaks, gap, ended⟩ := stops.gap
  have outside := stops.outside
  cases broken <;> simp_all [readPlain, Cursor.skip]

/-- A plain scalar is read up to where it ends. The induction goes over its words. -/
theorem Flows.readPlain (flows : Flows cs) (stops : Stops indent rest (mark.right cs.length) last broken)
    (room : indent ≤ mark.column + 1) {fuel : Nat} (enough : cs.length < fuel) :
    readPlain false indent fuel ⟨cs ++ rest, mark⟩ = some ⟨cs, last, broken⟩ := by
  induction size : cs.length using Nat.strongRecOn generalizing cs mark fuel with
  | ind size ih =>
    subst size
    obtain ⟨fuel, rfl⟩ : ∃ less, fuel = less + 1 := ⟨fuel - 1, by omega⟩
    have read := flows.plainWord stops.word
    have parts : cs.takeWhile (· != ' ') ++ cs.dropWhile (· != ' ') = cs := List.takeWhile_append_dropWhile
    rcases flows.parts with whole | ⟨count, more, left, others, d, found, space, comment⟩
    · rw [whole, List.append_nil] at parts
      rw [whole, parts, List.nil_append] at read
      exact readPlain_last read stops fuel
    · rw [left] at parts
      rw [left, List.append_assoc] at read
      have length := congrArg List.length parts
      simp only [List.length_append, List.length_replicate] at length
      have starts : ∃ tail, more = d :: tail := List.head?_eq_some_iff.mp found
      have next : (Yaml.plainWord false (more ++ rest)).1 ≠ [] := by
        obtain ⟨tail, rfl⟩ := starts
        rw [others.plainWord stops.word]
        simp [space]
      have goes : (more ++ rest).head? ≠ some '#' := by
        obtain ⟨tail, rfl⟩ := starts
        simpa using comment
      have behind : Yaml.readPlain false indent fuel
          ⟨more ++ rest, mark.right ((cs.takeWhile (· != ' ')).length + (count + 1))⟩ = some ⟨more, last, broken⟩ := by
        refine ih more.length (by omega) others ?_ ?_ (by omega) rfl
        · rwa [Mark.right_right, show _ + more.length = cs.length by omega]
        · simp only [Mark.right]
          omega
      rw [readPlain_word read (others.solid found space rest) goes next room, behind, Option.map_some,
        List.append_assoc, parts]

end Plain

section Bare

variable {cs : List Char}

/-- A text that can stand in a block without quotes. -/
structure Bare (cs : List Char) : Prop where
  visible : ∀ c ∈ cs, isVisible c = true
  flows : Flows cs
  present : cs ≠ []
  starts : ∀ rest, startsPlain false (cs ++ rest) = true

theorem tight_of_startsPlain (starts : startsPlain false cs = true) : Tight cs := by
  cases cs with
  | nil => exact .nil
  | cons c cs =>
    simp only [startsPlain] at starts
    split at starts
    next => cases starts
    next special =>
      have comment : c ≠ '#' := by
        rintro rfl
        exact special (by decide)
      by_cases mark : c = '-' ∨ c = '?' ∨ c = ':'
      · rcases mark with rfl | rfl | rfl <;> exact .cons rfl rfl comment cs
      · simp only [not_or] at mark
        rw [if_neg mark.1, if_neg (not_or.mpr mark.2)] at starts
        simp only [Bool.not_eq_true', Bool.or_eq_false_iff] at starts
        exact .cons starts.1 starts.2 comment cs

theorem Bare.tight (bare : Bare cs) (rest : List Char) : Tight (cs ++ rest) := tight_of_startsPlain (bare.starts rest)

/-- Behind its first character, a text without inner marks goes on. -/
private theorem flows_tail {first : Char} (inner : hasInnerMark (first :: cs) = false)
    (visible : ∀ c ∈ cs, isVisible c = true ∧ isBreak c = false) (last : cs.getLast? ≠ some ' ') : Flows cs := by
  induction cs generalizing first with
  | nil => trivial
  | cons c cs ih =>
    obtain ⟨⟨seen, line⟩, others⟩ := List.forall_mem_cons.mp visible
    simp only [hasInnerMark, Bool.or_eq_false_iff, Bool.and_eq_false_imp, beq_iff_eq] at inner
    obtain ⟨⟨comment, colon⟩, inner⟩ := inner
    refine ⟨line, ?_, ?_, ?_, ?_⟩
    · rintro rfl
      exact absurd seen (by decide)
    · intro mark
      have blank := colon mark
      cases cs with
      | nil => cases blank
      | cons d cs => simpa [endsWord, others d List.mem_cons_self] using blank
    · rintro rfl
      cases cs with
      | nil => exact absurd rfl last
      | cons d cs =>
        simp only [hasInnerMark, Bool.or_eq_false_iff, Bool.and_eq_false_imp, beq_eq_false_iff_ne] at inner
        exact ⟨d, rfl, inner.1.1 rfl⟩
    · refine ih inner others fun final => last ?_
      cases cs with
      | nil => cases final
      | cons d cs => rwa [List.getLast?_cons_cons]

/-- A mark that would start something else is followed by a part of its word. -/
private theorem endsWord_of_leading {c : Char} (leading : hasLeadingMark (c :: cs) = false)
    (line : ∀ d ∈ cs, isBreak d = false) (mark : c = '?' ∨ c = ':' ∨ c = '-') (rest : List Char) :
    cs ≠ [] ∧ endsWord (cs ++ rest) = false := by
  simp only [hasLeadingMark, Bool.or_eq_false_iff] at leading
  have blank := leading.1.1.2
  have marked : (c == '?' || c == ':' || c == '-') = true := by simpa [or_assoc] using mark
  rw [marked, Bool.true_and] at blank
  cases cs with
  | nil => cases blank
  | cons d cs => exact ⟨List.cons_ne_nil d cs, by simpa [endsWord, line d List.mem_cons_self] using blank⟩

theorem bare_of_fitsPlain (fits : fitsPlain cs = true) (present : cs ≠ []) : Bare cs := by
  obtain ⟨c, cs, rfl⟩ := List.exists_cons_of_ne_nil present
  simp only [fitsPlain, Bool.and_eq_true, List.all_eq_true, Bool.not_eq_true', bne_iff_ne, List.head?_cons] at fits
  obtain ⟨⟨⟨⟨visible, leading⟩, inner⟩, head⟩, last⟩ := fits
  obtain ⟨⟨seen, line⟩, others⟩ := List.forall_mem_cons.mp visible
  have lines : ∀ d ∈ cs, isBreak d = false := fun d member => (others d member).2
  have space : c ≠ ' ' := by simpa using head
  have long := endsWord_of_leading leading lines
  refine ⟨fun d member => (visible d member).1, ⟨line, ?_, ?_, fun same => absurd same space, ?_⟩, present, ?_⟩
  · rintro rfl
    exact absurd seen (by decide)
  · intro mark
    simpa using (long (.inr (.inl mark)) []).2
  · refine flows_tail inner others fun final => last ?_
    cases cs with
    | nil => cases final
    | cons d cs => rwa [List.getLast?_cons_cons]
  · intro rest
    have blank := isBlank_visible seen space
    have special : ∀ mark ∈ [',', '[', ']', '\x7b', '\x7d', '#', '&', '*', '!', '|', '>', '\'', '"', '%', '@', '\x60'],
        hasLeadingMark (mark :: cs) = true := by
      simp [hasLeadingMark]
    have apart := fun member => Bool.false_ne_true (leading.symm.trans (special c member))
    rw [List.cons_append, startsPlain, if_neg (by simpa using apart)]
    split
    next dash => simp [long (.inr (.inr dash)) rest]
    next =>
      split
      next mark => simp [long (mark.imp_right .inl) rest]
      next => simp [blank, line]

theorem isVisible_of_plainAscii {c : Char} (visible : isPlainAscii c = true) : isVisible c = true := by
  simp only [isPlainAscii, Bool.and_eq_true, decide_eq_true_eq] at visible
  simp [isVisible, visible]

theorem flows_of_words (words : ∀ c ∈ cs, isWordChar c = true) : Flows cs := by
  induction cs with
  | nil => trivial
  | cons c cs ih =>
    obtain ⟨word, others⟩ := List.forall_mem_cons.mp words
    have apart := isWordChar_apart word
    exact ⟨(Solid.word word cs c rfl).2, apart '\t' (by decide), fun same => absurd same (apart ':' (by decide)),
      fun same => absurd same (apart ' ' (by decide)), ih others⟩

theorem startsPlain_block (starts : startsPlain true cs = true) : startsPlain false cs = true := by
  cases cs with
  | nil => cases starts
  | cons c cs =>
    simp only [startsPlain] at starts ⊢
    split at starts
    next => cases starts
    next special =>
      rw [if_neg special]
      split at starts
      next dash => rwa [if_pos dash]
      next dash =>
        split at starts
        next => simp at starts
        next mark => rwa [if_neg dash, if_neg mark]

theorem IsWord.bare {text : String} (word : IsWord text) : Bare text.toList where
  visible := fun c member => isVisible_of_plainAscii (isPlainAscii_of_word (word.all c member))
  flows := flows_of_words word.all
  present := word.present
  starts := fun rest => startsPlain_block (word.starts rest)

end Bare

section Lines

/-- How a text stands on a line, and whether without quotes. -/
inductive Written (text : String) : Bool → List Char → Prop
  | plain (bare : Bare text.toList) : Written text true text.toList
  | single (visible : ∀ c ∈ text.toList, isVisible c = true) (line : ∀ c ∈ text.toList, isBreak c = false) :
    Written text false ('\x27' :: text.toList.flatMap shownSingle ++ ['\x27'])
  | double (marked : Bool) : Written text false ('"' :: text.toList.flatMap (shownDouble marked) ++ ['"'])

/-- A text that is written as it is. -/
def isBare (text : String) : Bool := standsForItself text && fitsPlain text.toList

/-- A text as it is written if there are no line breaks in it. -/
def lineText (text : String) : List Char :=
  if isBare text then text.toList
  else if standsForItself text && fitsSingleQuotes text.toList then singleQuoted 0 text.toList
  else doubleQuoted text.toList

variable {text : String}

theorem written_eq (line : ∀ c ∈ text.toList, isBreak c = false) (spaces : Nat) :
    (written spaces text).toList = lineText text ++ ['\n'] := by
  have single : text.toList.contains '\n' = false := by
    rw [List.contains_eq_mem, decide_eq_false_iff_not]
    intro member
    exact absurd (line _ member) (by decide)
  rw [written, lineText, isBare, single]
  cases standsForItself text <;> cases fitsPlain text.toList <;> cases fitsSingleQuotes text.toList <;>
    simp [singleQuoted_eq _ line]

theorem isNull_of_standsForItself (itself : standsForItself text = true) : isNull text = false := by
  cases null : isNull text with
  | false => rfl
  | true => simp [standsForItself, Scalar.ofPlain, word?, null] at itself

theorem written_lineText (line : ∀ c ∈ text.toList, isBreak c = false) :
    Written text (isBare text) (lineText text) := by
  unfold lineText
  by_cases bare : isBare text = true
  · rw [if_pos bare, bare]
    rw [isBare, Bool.and_eq_true] at bare
    refine .plain (bare_of_fitsPlain bare.2 fun empty => ?_)
    have null : isNull text = true := by
      rw [String.toList_eq_nil_iff.mp empty]
      rfl
    rw [isNull_of_standsForItself bare.1] at null
    cases null
  · rw [if_neg bare, Bool.eq_false_iff.mpr bare]
    split
    next fits =>
      rw [Bool.and_eq_true, fitsSingleQuotes, Bool.and_eq_true, Bool.and_eq_true, List.all_eq_true] at fits
      rw [singleQuoted_eq 0 line]
      exact .single fits.2.1.1 line
    next =>
      rw [doubleQuoted_eq]
      exact .double _

variable {plain : Bool} {shown : List Char}

theorem Written.tight (written : Written text plain shown) (rest : List Char) : Tight (shown ++ rest) := by
  cases written with
  | plain bare => exact bare.tight rest
  | single => exact .cons rfl rfl (by decide) _
  | double => exact .cons rfl rfl (by decide) _

theorem Written.present (written : Written text plain shown) : shown ≠ [] := by
  cases written with
  | plain bare => exact bare.present
  | single => exact List.cons_ne_nil _ _
  | double => exact List.cons_ne_nil _ _

theorem Written.visible (written : Written text plain shown) : ∀ c ∈ shown, isVisible c = true := by
  have between (quote : Char) (seen : isVisible quote = true) {inner : Char → List Char}
      (each : ∀ c ∈ text.toList, ∀ d ∈ inner c, isVisible d = true) :
      ∀ c ∈ quote :: text.toList.flatMap inner ++ [quote], isVisible c = true := by
    intro c member
    simp only [List.cons_append, List.mem_cons, List.mem_append, List.mem_flatMap, List.not_mem_nil, or_false] at member
    rcases member with rfl | ⟨d, inside, member⟩ | rfl
    · exact seen
    · exact each d inside c member
    · exact seen
  cases written with
  | plain bare => exact bare.visible
  | single visible =>
    refine between '\x27' rfl fun c inside d member => ?_
    unfold shownSingle at member
    split at member <;> simp_all
  | double marked => exact between '"' rfl fun c _ => isVisible_shownDouble marked c

end Lines

end Lineside.Yaml
