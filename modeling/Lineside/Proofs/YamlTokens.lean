import Lineside.Proofs.YamlScalars

/-! The scanner within a line of flow collections. It reads ahead, and hands tokens out while it reads. Since it never
hands out the last two tokens, what it finds does not depend on when it hands them out, and a key can still be marked
when its colon is found. -/

namespace Lineside.Yaml

/-- No blank, line break or comment starts here. -/
def Tight (cs : List Char) : Prop := Solid cs ∧ cs.head? ≠ some '#'

theorem Tight.nil : Tight [] := by
  refine ⟨fun c found => ?_, by simp⟩
  cases found

theorem Tight.cons {c : Char} (blank : isBlank c = false) (breaks : isBreak c = false) (comment : c ≠ '#')
    (cs : List Char) : Tight (c :: cs) :=
  ⟨.cons blank breaks cs, by simpa using comment⟩

/-- The signs around the values of JSON text. -/
def signs : List Char := ['"', '[', ']', '\x7b', '\x7d', ',', ':']

theorem Tight.sign {c : Char} (cs : List Char) (sign : c ∈ signs := by decide) : Tight (c :: cs) := by
  have apart : (signs.any fun c => isBlank c || isBreak c || c == '#') = false := by decide
  have plain := List.any_eq_false.mp apart c sign
  simp only [Bool.or_eq_true, beq_iff_eq, not_or, Bool.not_eq_true] at plain
  exact .cons plain.1.1 plain.1.2 plain.2 cs

theorem skipLineComment_tight {cs : List Char} (tight : Tight cs) (mark : Mark) :
    skipLineComment ⟨cs, mark⟩ = ⟨cs, mark⟩ := by
  obtain ⟨solid, comment⟩ := tight
  cases cs with
  | nil => rfl
  | cons c cs =>
    have blank := (solid c rfl).1
    have none : c ≠ '#' := by simpa using comment
    simp [skipLineComment, blank, none, Cursor.skip]

theorem skipWhile_spaces {cs : List Char} (solid : Solid cs) (count : Nat) (tabs : Bool) (mark : Mark) :
    Cursor.skipWhile ⟨List.replicate count ' ' ++ cs, mark⟩ (fun c => c == ' ' || (c == '\t' && tabs)) =
      ⟨cs, mark.right count⟩ := by
  have spaces : ∀ c ∈ List.replicate count ' ', (c == ' ' || (c == '\t' && tabs)) = true := fun c member => by
    rw [List.eq_of_mem_replicate member]
    rfl
  rw [Cursor.skipWhile, List.takeWhile_append_of_pos spaces, List.dropWhile_append_of_pos spaces]
  cases cs with
  | nil => simp [Cursor.skip]
  | cons c cs =>
    have blank := (solid c rfl).1
    simp only [isBlank, Bool.or_eq_false_iff] at blank
    simp [Cursor.skip, blank]

theorem skipBetween_spaces {cs : List Char} (tight : Tight cs) (flow keys : Bool) (fuel count : Nat) (mark : Mark) :
    skipBetween flow 0 (fuel + 1) keys ⟨List.replicate count ' ' ++ cs, mark⟩ = (⟨cs, mark.right count⟩, keys) := by
  obtain ⟨solid, comment⟩ := tight
  have whole : cs.head?.any isBreak = false := by
    cases cs with
    | nil => rfl
    | cons c cs => exact (solid c rfl).2
  simp [skipBetween, skipWhile_spaces solid, comment, whole]

theorem skipBetween_tight {cs : List Char} (tight : Tight cs) (flow keys : Bool) (fuel : Nat) (mark : Mark) :
    skipBetween flow 0 (fuel + 1) keys ⟨cs, mark⟩ = (⟨cs, mark⟩, keys) :=
  skipBetween_spaces tight flow keys fuel 0 mark

section Words

theorem Tight.word {c : Char} (word : isWordChar c = true) (cs : List Char) : Tight (c :: cs) := by
  have comment := isWordChar_apart word '#' (by decide)
  exact ⟨.word word cs, by simpa using comment⟩

theorem Closes.tight {rest : List Char} (closes : Closes rest) : Tight rest := by
  obtain ⟨c, tail, rfl, rfl | rfl | rfl⟩ := closes <;> exact .sign tail

theorem endsWord_tight {cs : List Char} (tight : Tight cs) (present : cs ≠ []) : endsWord cs = false := by
  obtain ⟨c, rest, rfl⟩ := List.exists_cons_of_ne_nil present
  obtain ⟨blank, breaks⟩ := tight.1 c rfl
  simp [endsWord, blank, breaks]

theorem contains_wordChar {c : Char} (word : isWordChar c = true) {others : List Char}
    (apart : others.any isWordChar = false) : others.contains c = false := by
  rw [List.contains_eq_mem, decide_eq_false_iff_not]
  intro member
  exact List.any_eq_false.mp apart c member word

theorem startsPlain_word {c : Char} (word : isWordChar c = true) {cs : List Char}
    (follows : c = '-' → endsWord cs = false) : startsPlain true (c :: cs) = true := by
  have apart := isWordChar_apart word
  obtain ⟨blank, breaks⟩ := (Tight.word word cs).1 c rfl
  rw [startsPlain, contains_wordChar word (by decide), if_neg Bool.false_ne_true]
  split
  next dash => simp [follows dash]
  next =>
    rw [if_neg (by simp [apart '?' (by decide), apart ':' (by decide)])]
    simp [blank, breaks]

theorem isWordChar_digit {c : Char} (digit : Json.isDigit c = true) : isWordChar c = true := by
  rw [Json.isDigit_eq] at digit
  simp [isWordChar, Char.isAlphanum, digit]

/-- A number, or a word that stands for a truth value or for nothing. -/
structure IsWord (text : String) : Prop where
  all : ∀ c ∈ text.toList, isWordChar c = true
  present : text.toList ≠ []
  starts : ∀ rest, startsPlain true (text.toList ++ rest) = true

theorem IsWord.of_cons {text : String} {c : Char} {cs : List Char} (shape : text.toList = c :: cs)
    (all : ∀ d ∈ c :: cs, isWordChar d = true) (dash : c = '-' → cs ≠ []) : IsWord text := by
  refine ⟨shape ▸ all, by simp [shape], fun rest => ?_⟩
  obtain ⟨first, others⟩ := List.forall_mem_cons.mp all
  rw [shape, List.cons_append]
  refine startsPlain_word first fun sign => ?_
  obtain ⟨d, ds, rfl⟩ := List.exists_cons_of_ne_nil (dash sign)
  exact endsWord_tight (.word (others d List.mem_cons_self) _) (List.cons_ne_nil _ _)

theorem isWord_null : IsWord "null" :=
  .of_cons rfl (List.all_eq_true.mp (by decide)) (by decide)

theorem isWord_true : IsWord "true" :=
  .of_cons rfl (List.all_eq_true.mp (by decide)) (by decide)

theorem isWord_false : IsWord "false" :=
  .of_cons rfl (List.all_eq_true.mp (by decide)) (by decide)

/-- The text of an integer is a word. -/
theorem isWord_repr (value : Int) : IsWord value.repr := by
  have digits (n : Nat) : ∀ c ∈ Nat.toDigits 10 n, isWordChar c = true := fun c member =>
    isWordChar_digit (Json.toDigits_isDigit c member)
  rw [Int.repr_eq_if]
  split
  · obtain ⟨c, cs, shape, digit⟩ := Json.toDigits_cons value.toNat
    refine .of_cons (by rw [Nat.toList_repr, shape]) (shape ▸ digits _) ?_
    rintro rfl
    cases digit
  · exact .of_cons (Json.toList_minus _) (List.forall_mem_cons.mpr ⟨rfl, digits _⟩) fun _ => Nat.toDigits_ne_nil

end Words

namespace Scanner

/-- The scanner stands in the first line, inside of `level` flow collections and no block collection, and `cs` is
left to be read. -/
structure Inside (scanner : Scanner) (level : Nat) (keys : Bool) (cs : List Char) : Prop where
  indents : scanner.indents = []
  clipped : scanner.clipped = false
  marked : scanner.marked = 0
  going : scanner.finished = false
  free : scanner.candidate.required = false
  around : ∀ candidate ∈ scanner.outer, candidate.required = false
  level : scanner.outer.length = level
  keys : scanner.keys = keys
  tight : Tight cs
  within : cs.length ≤ scanner.size
  place : ∃ index, scanner.cursor = ⟨cs, .along index⟩ ∧ (0 < index ∨ cs.head? = some '\x7b')

section Fetching

variable {scanner : Scanner} {level : Nat} {keys : Bool} {c : Char} {cs rest : List Char}

theorem Inside.inFlow (inside : scanner.Inside (level + 1) keys cs) : scanner.inFlow = true := by
  have deep := inside.level
  cases around : scanner.outer with
  | nil => simp [around] at deep
  | cons candidate outer => simp [Scanner.inFlow, around]

theorem Inside.cursor_rest (inside : scanner.Inside level keys cs) : scanner.cursor.rest = cs := by
  obtain ⟨index, here, _⟩ := inside.place
  rw [here]

theorem Inside.queued (inside : scanner.Inside level keys cs) (queue : List Token) :
    Inside { scanner with queue } level keys cs := by
  obtain ⟨indents, clipped, marked, going, free, around, level, keys, tight, within, place⟩ := inside
  exact ⟨indents, clipped, marked, going, free, around, level, keys, tight, within, place⟩

theorem Inside.approach (inside : scanner.Inside level keys cs) : scanner.approach = scanner := by
  obtain ⟨index, here, _⟩ := inside.place
  have stays : skipBetween scanner.inFlow scanner.marked (scanner.size + 1) scanner.keys scanner.cursor =
      (scanner.cursor, scanner.keys) := by
    rw [here, inside.marked, skipBetween_tight inside.tight]
  have indents := inside.indents
  cases scanner
  simp_all [Scanner.approach, closeBlocks]

theorem Inside.fetch_cons (inside : scanner.Inside level keys (c :: rest)) :
    scanner.fetch = (scanner.token c rest).map endLine := by
  obtain ⟨index, here, placed⟩ := inside.place
  have marker : scanner.cursor.atMarker = false ∧ ¬(scanner.cursor.column = 0 ∧ c = '%') := by
    rcases placed with ahead | brace
    · rw [here]
      refine ⟨Cursor.atMarker_inside ahead _, ?_⟩
      rintro ⟨start, _⟩
      exact absurd start (Nat.ne_of_gt ahead)
    · have first : c = '\x7b' := by simpa using brace
      subst first
      rw [here]
      refine ⟨?_, by simp⟩
      rcases rest with _ | ⟨b, _ | ⟨d, rest⟩⟩ <;> simp [Cursor.atMarker]
  simp [Scanner.fetch, inside.approach, inside.clipped, inside.cursor_rest, marker]

theorem Inside.giveUp (inside : scanner.Inside level keys cs) :
    scanner.giveUp = some { scanner with candidate := { scanner.candidate with undecided := false } } := by
  simp [Scanner.giveUp, inside.free]

/-- Where a key may start, the token that is read next becomes a candidate for one. -/
theorem Inside.propose (inside : scanner.Inside level keys cs) :
    ∃ candidate, scanner.propose = some { scanner with candidate } ∧ candidate.required = false ∧
      (keys = true → candidate.undecided = true ∧ candidate.start = scanner.cursor.mark ∧
        candidate.number = scanner.nextNumber) := by
  cases keys with
  | true =>
    refine ⟨{ number := scanner.nextNumber, start := scanner.cursor.mark, undecided := true, holds := true }, ?_, rfl,
      fun _ => ⟨rfl, rfl, rfl⟩⟩
    rw [Scanner.propose, if_pos inside.keys, inside.giveUp, Option.map_some]
    simp [inside.indents, nextNumber]
  | false => exact ⟨scanner.candidate, if_neg (by simp [inside.keys]), inside.free, nofun⟩

/-- The scanner behind a token. -/
def behind (scanner : Scanner) (token : Token) (rest : List Char) (index : Nat) (candidate : Candidate)
    (outer : List Candidate) (keys : Bool) : Scanner :=
  { scanner with cursor := ⟨rest, .along index⟩, queue := scanner.queue ++ [token], candidate, outer, keys }

section Behind

variable {outer : List Candidate} {candidate : Candidate} {token : Token} {index : Nat} {next : Bool}

theorem Inside.moved (inside : scanner.Inside level keys cs) (tight : Tight rest) (shorter : rest.length ≤ cs.length)
    (ahead : 0 < index) (free : candidate.required = false) (around : ∀ candidate ∈ outer, candidate.required = false) :
    (scanner.behind token rest index candidate outer next).Inside outer.length next rest where
  indents := inside.indents
  clipped := inside.clipped
  marked := inside.marked
  going := inside.going
  free := free
  around := around
  level := rfl
  keys := rfl
  tight := tight
  within := Nat.le_trans shorter inside.within
  place := ⟨index, rfl, .inl ahead⟩

/-- In front of tight text there is no comment to step over. -/
theorem endLine_behind (tight : Tight rest) :
    endLine (scanner.behind token rest index candidate outer next) =
      scanner.behind token rest index candidate outer next := by
  simp [endLine, behind, skipLineComment_tight tight]

/-- Reading one token leads on. -/
def Gives (scanner : Scanner) (token : Token) (goal : Scanner → Prop) : Prop :=
  ∃ next, scanner.fetch = some next ∧ next.queue = scanner.queue ++ [token] ∧ goal next

theorem Inside.gives (inside : scanner.Inside level keys (c :: cs))
    (read : scanner.token c cs = some (scanner.behind token rest index candidate outer next)) (tight : Tight rest)
    (shorter : rest.length ≤ cs.length) (ahead : 0 < index) (free : candidate.required = false)
    (around : ∀ candidate ∈ outer, candidate.required = false) :
    scanner.Gives token fun after => after = scanner.behind token rest index candidate outer next ∧
      after.Inside outer.length next rest := by
  refine ⟨_, ?_, rfl, rfl, inside.moved tight (Nat.le_succ_of_le shorter) ahead free around⟩
  rw [inside.fetch_cons, read, Option.map_some, endLine_behind tight]

end Behind

theorem Gives.imp {token : Token} {goal other : Scanner → Prop} (gives : scanner.Gives token goal)
    (weaker : ∀ next, goal next → other next) : scanner.Gives token other := by
  obtain ⟨next, read, queue, reached⟩ := gives
  exact ⟨next, read, queue, weaker next reached⟩

theorem Inside.opens {token : Token} (inside : scanner.Inside level keys (c :: rest)) (tight : Tight rest)
    (opens : scanner.token c rest = scanner.openFlow token) (room : level < maxLevel) :
    scanner.Gives token (Inside · (level + 1) true rest) := by
  obtain ⟨index, here, _⟩ := inside.place
  obtain ⟨candidate, proposed, free, _⟩ := inside.propose
  have shallow : ¬ maxLevel ≤ scanner.outer.length := by
    rw [inside.level]
    omega
  have read : scanner.token c rest = some (scanner.behind token rest (index + 1) { number := scanner.nextNumber }
      (candidate :: scanner.outer) true) := by
    simp [opens, openFlow, proposed, shallow, advance, add, here, Cursor.skip, nextNumber, behind]
  have around : ∀ other ∈ candidate :: scanner.outer, other.required = false :=
    List.forall_mem_cons.mpr ⟨free, inside.around⟩
  refine (inside.gives read tight (Nat.le_refl _) (Nat.succ_pos index) rfl around).imp fun next => ?_
  rintro ⟨_, after⟩
  rwa [List.length_cons, inside.level] at after

/-- No collection is opened where as many are open as may be. -/
theorem Inside.full {token : Token} (inside : scanner.Inside maxLevel keys (c :: rest))
    (opens : scanner.token c rest = scanner.openFlow token) : scanner.fetch = none := by
  obtain ⟨candidate, proposed, _⟩ := inside.propose
  simp [inside.fetch_cons, opens, openFlow, proposed, inside.level]

theorem Inside.closes {token : Token} (inside : scanner.Inside (level + 1) keys (c :: rest)) (tight : Tight rest)
    (closes : scanner.token c rest = scanner.closeFlow token) :
    scanner.Gives token (Inside · level false rest) := by
  obtain ⟨index, here, _⟩ := inside.place
  obtain ⟨candidate, outer, opened⟩ : ∃ candidate outer, scanner.outer = candidate :: outer :=
    List.exists_cons_of_length_eq_add_one inside.level
  have around := inside.around
  rw [opened, List.forall_mem_cons] at around
  let holds := candidate.holds && candidate.number != scanner.candidate.number
  have read : scanner.token c rest =
      some (scanner.behind token rest (index + 1) { candidate with holds } outer false) := by
    simp [closes, closeFlow, inside.giveUp, advance, add, here, Cursor.skip, opened, behind, holds]
  have same : outer.length = level := by simpa [opened] using inside.level
  refine (inside.gives read tight (Nat.le_refl _) (Nat.succ_pos index) around.1 around.2).imp fun next => ?_
  rintro ⟨_, after⟩
  rwa [same] at after

theorem Inside.continues (inside : scanner.Inside level keys (',' :: rest)) (tight : Tight rest) :
    scanner.Gives .flowEntry (Inside · level true rest) := by
  obtain ⟨index, here, _⟩ := inside.place
  have read : scanner.token ',' rest = some (scanner.behind .flowEntry rest (index + 1)
      { scanner.candidate with undecided := false } scanner.outer true) := by
    simp [token, flowEntry, inside.giveUp, advance, add, here, Cursor.skip, behind]
  refine (inside.gives read tight (Nat.le_refl _) (Nat.succ_pos index) inside.free inside.around).imp fun next => ?_
  rintro ⟨_, after⟩
  rwa [inside.level] at after

/-- The token that was read last may be a key. -/
structure Named (scanner : Scanner) (token : Token) : Prop where
  reaches : scanner.candidate.reaches scanner.cursor.mark = true
  number : scanner.candidate.number + 1 = scanner.nextNumber
  last : ∃ front, scanner.queue = front ++ [token]

theorem Inside.quotes {text : String} (inside : scanner.Inside level keys (Json.renderString text ++ rest))
    (tight : Tight rest) :
    scanner.Gives (.scalar false text) fun next => next.Inside level false rest ∧
      (keys = true → (Json.renderString text).length ≤ 1024 → next.Named (.scalar false text)) := by
  obtain ⟨index, here, _⟩ := inside.place
  obtain ⟨candidate, proposed, free, named⟩ := inside.propose
  have shape : Json.renderString text ++ rest = '"' :: (text.toList.flatMap Json.escapedChar ++ '"' :: rest) := by
    simp [Json.renderString]
  have length : (Json.renderString text).length = (text.toList.flatMap Json.escapedChar).length + 2 := by
    simp [Json.renderString]
  have within := inside.within
  rw [shape] at inside here within
  simp only [List.length_cons, List.length_append] at within
  have quoted := readDoubleQuoted_escaped (Nat.succ_pos index) text.toList rest
    (show (text.toList.flatMap Json.escapedChar).length < scanner.size + 1 by omega)
  have read : scanner.token '"' (text.toList.flatMap Json.escapedChar ++ '"' :: rest) =
      some (scanner.behind (.scalar false text) rest (index + (Json.renderString text).length) candidate scanner.outer
        false) := by
    have next : index.succ + (text.toList.flatMap Json.escapedChar).length + 1 =
        index + (Json.renderString text).length := by omega
    rw [next] at quoted
    simp [token, quotedScalar, proposed, advance, add, here, Cursor.skip, behind, quoted]
  refine (inside.gives read tight (by simp; omega) (by omega) free inside.around).imp fun next => ?_
  rintro ⟨rfl, after⟩
  rw [inside.level] at after
  refine ⟨after, fun may short => ?_⟩
  obtain ⟨undecided, start, number⟩ := named may
  rw [here] at start
  refine ⟨?_, ?_, scanner.queue, rfl⟩
  · simp [Candidate.reaches, behind, undecided, start, Mark.along]
    omega
  · simp [behind, number, nextNumber]
    omega

/-- What starts a plain scalar starts no other token. -/
theorem token_plain {flow : Bool} (around : scanner.inFlow = flow) (starts : startsPlain flow (c :: rest) = true) :
    scanner.token c rest = scanner.plainScalar := by
  subst around
  have start := starts
  simp only [startsPlain] at starts
  split at starts
  next => cases starts
  next special =>
    simp only [List.contains_eq_mem, decide_eq_true_eq, List.mem_cons, List.not_mem_nil, or_false, not_or] at special
    split at starts
    next dash =>
      subst dash
      have long : endsWord rest = false := by simpa using starts
      simp [token, startsPlain, long]
    next dash =>
      split at starts
      next mark =>
        obtain ⟨flow, long⟩ : scanner.inFlow = false ∧ endsWord rest = false := by simpa using starts
        rw [flow] at start
        simp [token, start, flow, long, special, dash]
      next mark => simp [token, start, special, dash, not_or.mp mark]

theorem Inside.words {text : String} (inside : scanner.Inside (level + 1) keys (text.toList ++ rest))
    (word : IsWord text) (closes : Closes rest) :
    scanner.Gives (.scalar true text) (Inside · (level + 1) false rest) := by
  obtain ⟨index, here, _⟩ := inside.place
  obtain ⟨candidate, proposed, free, _⟩ := inside.propose
  obtain ⟨c, cs, shape⟩ := List.exists_cons_of_ne_nil word.present
  have plain := readPlain_append word.all closes scanner.size index
  have read : scanner.plainScalar =
      some (scanner.behind (.scalar true text) rest (index + text.toList.length) candidate scanner.outer false) := by
    have flow : scanner.outer.isEmpty = false := by simpa [Scanner.inFlow] using inside.inFlow
    simp [plainScalar, proposed, Scanner.inFlow, flow, indent, inside.indents, here, plain, inside.clipped, add, behind]
  have starts := word.starts rest
  rw [shape, List.cons_append] at inside starts
  rw [← token_plain inside.inFlow starts] at read
  have grows : 0 < text.toList.length := List.length_pos_iff.mpr word.present
  refine (inside.gives read closes.tight (by simp) (by omega) free inside.around).imp fun next => ?_
  rintro ⟨rfl, after⟩
  rwa [inside.level] at after

private theorem insertIdx_length (front : List Token) (token new : Token) :
    (front ++ [token]).insertIdx front.length new = front ++ [new, token] := by
  induction front with
  | nil => rfl
  | cons first front ih => simpa using ih

/-- A colon makes a key of the token in front of it. -/
theorem Inside.names {token : Token} (inside : scanner.Inside (level + 1) keys (':' :: rest))
    (named : scanner.Named token) (tight : Tight rest) :
    ∃ front next, scanner.queue = front ++ [token] ∧ scanner.fetch = some next ∧
      next.queue = front ++ [.key, token, .value] ∧ next.Inside (level + 1) false rest := by
  obtain ⟨index, here, _⟩ := inside.place
  obtain ⟨reached, last, front, queue⟩ := named
  rw [nextNumber, queue, List.length_append, List.length_singleton] at last
  have number : ¬ scanner.candidate.number < scanner.handed ∧
      scanner.candidate.number - scanner.handed = front.length := by omega
  let marked : Scanner := { scanner with queue := front ++ [.key, token] }
  have inserted : scanner.insert scanner.candidate.number .key = marked := by
    simp [Scanner.insert, number, queue, marked, insertIdx_length]
  have read : scanner.token ':' rest = some (marked.behind .value rest (index + 1)
      { scanner.candidate with undecided := false } scanner.outer false) := by
    have around : scanner.outer.isEmpty = false := by simpa [Scanner.inFlow] using inside.inFlow
    rw [here] at reached
    simp [Scanner.token, colon, reached, inserted, openBlock, Scanner.inFlow, marked, around, advance, add, here,
      Cursor.skip, behind]
  have after : (marked.behind .value rest (index + 1) { scanner.candidate with undecided := false } scanner.outer
      false).Inside scanner.outer.length false rest :=
    (inside.queued (front ++ [.key, token])).moved tight (Nat.le_succ _) (Nat.succ_pos index) inside.free inside.around
  rw [inside.level] at after
  refine ⟨front, _, queue, ?_, by simp [behind, marked], after⟩
  rw [inside.fetch_cons, read, Option.map_some, endLine_behind tight]

end Fetching

section Handing

/-- Tokens are handed out while others are read. -/
def hand (scanner : Scanner) (count : Nat) : Scanner :=
  { scanner with queue := scanner.queue.drop count, handed := scanner.handed + count }

variable {scanner : Scanner}

theorem hand_zero : scanner.hand 0 = scanner := rfl

theorem hand_hand (first second : Nat) : (scanner.hand first).hand second = scanner.hand (first + second) := by
  simp [hand, Nat.add_assoc]

theorem Inside.handing {level : Nat} {keys : Bool} {cs : List Char} (inside : scanner.Inside level keys cs)
    (count : Nat) : (scanner.hand count).Inside level keys cs := by
  obtain ⟨indents, clipped, marked, going, free, around, level, keys, tight, within, place⟩ := inside
  exact ⟨indents, clipped, marked, going, free, around, level, keys, tight, within, place⟩

theorem Named.handing {token : Token} (named : scanner.Named token) {count : Nat}
    (kept : count < scanner.queue.length) : (scanner.hand count).Named token := by
  obtain ⟨reaches, number, front, queue⟩ := named
  refine ⟨reaches, ?_, front.drop count, ?_⟩
  · simp only [nextNumber, hand, List.length_drop] at number ⊢
    omega
  · rw [queue, List.length_append, List.length_singleton] at kept
    simp only [hand, queue, List.drop_append_of_le_length (Nat.le_of_lt_succ kept)]

theorem ready_eq_some {first : Token} {next : Scanner} (ready : scanner.ready = some (first, next)) :
    3 ≤ scanner.queue.length ∧ scanner.queue.take 1 = [first] ∧ next = scanner.hand 1 := by
  unfold Scanner.ready at ready
  split at ready
  next second third rest queue =>
    split at ready
    · cases ready
    · cases ready
      simp [queue, Scanner.hand]
  next => cases ready

/-- Some tokens are handed out, but never the last two, and then the next one is read. -/
theorem tokens_hand (fuel : Nat) (going : scanner.finished = false) (enough : scanner.queue.length < fuel) :
    ∃ count less, count + less + 1 = fuel ∧ (count = 0 ∨ count + 2 ≤ scanner.queue.length) ∧
      tokens fuel scanner = scanner.queue.take count ++ (scanner.hand count).fetch.elim [] (tokens less) := by
  induction fuel generalizing scanner with
  | zero => omega
  | succ fuel ih =>
    rw [tokens, if_neg (by simp [going])]
    cases ready : scanner.ready with
    | none =>
      refine ⟨0, fuel, by omega, .inl rfl, ?_⟩
      rw [hand_zero, List.take_zero, List.nil_append]
      cases scanner.fetch <;> rfl
    | some found =>
      obtain ⟨first, next⟩ := found
      obtain ⟨long, taken, rfl⟩ := ready_eq_some ready
      have shorter : (scanner.hand 1).queue.length + 1 = scanner.queue.length := by
        simp [hand]
        omega
      obtain ⟨count, less, total, kept, same⟩ := ih (show (scanner.hand 1).finished = false from going) (by omega)
      refine ⟨1 + count, less, by omega, .inr (by omega), ?_⟩
      simp only [same, hand_hand]
      rw [List.take_add, taken]
      rfl

/-- What is left to be done: to hand out tokens, and to read text, of which every character makes up to two tokens. -/
def need (scanner : Scanner) : Nat := scanner.queue.length + 3 * scanner.cursor.rest.length + 2

/-- Reading goes on until a goal is met. Tokens that are handed out until then are, with those that are not, the
tokens of `all`. -/
def Reaches (scanner : Scanner) (all : List Token) (goal : Scanner → Prop) : Prop :=
  ∀ fuel, scanner.need ≤ fuel → ∃ out less next, next.need ≤ less ∧ goal next ∧ out ++ next.queue = all ∧
    tokens fuel scanner = out ++ tokens less next

/-- Reading stops before all tokens are found. -/
def Starves (scanner : Scanner) (all : List Token) : Prop :=
  ∀ fuel, scanner.need ≤ fuel → ∃ left, left ≠ [] ∧ tokens fuel scanner ++ left = all

theorem Reaches.trans {middle goal : Scanner → Prop} {all more : List Token} (first : scanner.Reaches all middle)
    (second : ∀ next, middle next → next.Reaches (next.queue ++ more) goal) : scanner.Reaches (all ++ more) goal := by
  intro fuel enough
  obtain ⟨out, less, next, left, met, split, same⟩ := first fuel enough
  obtain ⟨out', less', next', left', met', split', same'⟩ := second next met less left
  refine ⟨out ++ out', less', next', left', met', ?_, ?_⟩
  · rw [List.append_assoc, split', ← List.append_assoc, split]
  · rw [same, same', List.append_assoc]

theorem Reaches.imp {goal other : Scanner → Prop} {all : List Token} (reaches : scanner.Reaches all goal)
    (weaker : ∀ next, goal next → other next) : scanner.Reaches all other := by
  intro fuel enough
  obtain ⟨out, less, next, left, met, split, same⟩ := reaches fuel enough
  exact ⟨out, less, next, left, weaker next met, split, same⟩

theorem Reaches.starves {middle : Scanner → Prop} {all more : List Token} (first : scanner.Reaches all middle)
    (second : ∀ next, middle next → next.Starves (next.queue ++ more)) : scanner.Starves (all ++ more) := by
  intro fuel enough
  obtain ⟨out, less, next, left, met, split, same⟩ := first fuel enough
  obtain ⟨missing, some, rest⟩ := second next met less left
  refine ⟨missing, some, ?_⟩
  rw [same, List.append_assoc, rest, ← List.append_assoc, split]

theorem Starves.append {all : List Token} (starves : scanner.Starves all) (more : List Token) :
    scanner.Starves (all ++ more) := by
  intro fuel enough
  obtain ⟨left, some, rest⟩ := starves fuel enough
  refine ⟨left ++ more, by simp [some], ?_⟩
  rw [← List.append_assoc, rest]

/-- Reading one token, whatever was handed out before. -/
theorem reaches_of_fetch {all : List Token} {goal : Scanner → Prop} (going : scanner.finished = false)
    (gives : ∀ count, count = 0 ∨ count < scanner.queue.length → ∃ next, (scanner.hand count).fetch = some next ∧
      goal next ∧ scanner.queue.take count ++ next.queue = all ∧ next.need < (scanner.hand count).need) :
    scanner.Reaches all goal := by
  intro fuel enough
  obtain ⟨count, less, total, kept, same⟩ := tokens_hand fuel going (by rw [need] at enough; omega)
  obtain ⟨next, read, met, split, shorter⟩ := gives count (by omega)
  refine ⟨scanner.queue.take count, less, next, ?_, met, split, by rw [same, read, Option.elim_some]⟩
  have taken : (scanner.hand count).need + count = scanner.need := by
    simp only [need, hand, List.length_drop]
    omega
  omega

section Step

variable {level : Nat} {keys : Bool} {cs : List Char} {token : Token} {goal : Scanner → Prop}
  (inside : scanner.Inside level keys cs)
include inside

theorem Inside.reaches (gives : ∀ start : Scanner, start.Inside level keys cs → start.Gives token goal)
    (shorter : ∀ next, goal next → next.cursor.rest.length < cs.length) :
    scanner.Reaches (scanner.queue ++ [token]) goal := by
  refine reaches_of_fetch inside.going fun count _ => ?_
  obtain ⟨next, read, queue, met⟩ := gives _ (inside.handing count)
  have short := shorter next met
  refine ⟨next, read, met, ?_, ?_⟩
  · rw [queue, ← List.append_assoc]
    simp only [hand, List.take_append_drop]
  · rw [need, need, queue, List.length_append, List.length_singleton, (inside.handing count).cursor_rest]
    omega

theorem Inside.starves (fails : ∀ start : Scanner, start.Inside level keys cs → start.fetch = none)
    {more : List Token} (missing : more ≠ []) : scanner.Starves (scanner.queue ++ more) := by
  intro fuel enough
  simp only [need, inside.cursor_rest] at enough
  obtain ⟨count, less, _, _, same⟩ := tokens_hand fuel inside.going (by omega)
  refine ⟨scanner.queue.drop count ++ more, by simp [missing], ?_⟩
  rw [same, fails _ (inside.handing count), Option.elim_none, List.append_nil, ← List.append_assoc,
    List.take_append_drop]

end Step

section Collections

variable {level : Nat} {keys : Bool} {rest : List Char}

theorem Inside.reaches_open {c : Char} {token : Token} (inside : scanner.Inside level keys (c :: rest))
    (opens : ∀ start : Scanner, start.token c rest = start.openFlow token) (tight : Tight rest)
    (room : level < maxLevel) :
    scanner.Reaches (scanner.queue ++ [token]) (Inside · (level + 1) true rest) :=
  inside.reaches (fun start within => within.opens tight (opens start) room) fun next after => by
    simp [after.cursor_rest]

theorem Inside.reaches_close {c : Char} {token : Token} (inside : scanner.Inside (level + 1) keys (c :: rest))
    (closes : ∀ start : Scanner, start.token c rest = start.closeFlow token) (tight : Tight rest) :
    scanner.Reaches (scanner.queue ++ [token]) (Inside · level false rest) :=
  inside.reaches (fun start within => within.closes tight (closes start)) fun next after => by
    simp [after.cursor_rest]

theorem Inside.reaches_comma (inside : scanner.Inside level keys (',' :: rest)) (tight : Tight rest) :
    scanner.Reaches (scanner.queue ++ [.flowEntry]) (Inside · level true rest) :=
  inside.reaches (fun start within => within.continues tight) fun next after => by simp [after.cursor_rest]

theorem Inside.reaches_string {text : String} (inside : scanner.Inside level keys (Json.renderString text ++ rest))
    (tight : Tight rest) :
    scanner.Reaches (scanner.queue ++ [.scalar false text]) fun next => next.Inside level false rest ∧
      (keys = true → (Json.renderString text).length ≤ 1024 → next.Named (.scalar false text)) :=
  inside.reaches (fun start within => within.quotes tight) fun next after => by
    simp [after.1.cursor_rest, Json.renderString]
    omega

theorem Inside.reaches_word {text : String} (inside : scanner.Inside (level + 1) keys (text.toList ++ rest))
    (word : IsWord text) (closes : Closes rest) :
    scanner.Reaches (scanner.queue ++ [.scalar true text]) (Inside · (level + 1) false rest) :=
  inside.reaches (fun start within => within.words word closes) fun next after => by
    have grows : 0 < text.toList.length := List.length_pos_iff.mpr word.present
    simp [after.cursor_rest]
    omega

/-- A key and its colon. The token that marks the key is put in front of it, where it was not handed out yet. -/
theorem Inside.reaches_key {key : String}
    (inside : scanner.Inside (level + 1) true (Json.renderString key ++ ':' :: rest)) (tight : Tight rest)
    (short : (Json.renderString key).length ≤ 1024) :
    scanner.Reaches (scanner.queue ++ [.key, .scalar false key, .value]) (Inside · (level + 1) false rest) := by
  have colon : ∀ next : Scanner, next.Inside (level + 1) false (':' :: rest) → next.Named (.scalar false key) →
      ∃ front, next.queue = front ++ [.scalar false key] ∧
        next.Reaches (front ++ [.key, .scalar false key, .value]) (Inside · (level + 1) false rest) := by
    intro next within named
    obtain ⟨front, queue⟩ := named.last
    refine ⟨front, queue, reaches_of_fetch within.going fun count kept => ?_⟩
    have few : count < next.queue.length := by
      simp [queue] at kept ⊢
      omega
    obtain ⟨short, after, split, read, queue', moved⟩ := (within.handing count).names (named.handing few) tight
    refine ⟨after, read, moved, ?_, ?_⟩
    · have whole : next.queue.take count ++ (short ++ [.scalar false key]) = front ++ [.scalar false key] := by
        rw [← split, ← queue]
        simp only [hand, List.take_append_drop]
      rw [← List.append_assoc] at whole
      rw [queue', ← List.append_assoc, List.append_cancel_right whole]
    · rw [need, need, queue', split, moved.cursor_rest, (within.handing count).cursor_rest]
      simp
      omega
  intro fuel enough
  obtain ⟨out, less, next, left, ⟨within, named⟩, split, same⟩ :=
    inside.reaches_string (.sign rest) fuel enough
  obtain ⟨front, queue, reaches⟩ := colon next within (named rfl short)
  obtain ⟨out', less', after, left', moved, split', same'⟩ := reaches less left
  refine ⟨out ++ out', less', after, left', moved, ?_, by rw [same, same', List.append_assoc]⟩
  rw [queue, ← List.append_assoc] at split
  rw [List.append_assoc, split', ← List.append_assoc, List.append_cancel_right split]

end Collections

section End

variable {keys : Bool}

theorem Inside.ends (inside : scanner.Inside 0 keys []) :
    ∃ next, scanner.fetch = some next ∧ next.finished = true ∧ next.queue = scanner.queue ++ [.streamEnd] := by
  have block : scanner.outer = [] := List.length_eq_zero_iff.mp inside.level
  have closed : scanner.closeBlocks (fun _ => true) = scanner := by
    have indents := inside.indents
    cases scanner
    simp_all [closeBlocks]
  simp [fetch, inside.approach, inside.clipped, inside.cursor_rest, finish, closed, inside.giveUp, add]

/-- At the end of the text, what is left is handed out. -/
theorem Inside.tokens_end (inside : scanner.Inside 0 keys []) {fuel : Nat} (enough : scanner.need ≤ fuel) :
    scanner.tokens fuel = scanner.queue ++ [.streamEnd] := by
  rw [need] at enough
  obtain ⟨count, less, total, kept, same⟩ := tokens_hand fuel inside.going (by omega)
  obtain ⟨next, read, finished, queue⟩ := (inside.handing count).ends
  obtain ⟨less, rfl⟩ : ∃ fewer, less = fewer + 1 := ⟨less - 1, by omega⟩
  rw [same, read, Option.elim_some, tokens, if_pos finished, queue, ← List.append_assoc]
  simp only [hand, List.take_append_drop]

theorem Reaches.tokens_eq {all : List Token} (reaches : scanner.Reaches all (Inside · 0 keys [])) {fuel : Nat}
    (enough : scanner.need ≤ fuel) : scanner.tokens fuel = all ++ [.streamEnd] := by
  obtain ⟨out, less, next, left, inside, split, same⟩ := reaches fuel enough
  rw [same, inside.tokens_end left, ← List.append_assoc, split]

end End

section Scanning

/-- Reading finds all of the tokens, or stops before, according to whether they fit. -/
def Scans (scanner : Scanner) (all : List Token) (fits : Prop) (goal : Scanner → Prop) : Prop :=
  (fits → scanner.Reaches all goal) ∧ (¬ fits → scanner.Starves all)

variable {all more : List Token} {fits also : Prop} {middle goal : Scanner → Prop}

theorem Reaches.scans (reaches : scanner.Reaches all goal) (holds : fits) : scanner.Scans all fits goal :=
  ⟨fun _ => reaches, fun never => absurd holds never⟩

theorem Scans.trans (first : scanner.Scans all fits middle)
    (second : ∀ next, middle next → next.Scans (next.queue ++ more) also goal) :
    scanner.Scans (all ++ more) (fits ∧ also) goal := by
  constructor
  · rintro ⟨one, two⟩
    exact (first.1 one).trans fun next met => (second next met).1 two
  · intro never
    by_cases one : fits
    · exact (first.1 one).starves fun next met => (second next met).2 fun two => never ⟨one, two⟩
    · exact (first.2 one).append more

theorem Scans.congr (scans : scanner.Scans all fits goal) (same : also ↔ fits) : scanner.Scans all also goal := by
  rwa [propext same]

/-- A collection is entered unless as many are open as may be. -/
theorem Inside.scans_open {level depth : Nat} {keys : Bool} {c : Char} {token : Token} {rest : List Char}
    (inside : scanner.Inside level keys (c :: rest))
    (opens : ∀ start : Scanner, start.token c rest = start.openFlow token) (tight : Tight rest)
    (room : level ≤ maxLevel)
    (within : level < maxLevel → ∀ next : Scanner, next.Inside (level + 1) true rest →
      next.Scans (next.queue ++ more) (level + 1 + depth ≤ maxLevel) goal) :
    scanner.Scans (scanner.queue ++ token :: more) (level + (depth + 1) ≤ maxLevel) goal := by
  by_cases full : level = maxLevel
  · subst full
    refine ⟨fun fits => by omega, fun _ => ?_⟩
    exact inside.starves (fun start within => within.full (opens start)) (by simp)
  · have less : level < maxLevel := by omega
    have entered := (inside.reaches_open opens tight less).scans trivial
    rw [List.append_cons]
    refine (entered.trans (within less)).congr ?_
    rw [true_and, Nat.add_assoc, Nat.add_comm 1 depth]

end Scanning

end Handing

end Scanner

end Lineside.Yaml
