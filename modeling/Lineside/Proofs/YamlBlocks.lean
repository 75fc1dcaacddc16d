import Lineside.Proofs.YamlWriting
import Mathlib.Data.List.TakeWhile

/-! The scanner in block collections. Where it stands in front of the next token depends on the line breaks and the
indentation in between, which also close blocks; so what is carried along is where it comes to stand, and with which
tokens then queued. -/

namespace Lineside.Yaml

section Between

variable {cs : List Char}

/-- In a block, a line break lets a key start. -/
theorem skipBetween_line (tight : Tight cs) (keys : Bool) (fuel count : Nat) (mark : Mark) :
    skipBetween false 0 (fuel + 2) keys ⟨'\n' :: (List.replicate count ' ' ++ cs), mark⟩ =
      (⟨cs, mark.nextLine.right count⟩, true) := by
  rw [skipBetween]
  have stays : Cursor.skipWhile ⟨'\n' :: (List.replicate count ' ' ++ cs), mark⟩
      (fun c => c == ' ' || (c == '\t' && !keys)) = ⟨'\n' :: (List.replicate count ' ' ++ cs), mark⟩ := by
    simp [Cursor.skipWhile, Cursor.skip]
  have line : isBreak '\n' = true := rfl
  simpa [stays, line, Cursor.skipBreak] using skipBetween_spaces tight false true fuel count mark.nextLine

theorem skipLineComment_space (tight : Tight cs) (mark : Mark) :
    skipLineComment ⟨' ' :: cs, mark⟩ = ⟨' ' :: cs, mark⟩ := by
  obtain ⟨solid, comment⟩ := tight
  have blank : (cs.take 511).takeWhile isBlank = [] := by
    cases cs with
    | nil => rfl
    | cons c cs => simp [(solid c rfl).1]
  simp [skipLineComment, isBlank, blank, comment, Cursor.skip]

theorem skipLineComment_line (rest : List Char) (mark : Mark) :
    skipLineComment ⟨'\n' :: rest, mark⟩ = ⟨'\n' :: rest, mark⟩ := by
  simp [skipLineComment, isBlank, Cursor.skip]

end Between

namespace Scanner

section Standing

/-- The scanner stands in a block, in front of the characters `cs`. -/
structure Stands (scanner : Scanner) (queue : List Token) (indents : List Nat) (keys : Bool) (mark : Mark)
    (cs : List Char) : Prop where
  place : scanner.cursor = ⟨cs, mark⟩
  queue : scanner.queue = queue
  indents : scanner.indents = indents
  keys : scanner.keys = keys
  block : scanner.outer = []
  clipped : scanner.clipped = false
  marked : scanner.marked = 0
  going : scanner.finished = false
  within : cs.length ≤ scanner.size

/-- No key is missing where the scanner goes on. -/
structure Free (scanner : Scanner) : Prop where
  out : (scanner.candidate.undecided && scanner.candidate.required) = false

/-- The scanner comes to stand in a column, in front of the characters `cs`, once it has closed the blocks that end
there. -/
def Nears (scanner : Scanner) (queue : List Token) (indents : List Nat) (keys : Bool) (column : Nat) (cs : List Char) :
    Prop :=
  scanner.Free ∧ ∃ mark, mark.column = column ∧ scanner.approach.Stands queue indents keys mark cs

/-- The ends of the blocks that are deeper than a column. -/
def closers (indents : List Nat) (column : Nat) : List Token :=
  (indents.takeWhile (column < ·)).map fun _ => .blockEnd

variable {scanner : Scanner} {queue : List Token} {indents : List Nat} {keys next : Bool} {mark there : Mark}
  {column count : Nat} {cs rest : List Char}

theorem Stands.moved (stands : scanner.Stands queue indents keys mark cs) (shorter : rest.length ≤ cs.length)
    {candidate : Candidate} {queue : List Token} {keys : Bool} {mark : Mark} :
    Stands { scanner with candidate, queue, keys, cursor := ⟨rest, mark⟩ } queue indents keys mark rest :=
  ⟨rfl, rfl, stands.indents, rfl, stands.block, stands.clipped, stands.marked, stands.going,
    Nat.le_trans shorter stands.within⟩

theorem Stands.opened (stands : scanner.Stands queue indents keys mark cs) {indents : List Nat} :
    Stands { scanner with indents } queue indents keys mark cs :=
  ⟨stands.place, stands.queue, rfl, stands.keys, stands.block, stands.clipped, stands.marked, stands.going,
    stands.within⟩

theorem Stands.nears (stands : scanner.Stands queue indents keys mark cs) (free : scanner.Free)
    (leads : skipBetween false 0 (scanner.size + 1) keys ⟨cs, mark⟩ = (⟨rest, there⟩, next))
    (shorter : rest.length ≤ cs.length) :
    scanner.Nears (queue ++ closers indents there.column) (indents.dropWhile (there.column < ·)) next there.column
      rest := by
  obtain ⟨place, queued, open', may, block, clipped, marked, going, within⟩ := stands
  have approach : scanner.approach = { scanner with
      cursor := ⟨rest, there⟩
      keys := next
      indents := indents.dropWhile (there.column < ·)
      queue := queue ++ closers indents there.column } := by
    simp [Scanner.approach, closeBlocks, inFlow, block, marked, may, place, leads, open', queued, closers,
      Cursor.column]
  refine ⟨free, there, rfl, ?_⟩
  rw [approach]
  exact ⟨rfl, rfl, rfl, rfl, block, clipped, marked, going, Nat.le_trans shorter within⟩

/-- In front of a token, the scanner stays where it stands. -/
theorem Stands.nears_here (stands : scanner.Stands queue indents keys mark cs) (free : scanner.Free)
    (tight : Tight cs) (place : mark.column = column) :
    scanner.Nears (queue ++ closers indents column) (indents.dropWhile (column < ·)) keys column cs := by
  subst place
  exact stands.nears free (skipBetween_tight tight false keys scanner.size mark) (Nat.le_refl _)

theorem closers_deeper (bounded : ∀ outer ∈ indents.head?, outer ≤ column) :
    closers indents column = [] ∧ indents.dropWhile (column < ·) = indents := by
  cases indents with
  | nil => exact ⟨rfl, rfl⟩
  | cons outer indents =>
    have near : ¬ column < outer := Nat.not_lt.mpr (bounded outer rfl)
    simp [closers, near]

theorem Stands.nears_space (stands : scanner.Stands queue indents keys mark (' ' :: cs)) (free : scanner.Free)
    (tight : Tight cs) (bounded : ∀ outer ∈ indents.head?, outer ≤ mark.column + 1) :
    scanner.Nears queue indents keys (mark.column + 1) cs := by
  have nears := stands.nears free (skipBetween_spaces tight false keys scanner.size 1 mark) (Nat.le_succ _)
  obtain ⟨none, all⟩ := closers_deeper bounded
  have column : (mark.right 1).column = mark.column + 1 := rfl
  rwa [column, none, all, List.append_nil] at nears

theorem Stands.nears_line (stands : scanner.Stands queue indents keys mark ('\n' :: (List.replicate count ' ' ++ cs)))
    (free : scanner.Free) (tight : Tight cs) :
    scanner.Nears (queue ++ closers indents count) (indents.dropWhile (count < ·)) true count cs := by
  have within := stands.within
  rw [List.length_cons] at within
  have leads := skipBetween_line tight keys (scanner.size - 1) count mark
  have column : (mark.nextLine.right count).column = count := Nat.zero_add count
  rw [show scanner.size - 1 + 2 = scanner.size + 1 by omega] at leads
  have nears := stands.nears free leads (by simp; omega)
  rwa [column] at nears

/-- Before the next token, nothing changes but the place and the blocks that end there. -/
theorem approach_eq (scanner : Scanner) : ∃ cursor keys indents more,
    scanner.approach = { scanner with cursor, keys, indents, queue := scanner.queue ++ more } := by
  unfold Scanner.approach closeBlocks
  split
  split
  · exact ⟨_, _, _, [], by rw [List.append_nil]⟩
  · exact ⟨_, _, _, _, rfl⟩

theorem approach_hand {count : Nat} (few : count ≤ scanner.queue.length) :
    (scanner.hand count).approach = scanner.approach.hand count := by
  have same (keys : Bool) (cursor : Cursor) (deeper : Nat → Bool) :
      ({ scanner.hand count with cursor, keys }.closeBlocks deeper) =
        ({ scanner with cursor, keys }.closeBlocks deeper).hand count := by
    unfold closeBlocks
    have around : ({ scanner.hand count with cursor, keys } : Scanner).inFlow =
        ({ scanner with cursor, keys } : Scanner).inFlow := rfl
    rw [around]
    split
    · rfl
    · simp [hand, List.drop_append_of_le_length few]
  exact same _ _ _

theorem Stands.handing (stands : scanner.Stands queue indents keys mark cs) (count : Nat) :
    (scanner.hand count).Stands (queue.drop count) indents keys mark cs := by
  obtain ⟨place, queued, open', may, block, clipped, marked, going, within⟩ := stands
  exact ⟨place, by simp [hand, queued], open', may, block, clipped, marked, going, within⟩

theorem Nears.queued (nears : scanner.Nears queue indents keys column cs) : ∃ more, queue = scanner.queue ++ more := by
  obtain ⟨_, _, _, stands⟩ := nears
  obtain ⟨_, _, _, more, same⟩ := scanner.approach_eq
  exact ⟨more, by rw [← stands.queue, same]⟩

theorem Nears.going (nears : scanner.Nears queue indents keys column cs) : scanner.finished = false := by
  obtain ⟨_, _, _, stands⟩ := nears
  obtain ⟨_, _, _, _, same⟩ := scanner.approach_eq
  rw [← stands.going, same]

theorem Nears.handing (nears : scanner.Nears queue indents keys column cs) (few : count ≤ scanner.queue.length) :
    (scanner.hand count).Nears (queue.drop count) indents keys column cs := by
  obtain ⟨free, mark, place, stands⟩ := nears
  refine ⟨⟨free.out⟩, mark, place, ?_⟩
  rw [approach_hand few]
  exact stands.handing count

/-- Nothing here starts a document, ends one or says how to read it. -/
def Unmarked (column : Nat) (cs : List Char) : Prop :=
  0 < column ∨ cs.head? ≠ some '%' ∧ ∀ mark, Cursor.atMarker ⟨cs, mark⟩ = false

theorem Nears.fetch_cons {c : Char} (nears : scanner.Nears queue indents keys column (c :: rest))
    (unmarked : Unmarked column (c :: rest)) :
    scanner.fetch = (scanner.approach.token c rest).map endLine := by
  obtain ⟨_, mark, place, stands⟩ := nears
  have inside : ¬(mark.column = 0 ∧ c = '%') ∧ Cursor.atMarker ⟨c :: rest, mark⟩ = false := by
    rcases unmarked with deep | ⟨directive, marker⟩
    · exact ⟨by omega, Cursor.atMarker_inside (place ▸ deep) _⟩
    · exact ⟨fun both => directive (by rw [both.2]; rfl), marker mark⟩
  simp [Scanner.fetch, stands.clipped, stands.place, inside, Cursor.column]

end Standing

section Finding

variable {scanner : Scanner} {queue all : List Token} {goal : Scanner → List Token → Prop}

/-- Reading goes on until a goal is met. The tokens that are handed out until then are, with those that are then
queued, the tokens of `all`. Every token is read once and handed out once. -/
def Finds (scanner : Scanner) (queue all : List Token) (goal : Scanner → List Token → Prop) : Prop :=
  ∀ fuel, 2 * all.length ≤ fuel + queue.length → ∃ out less next left, goal next left ∧ out ++ left = all ∧
    tokens fuel scanner = out ++ tokens less next ∧ fuel + queue.length ≤ less + out.length + all.length

theorem Finds.imp {other : Scanner → List Token → Prop} (finds : scanner.Finds queue all goal)
    (weaker : ∀ next left, goal next left → other next left) : scanner.Finds queue all other := by
  intro fuel enough
  obtain ⟨out, less, next, left, met, split, same, spent⟩ := finds fuel enough
  exact ⟨out, less, next, left, weaker next left met, split, same, spent⟩

/-- The last tokens found may be replaced by more of them. -/
theorem Finds.replace {front old new : List Token} {middle : Scanner → List Token → Prop}
    (first : scanner.Finds queue (front ++ old) fun next left => ∃ kept, left = kept ++ old ∧ middle next kept)
    (second : ∀ next kept, middle next kept → next.Finds (kept ++ old) (kept ++ new) goal)
    (longer : old.length ≤ new.length) : scanner.Finds queue (front ++ new) goal := by
  intro fuel enough
  simp only [List.length_append] at enough
  obtain ⟨out, less, next, _, ⟨kept, rfl, met⟩, split, same, spent⟩ := first fuel (by simp; omega)
  rw [← List.append_assoc, List.append_cancel_right_eq] at split
  simp only [← split, List.length_append] at enough spent
  obtain ⟨out', less', after, left, met', split', same', spent'⟩ := second next kept met less (by simp; omega)
  refine ⟨out ++ out', less', after, left, met', ?_, ?_, ?_⟩
  · rw [List.append_assoc, split', ← List.append_assoc, split]
  · rw [same, same', List.append_assoc]
  · simp only [← split, List.length_append] at spent' ⊢
    omega

theorem Finds.trans {more : List Token} {middle : Scanner → List Token → Prop} (first : scanner.Finds queue all middle)
    (second : ∀ next left, middle next left → next.Finds left (left ++ more) goal) :
    scanner.Finds queue (all ++ more) goal := by
  have start : scanner.Finds queue (all ++ []) fun next left => ∃ kept, left = kept ++ [] ∧ middle next kept := by
    rw [List.append_nil]
    exact first.imp fun next left met => ⟨left, (List.append_nil left).symm, met⟩
  refine start.replace (fun next kept met => ?_) (Nat.zero_le _)
  rw [List.append_nil]
  exact second next kept met

theorem finds_of_fetch (going : scanner.finished = false) (queued : scanner.queue.length ≤ queue.length)
    (grows : queue.length < all.length)
    (gives : ∀ count, count = 0 ∨ count + 2 ≤ scanner.queue.length → ∃ next left,
      (scanner.hand count).fetch = some next ∧ goal next left ∧ scanner.queue.take count ++ left = all) :
    scanner.Finds queue all goal := by
  intro fuel enough
  obtain ⟨count, less, total, kept, same⟩ := tokens_hand fuel going (by omega)
  obtain ⟨next, left, read, met, split⟩ := gives count kept
  refine ⟨scanner.queue.take count, less, next, left, met, split, by rw [same, read, Option.elim_some], ?_⟩
  rw [List.length_take]
  omega

variable {indents : List Nat} {keys : Bool} {column : Nat} {rest : List Char}

/-- One token is read, with those that its place makes necessary. -/
theorem Nears.finds {c : Char} {new : List Token} (nears : scanner.Nears queue indents keys column (c :: rest))
    (unmarked : Unmarked column (c :: rest)) (some : new ≠ [])
    (reads : ∀ {here : Scanner} {front : List Token} {mark : Mark}, mark.column = column → here.Free →
      here.Stands front indents keys mark (c :: rest) →
        ∃ next, (here.token c rest).map endLine = .some next ∧ goal next (front ++ new)) :
    scanner.Finds queue (queue ++ new) goal := by
  obtain ⟨more, same⟩ := nears.queued
  have grows : 0 < new.length := List.length_pos_iff.mpr some
  refine finds_of_fetch nears.going (by simp [same]) (by simp; omega) fun count kept => ?_
  have few : count ≤ scanner.queue.length := by omega
  obtain ⟨free, mark, place, stands⟩ := nears.handing few
  have still : (scanner.hand count).approach.Free := by
    obtain ⟨_, _, _, _, same⟩ := (scanner.hand count).approach_eq
    rw [same]
    exact ⟨free.out⟩
  obtain ⟨next, read, met⟩ := reads place still stands
  refine ⟨next, _, by rw [(nears.handing few).fetch_cons unmarked, read], met, ?_⟩
  rw [← List.append_assoc, same, List.drop_append_of_le_length few, ← List.append_assoc, List.take_append_drop]

end Finding

section Scalars

variable {scanner : Scanner} {queue base : List Token} {indents : List Nat} {keys : Bool} {mark : Mark}
  {level count : Nat} {cs rest : List Char} {c : Char}

theorem Free.giveUp (free : scanner.Free) :
    scanner.giveUp = some { scanner with candidate := { scanner.candidate with undecided := false } } :=
  if_neg (by rw [free.out]; exact Bool.false_ne_true)

theorem Stands.propose (stands : scanner.Stands queue indents true mark cs) (free : scanner.Free) :
    scanner.propose = some { scanner with candidate := {
      number := scanner.nextNumber
      start := mark
      undecided := true
      required := indents.head? == some mark.column
      holds := true } } := by
  rw [Scanner.propose, if_pos stands.keys, free.giveUp]
  simp [inFlow, stands.block, stands.indents, stands.place, Cursor.column, nextNumber]

/-- Deeper than the keys around it, what is read may become a key but does not have to. -/
theorem Stands.propose_deep (stands : scanner.Stands queue indents keys mark cs) (free : scanner.Free)
    (deep : ∀ column ∈ indents.head?, column < mark.column) :
    ∃ candidate, scanner.propose = some { scanner with candidate } ∧ Free { scanner with candidate } := by
  cases keys with
  | false => exact ⟨scanner.candidate, if_neg (by simp [stands.keys]), free⟩
  | true =>
    have other : (indents.head? == some mark.column) = false := by
      rw [beq_eq_false_iff_ne]
      exact fun same => absurd (deep _ same) (Nat.lt_irrefl _)
    refine ⟨_, stands.propose free, ?_⟩
    rw [other]
    exact ⟨rfl⟩

theorem Stands.inFlow_eq_false (stands : scanner.Stands queue indents keys mark cs) : scanner.inFlow = false := by
  simp [inFlow, stands.block]

theorem token_single (scanner : Scanner) (rest : List Char) :
    scanner.token '\x27' rest = scanner.quotedScalar readSingleQuoted := by
  simp [token]

theorem token_double (scanner : Scanner) (rest : List Char) :
    scanner.token '"' rest = scanner.quotedScalar readDoubleQuoted := by
  simp [token]

theorem token_dash (scanner : Scanner) (cs : List Char) : scanner.token '-' (' ' :: cs) = scanner.blockEntry := by
  simp [token, endsWord, isBlank]

theorem token_colon (scanner : Scanner) (ends : endsWord rest = true) : scanner.token ':' rest = scanner.colon := by
  simp [token, ends]

theorem endLine_quiet (quiet : skipLineComment scanner.cursor = scanner.cursor) : endLine scanner = scanner := by
  unfold endLine
  split <;> simp [quiet]

/-- A scalar whose last line has ended has no comment behind it. -/
theorem endLine_broken {plain : Bool} {text : String} (last : scanner.queue.getLast? = some (.scalar plain text))
    (broken : scanner.keys = true) : endLine scanner = scanner := by
  simp [endLine, last, broken]

theorem endLine_dash (last : scanner.queue.getLast? = some .blockEntry) : endLine scanner = scanner := by
  simp [endLine, last]

section Read

variable {candidate : Candidate} (proposed : scanner.propose = some { scanner with candidate })
include proposed

theorem Stands.plainScalar {last : Cursor} {broken : Bool}
    (stands : scanner.Stands queue indents keys mark (cs ++ rest)) (flows : Flows cs)
    (stops : Stops scanner.indent rest (mark.right cs.length) last broken) (room : scanner.indent ≤ mark.column + 1) :
    scanner.plainScalar = some { scanner with
      candidate
      cursor := last
      queue := queue ++ [.scalar true (String.ofList cs)]
      keys := broken } := by
  have within := stands.within
  rw [List.length_append] at within
  have read := flows.readPlain stops room (show cs.length < scanner.size + 1 by omega)
  have flow : scanner.outer.isEmpty = true := by simp [stands.block]
  simp only [indent] at read
  simp [Scanner.plainScalar, proposed, inFlow, indent, flow, stands.place, read, stands.clipped, add, stands.queue]

theorem Stands.quotedScalar {quote : Char} {text inner : List Char} {read : QuotedReader}
    (stands : scanner.Stands queue indents keys mark (quote :: (inner ++ quote :: rest)))
    (found : ∀ fuel, inner.length < fuel → read fuel ⟨inner ++ quote :: rest, mark.right 1⟩ =
      some (text, ⟨rest, (mark.right 1).right (inner.length + 1)⟩)) :
    scanner.quotedScalar read = some { scanner with
      candidate
      cursor := ⟨rest, (mark.right 1).right (inner.length + 1)⟩
      queue := queue ++ [.scalar false (String.ofList text)]
      keys := false } := by
  have within := stands.within
  simp only [List.length_cons, List.length_append] at within
  have given := found (scanner.size + 1) (by omega)
  simp [Scanner.quotedScalar, proposed, advance, stands.place, Cursor.skip, given, add, stands.queue]

end Read

section Line

variable (free : scanner.Free) (deep : level < mark.column) (tight : Tight rest)
include free deep tight

/-- A plain scalar is read with the line break behind it. -/
theorem Stands.reads_bare (outside : count ≤ level) (bare : Bare cs)
    (stands : scanner.Stands queue (level :: indents) keys mark
      (cs ++ '\n' :: (List.replicate count ' ' ++ rest))) :
    ∃ next, scanner.plainScalar.map endLine = some next ∧
      next.Nears (queue ++ [.scalar true (String.ofList cs)] ++ closers (level :: indents) count)
        ((level :: indents).dropWhile (count < ·)) true count rest := by
  obtain ⟨candidate, proposed, free⟩ := stands.propose_deep free (by simpa using deep)
  have indent : scanner.indent = level + 1 := by simp [Scanner.indent, stands.indents]
  have stops : Stops scanner.indent ('\n' :: (List.replicate count ' ' ++ rest)) (mark.right cs.length)
      ⟨rest, (mark.right cs.length).nextLine.right count⟩ true := stops_line tight.1 (by omega)
  have column : ((mark.right cs.length).nextLine.right count).column = count := Nat.zero_add count
  have shorter : rest.length ≤ (cs ++ '\n' :: (List.replicate count ' ' ++ rest)).length := by
    simp only [List.length_append, List.length_cons]
    omega
  rw [stands.plainScalar proposed bare.flows stops (by omega), Option.map_some]
  refine ⟨_, rfl, ?_⟩
  rw [endLine_broken List.getLast?_concat rfl]
  exact (stands.moved shorter).nears_here ⟨free.out⟩ tight column

/-- Behind quotes, the line break is left to what follows. -/
theorem Stands.reads_quoted {quote : Char} {text inner : List Char} {read : QuotedReader}
    (stands : scanner.Stands queue (level :: indents) keys mark
      (quote :: (inner ++ quote :: '\n' :: (List.replicate count ' ' ++ rest))))
    (found : ∀ fuel, inner.length < fuel →
      read fuel ⟨inner ++ quote :: '\n' :: (List.replicate count ' ' ++ rest), mark.right 1⟩ =
        some (text, ⟨'\n' :: (List.replicate count ' ' ++ rest), (mark.right 1).right (inner.length + 1)⟩)) :
    ∃ next, (scanner.quotedScalar read).map endLine = some next ∧
      next.Nears (queue ++ [.scalar false (String.ofList text)] ++ closers (level :: indents) count)
        ((level :: indents).dropWhile (count < ·)) true count rest := by
  obtain ⟨candidate, proposed, free⟩ := stands.propose_deep free (by simpa using deep)
  have shorter : ('\n' :: (List.replicate count ' ' ++ rest)).length ≤
      (quote :: (inner ++ quote :: '\n' :: (List.replicate count ' ' ++ rest))).length := by
    simp only [List.length_append, List.length_cons]
    omega
  rw [stands.quotedScalar proposed found, Option.map_some]
  refine ⟨_, rfl, ?_⟩
  rw [endLine_quiet (skipLineComment_line _ _)]
  exact (stands.moved shorter).nears_line ⟨free.out⟩ tight

/-- A scalar is read with its line, up to where the next line goes on. -/
theorem Stands.reads_scalar (outside : count ≤ level) {text : String} {plain : Bool} {shown : List Char}
    (written : Written text plain shown)
    (stands : scanner.Stands queue (level :: indents) keys mark
      (shown ++ '\n' :: (List.replicate count ' ' ++ rest))) :
    ∃ c tail, shown = c :: tail ∧ ∃ next,
      (scanner.token c (tail ++ '\n' :: (List.replicate count ' ' ++ rest))).map endLine = some next ∧
        next.Nears (queue ++ [.scalar plain text] ++ closers (level :: indents) count)
          ((level :: indents).dropWhile (count < ·)) true count rest := by
  have inside : 0 < (mark.right 1).column := Nat.succ_pos _
  cases written with
  | plain bare =>
    obtain ⟨c, tail, shape⟩ := List.exists_cons_of_ne_nil bare.present
    have starts := bare.starts ('\n' :: (List.replicate count ' ' ++ rest))
    rw [shape, List.cons_append] at starts
    refine ⟨c, tail, shape, ?_⟩
    rw [token_plain stands.inFlow_eq_false starts]
    simpa using stands.reads_bare free deep tight outside bare
  | single visible line =>
    rw [List.append_assoc, List.cons_append] at stands
    refine ⟨'\x27', text.toList.flatMap shownSingle ++ ['\x27'], rfl, ?_⟩
    rw [List.append_assoc, List.singleton_append, token_single]
    have apart : ('\n' :: (List.replicate count ' ' ++ rest)).head? ≠ some '\x27' := by simp
    simpa using stands.reads_quoted free deep tight fun fuel enough =>
      readSingleQuoted_shown visible line apart inside enough
  | double marked =>
    rw [List.append_assoc, List.cons_append] at stands
    refine ⟨'"', text.toList.flatMap (shownDouble marked) ++ ['"'], rfl, ?_⟩
    rw [List.append_assoc, List.singleton_append, token_double]
    simpa using stands.reads_quoted free deep tight fun fuel enough =>
      readDoubleQuoted_shown marked text.toList _ inside enough

end Line

end Scalars

section Blocks

variable {scanner : Scanner} {queue front new : List Token} {before base : List Nat} {keys : Bool} {mark there : Mark}
  {level : Nat} {cs rest : List Char} {token : Token}

/-- A block starts in a column inside of others, or goes on there. -/
inductive Opens (token : Token) (column : Nat) (base : List Nat) : List Nat → List Token → Prop
  | fresh (deep : ∀ outer ∈ base.head?, outer < column) (room : base.length < maxLevel) :
    Opens token column base base [token]
  | within : Opens token column base (column :: base) []

theorem Opens.bounded (opens : Opens token level base before new) : ∀ outer ∈ before.head?, outer ≤ level := by
  cases opens with
  | fresh deep => exact fun outer found => Nat.le_of_lt (deep outer found)
  | within => simp

theorem Stands.openBlock_within (stands : scanner.Stands queue (level :: base) keys mark cs) (number : Option Nat) :
    scanner.openBlock level number token = some scanner := by
  simp [openBlock, stands.indents]

theorem Stands.openBlock_fresh (stands : scanner.Stands queue base keys mark cs)
    (deep : ∀ outer ∈ base.head?, outer < level) (room : base.length < maxLevel) (number : Option Nat) :
    scanner.openBlock level number token = match number with
      | some number => some ({ scanner with indents := level :: base }.insert number token)
      | none => some ({ scanner with indents := level :: base }.add token) := by
  have outside : base.head?.any (level ≤ ·) = false := by
    cases base with
    | nil => rfl
    | cons outer base => simpa using deep outer rfl
  rw [openBlock, stands.inFlow_eq_false, stands.indents, outside, Bool.or_self, if_neg Bool.false_ne_true]
  exact if_neg (Nat.not_le.mpr room)

/-- A dash opens a sequence in its column or goes on with it. An item stands two columns further. -/
theorem Stands.reads_dash (stands : scanner.Stands queue before true mark ('-' :: ' ' :: cs)) (free : scanner.Free)
    (opens : Opens .blockSequence mark.column base before new) (tight : Tight cs) :
    ∃ next, (scanner.token '-' (' ' :: cs)).map endLine = some next ∧
      next.Nears (queue ++ (new ++ [.blockEntry])) (mark.column :: base) true (mark.column + 2) cs := by
  have flow := stands.inFlow_eq_false
  have opened : scanner.openBlock mark.column none .blockSequence =
      some { scanner with indents := mark.column :: base, queue := queue ++ new } := by
    cases opens with
    | fresh deep room => simp [stands.openBlock_fresh deep room, add, stands.queue]
    | within =>
      rw [stands.openBlock_within, ← stands.indents, List.append_nil, ← stands.queue]
  have column : scanner.cursor.column = mark.column := by rw [stands.place]; rfl
  have given : Free { scanner with indents := mark.column :: base, queue := queue ++ new } := ⟨free.out⟩
  have read : scanner.token '-' (' ' :: cs) = some { scanner with
      cursor := ⟨' ' :: cs, mark.right 1⟩
      queue := queue ++ (new ++ [.blockEntry])
      indents := mark.column :: base
      candidate := { scanner.candidate with undecided := false }
      keys := true } := by
    rw [token_dash, blockEntry, flow, stands.keys, column, opened]
    simp only [Option.bind_eq_bind, Option.bind_some, given.giveUp]
    simp [advance, add, stands.place, Cursor.skip]
  rw [read, Option.map_some]
  refine ⟨_, rfl, ?_⟩
  have last : (queue ++ (new ++ [Token.blockEntry])).getLast? = some .blockEntry := by
    rw [← List.append_assoc, List.getLast?_concat]
  rw [endLine_dash last]
  have bounded : ∀ outer ∈ (mark.column :: base).head?, outer ≤ (mark.right 1).column + 1 := by
    simp only [List.head?_cons, Option.mem_some_iff, forall_eq', Mark.right]
    omega
  exact (stands.opened.moved (Nat.le_succ _)).nears_space ⟨rfl⟩ tight bounded

section Key

/-- The scanner has read what will be a key. -/
structure Keyed (scanner : Scanner) (front : List Token) (token : Token) (indents : List Nat) (level : Nat)
    (mark : Mark) (cs : List Char) : Prop where
  stands : scanner.Stands (front ++ [token]) indents false mark cs
  named : scanner.Named token
  start : scanner.candidate.start.column = level
  deep : level < mark.column

theorem Keyed.handing (keyed : scanner.Keyed front token before level mark cs) {count : Nat}
    (few : count ≤ front.length) : (scanner.hand count).Keyed (front.drop count) token before level mark cs := by
  obtain ⟨stands, named, start, deep⟩ := keyed
  have handed := stands.handing count
  rw [List.drop_append_of_le_length few] at handed
  refine ⟨handed, named.handing ?_, start, deep⟩
  rw [stands.queue, List.length_append, List.length_singleton]
  omega

theorem Stands.reads_key (stands : scanner.Stands queue before true mark (cs ++ ':' :: rest)) (free : scanner.Free)
    (bounded : ∀ outer ∈ before.head?, outer ≤ mark.column) (bare : Bare cs) (short : cs.length ≤ 1024)
    (ends : endsWord rest = true) :
    ∃ next, scanner.plainScalar.map endLine = some next ∧
      next.Keyed queue (.scalar true (String.ofList cs)) before mark.column (mark.right cs.length) (':' :: rest) := by
  have room : scanner.indent ≤ mark.column + 1 := by
    rw [indent, stands.indents]
    cases before with
    | nil => exact Nat.zero_le _
    | cons outer before => exact Nat.succ_le_succ (bounded outer rfl)
  have grows : 0 < cs.length := List.length_pos_iff.mpr bare.present
  rw [stands.plainScalar (stands.propose free) bare.flows (stops_colon ends) room, Option.map_some]
  refine ⟨_, rfl, ?_⟩
  rw [endLine_quiet (skipLineComment_tight (.sign rest) _)]
  refine ⟨stands.moved (by simp), ⟨?_, ?_, queue, rfl⟩, rfl, ?_⟩
  · simp [Candidate.reaches, Mark.right, short]
  · simp [nextNumber, stands.queue, Nat.add_assoc]
  · simp only [Mark.right]
    omega

theorem insert_at {tail : List Token} (queued : scanner.queue = front ++ tail) (new : Token) :
    scanner.insert (scanner.handed + front.length) new = { scanner with queue := front ++ new :: tail } := by
  have split (front : List Token) : (front ++ tail).insertIdx front.length new = front ++ new :: tail := by
    induction front with
    | nil => rfl
    | cons first front ih => simpa using ih
  have kept : ¬ scanner.handed + front.length < scanner.handed := Nat.not_lt.mpr (Nat.le_add_right _ _)
  simp [insert, kept, queued, split]

theorem Stands.approach_here (stands : scanner.Stands queue before keys mark cs) (tight : Tight cs)
    (bounded : ∀ outer ∈ before.head?, outer ≤ mark.column) : scanner.approach = scanner := by
  obtain ⟨none, all⟩ := closers_deeper bounded
  obtain ⟨place, queued, indents, may, block, clipped, marked, going, within⟩ := stands
  have stays := skipBetween_tight tight false keys scanner.size mark
  rw [closers, List.map_eq_nil_iff] at none
  cases scanner
  simp_all [approach, closeBlocks, inFlow, Cursor.column]

/-- The mark of a key is put in front of the token that was read last. -/
theorem Keyed.number (keyed : scanner.Keyed front token before level mark cs) :
    scanner.candidate.number = scanner.handed + front.length := by
  have last := keyed.named.number
  rw [nextNumber, keyed.stands.queue, List.length_append, List.length_singleton] at last
  omega

/-- The first key of a column opens a mapping there, in front of the mark of the key. -/
theorem Keyed.openBlock (keyed : scanner.Keyed front token before level mark cs)
    (opens : Opens .blockMapping level base before new) :
    ({ scanner with queue := front ++ [.key, token] } : Scanner).openBlock level (some scanner.candidate.number)
      .blockMapping = some { scanner with indents := level :: base, queue := front ++ (new ++ [.key, token]) } := by
  have number := keyed.number
  obtain ⟨stands, _⟩ := keyed
  have named : Stands { scanner with queue := front ++ [.key, token] } (front ++ [.key, token]) before false mark cs :=
    ⟨stands.place, rfl, stands.indents, stands.keys, stands.block, stands.clipped, stands.marked, stands.going,
      stands.within⟩
  cases opens with
  | fresh deep room =>
    rw [named.openBlock_fresh deep room, number]
    exact congrArg some (insert_at rfl .blockMapping)
  | within => rw [named.openBlock_within, ← stands.indents, List.nil_append]

theorem Keyed.token_colon (keyed : scanner.Keyed front token before level mark (':' :: rest))
    (opens : Opens .blockMapping level base before new) (ends : endsWord rest = true) :
    scanner.token ':' rest = some { scanner with
      cursor := ⟨rest, mark.right 1⟩
      queue := front ++ (new ++ [.key, token, .value])
      indents := level :: base
      candidate := { scanner.candidate with undecided := false }
      keys := false } := by
  have opened := keyed.openBlock opens
  have number := keyed.number
  obtain ⟨stands, named, start, _⟩ := keyed
  have reached : scanner.candidate.reaches scanner.cursor.mark = true := named.reaches
  have inserted : scanner.insert scanner.candidate.number .key = { scanner with queue := front ++ [.key, token] } := by
    rw [number]
    exact insert_at stands.queue .key
  rw [Scanner.token_colon scanner ends, colon, if_pos reached, inserted, start]
  simp only [opened, Option.bind_eq_bind, Option.bind_some]
  simp [advance, add, stands.place, Cursor.skip]

/-- A colon makes a key of the token in front of it, and opens a mapping in the column of the key if it is the
first one there. -/
theorem Keyed.reads_colon (keyed : scanner.Keyed front token before level mark (':' :: rest))
    (opens : Opens .blockMapping level base before new) (ends : endsWord rest = true)
    (quiet : ∀ mark, skipLineComment ⟨rest, mark⟩ = ⟨rest, mark⟩) :
    ∃ next, scanner.fetch = some next ∧ next.candidate.undecided = false ∧
      next.Stands (front ++ (new ++ [.key, token, .value])) (level :: base) false (mark.right 1) rest := by
  have read := keyed.token_colon opens ends
  obtain ⟨stands, _, _, deep⟩ := keyed
  have bounded : ∀ outer ∈ before.head?, outer ≤ mark.column := fun outer found =>
    Nat.le_of_lt (Nat.lt_of_le_of_lt (opens.bounded outer found) deep)
  have fetch : scanner.fetch = (scanner.token ':' rest).map endLine := by
    have ahead : 0 < mark.column := by omega
    have marker := Cursor.atMarker_inside ahead (':' :: rest)
    simp [Scanner.fetch, stands.approach_here (.sign rest) bounded, stands.clipped, stands.place, marker]
  rw [fetch, read, Option.map_some]
  refine ⟨_, rfl, ?_⟩
  rw [endLine_quiet (quiet _)]
  have entered : Stands { scanner with indents := level :: base } (front ++ [token]) (level :: base) false mark
      (':' :: rest) := stands.opened
  exact ⟨rfl, entered.moved (Nat.le_succ _)⟩

end Key

section Brackets

/-- The scanner stands in a list on a line, in which nothing was read yet. -/
structure Listing (scanner : Scanner) (queue : List Token) (indents : List Nat) (mark : Mark) (cs : List Char) :
    Prop where
  place : scanner.cursor = ⟨cs, mark⟩
  queue : scanner.queue = queue
  indents : scanner.indents = indents
  around : ∃ candidate, scanner.outer = [candidate] ∧ (candidate.undecided && candidate.required) = false
  decided : scanner.candidate.undecided = false
  clipped : scanner.clipped = false
  marked : scanner.marked = 0
  going : scanner.finished = false
  within : cs.length ≤ scanner.size

theorem Listing.handing (listing : scanner.Listing queue before mark cs) (count : Nat) :
    (scanner.hand count).Listing (queue.drop count) before mark cs := by
  obtain ⟨place, queued, indents, around, decided, clipped, marked, going, within⟩ := listing
  exact ⟨place, by simp [hand, queued], indents, around, decided, clipped, marked, going, within⟩

theorem Stands.reads_open (stands : scanner.Stands queue before false mark ('[' :: cs)) (free : scanner.Free)
    (tight : Tight cs) :
    ∃ next, (scanner.token '[' cs).map endLine = some next ∧
      next.Listing (queue ++ [.flowSequence]) before (mark.right 1) cs := by
  have proposed : scanner.propose = some scanner := if_neg (by simp [stands.keys])
  have room : ¬ maxLevel ≤ scanner.outer.length := by
    rw [stands.block]
    decide
  have read : scanner.token '[' cs = some { scanner with
      cursor := ⟨cs, mark.right 1⟩
      queue := queue ++ [.flowSequence]
      keys := true
      candidate := { number := scanner.nextNumber }
      outer := scanner.candidate :: scanner.outer } := by
    simp [token, openFlow, proposed, room, advance, add, stands.place, stands.queue, Cursor.skip, nextNumber]
  rw [read, Option.map_some]
  refine ⟨_, rfl, ?_⟩
  rw [endLine_quiet (skipLineComment_tight tight _)]
  exact ⟨rfl, rfl, stands.indents, ⟨scanner.candidate, by rw [stands.block], free.out⟩, rfl, stands.clipped,
    stands.marked, stands.going, Nat.le_trans (Nat.le_succ _) stands.within⟩

theorem Listing.reads_close (listing : scanner.Listing queue before mark (']' :: rest)) (ahead : 0 < mark.column)
    (quiet : ∀ mark, skipLineComment ⟨rest, mark⟩ = ⟨rest, mark⟩) :
    ∃ next, scanner.fetch = some next ∧ next.Free ∧
      next.Stands (queue ++ [.flowSequenceEnd]) before false (mark.right 1) rest := by
  obtain ⟨place, queued, indents, ⟨candidate, outer, free⟩, decided, clipped, marked, going, within⟩ := listing
  have flow : scanner.inFlow = true := by simp [inFlow, outer]
  have approach : scanner.approach = scanner := by
    have stays := skipBetween_tight (.sign rest : Tight (']' :: rest)) true scanner.keys scanner.size mark
    cases scanner
    simp_all [Scanner.approach, closeBlocks, inFlow]
  have given : scanner.giveUp = some { scanner with candidate := { scanner.candidate with undecided := false } } :=
    Free.giveUp ⟨by simp [decided]⟩
  have read : scanner.token ']' rest = some { scanner with
      cursor := ⟨rest, mark.right 1⟩
      queue := queue ++ [.flowSequenceEnd]
      keys := false
      candidate := { candidate with holds := candidate.holds && candidate.number != scanner.candidate.number }
      outer := [] } := by
    simp [token, closeFlow, given, outer, advance, add, place, queued, Cursor.skip]
  have fetch : scanner.fetch = (scanner.token ']' rest).map endLine := by
    have marker := Cursor.atMarker_inside ahead (']' :: rest)
    simp [Scanner.fetch, approach, clipped, place, marker]
  rw [fetch, read, Option.map_some]
  refine ⟨_, rfl, ?_⟩
  rw [endLine_quiet (quiet _)]
  exact ⟨⟨free⟩, rfl, rfl, indents, rfl, rfl, clipped, marked, going, Nat.le_trans (Nat.le_succ _) within⟩

end Brackets

section End

/-- The end of the text closes all blocks. -/
theorem Nears.reads_end {column : Nat} (nears : scanner.Nears queue before keys column []) :
    ∃ next, scanner.fetch = some next ∧ next.finished = true ∧
      next.queue = queue ++ (before.map (fun _ => .blockEnd) ++ [.streamEnd]) := by
  obtain ⟨free, mark, _, stands⟩ := nears
  have still : scanner.approach.Free := by
    obtain ⟨_, _, _, _, same⟩ := scanner.approach_eq
    rw [same]
    exact ⟨free.out⟩
  have all : before.takeWhile (fun _ => true) = before := List.takeWhile_eq_self_iff.mpr fun _ _ => rfl
  have closed : scanner.approach.closeBlocks (fun _ => true) = { scanner.approach with
      indents := before.dropWhile fun _ => true
      queue := queue ++ before.map fun _ => .blockEnd } := by
    simp [closeBlocks, inFlow, stands.block, stands.indents, stands.queue, all]
  have given : Free { scanner.approach with
      indents := before.dropWhile fun _ => true
      queue := queue ++ before.map fun _ => .blockEnd } := ⟨still.out⟩
  have fetch : scanner.fetch = scanner.approach.finish := by
    simp [Scanner.fetch, stands.clipped, stands.place]
  rw [fetch, finish, closed, given.giveUp]
  exact ⟨_, rfl, rfl, List.append_assoc _ _ _⟩

/-- At the end of the text, what is left is handed out. -/
theorem Nears.tokens_end {column : Nat} (nears : scanner.Nears queue before keys column []) {fuel : Nat}
    (enough : queue.length + 2 ≤ fuel) :
    scanner.tokens fuel = queue ++ (before.map (fun _ => .blockEnd) ++ [.streamEnd]) := by
  obtain ⟨more, queued⟩ := nears.queued
  have length := congrArg List.length queued
  rw [List.length_append] at length
  obtain ⟨count, less, total, kept, same⟩ := tokens_hand fuel nears.going (by omega)
  have few : count ≤ scanner.queue.length := by omega
  obtain ⟨next, read, finished, left⟩ := (nears.handing few).reads_end
  obtain ⟨less, rfl⟩ : ∃ fewer, less = fewer + 1 := ⟨less - 1, by omega⟩
  rw [same, read, Option.elim_some, tokens, if_pos finished, left, queued, List.drop_append_of_le_length few]
  simp only [← List.append_assoc, List.take_append_drop]

theorem Finds.tokens_eq {all : List Token} {column : Nat}
    (finds : scanner.Finds queue all (Nears · · before keys column [])) {fuel : Nat}
    (enough : 2 * all.length + 2 ≤ fuel + queue.length) :
    scanner.tokens fuel = all ++ (before.map (fun _ => .blockEnd) ++ [.streamEnd]) := by
  obtain ⟨out, less, next, left, nears, split, same, spent⟩ := finds fuel (by omega)
  have length := congrArg List.length split
  rw [List.length_append] at length
  rw [same, nears.tokens_end (by omega), ← List.append_assoc, split]

end End

section Runs

variable {column count : Nat}

/-- A scalar is found with its line. -/
theorem Nears.finds_scalar {text : String} {plain : Bool} {shown : List Char} (written : Written text plain shown)
    (nears : scanner.Nears queue (level :: base) keys column
      (shown ++ '\n' :: (List.replicate count ' ' ++ rest)))
    (deep : level < column) (outside : count ≤ level) (tight : Tight rest) :
    scanner.Finds queue (queue ++ ([.scalar plain text] ++ closers (level :: base) count))
      (Nears · · ((level :: base).dropWhile (count < ·)) true count rest) := by
  obtain ⟨c, tail, shape⟩ := List.exists_cons_of_ne_nil written.present
  have shape' : shown ++ '\n' :: (List.replicate count ' ' ++ rest) =
      c :: (tail ++ '\n' :: (List.replicate count ' ' ++ rest)) := by rw [shape]; rfl
  rw [shape'] at nears
  refine nears.finds (.inl (by omega)) (by simp) fun {here front mark} place free stands => ?_
  rw [← shape'] at stands
  obtain ⟨d, other, same, next, read, after⟩ := stands.reads_scalar free (by omega) tight outside written
  obtain ⟨rfl, rfl⟩ := List.cons.inj (shape.symm.trans same)
  rw [List.append_assoc] at after
  exact ⟨next, read, after⟩

/-- What stands in front of the rest of the text, behind the colon of a name in a column. -/
structure Behind (scanner : Scanner) (queue : List Token) (base : List Nat) (level : Nat) (cs : List Char) : Prop where
  decided : scanner.candidate.undecided = false
  place : ∃ mark, level < mark.column ∧ scanner.Stands queue (level :: base) false mark cs

theorem Behind.free (behind : scanner.Behind queue base level rest) : scanner.Free :=
  ⟨by rw [behind.decided, Bool.false_and]⟩

theorem Behind.nears_line {cs : List Char} (behind : scanner.Behind queue base level (' ' :: cs)) (tight : Tight cs) :
    ∃ column, level < column ∧ scanner.Nears queue (level :: base) false column cs := by
  obtain ⟨mark, deep, stands⟩ := behind.place
  have bounded : ∀ outer ∈ (level :: base).head?, outer ≤ mark.column + 1 := by
    simp only [List.head?_cons, Option.mem_some_iff, forall_eq']
    omega
  exact ⟨mark.column + 1, by omega, stands.nears_space behind.free tight bounded⟩

theorem Behind.nears_block {cs : List Char} {column : Nat}
    (behind : scanner.Behind queue base level ('\n' :: (List.replicate column ' ' ++ cs))) (tight : Tight cs)
    (deep : level ≤ column) : scanner.Nears queue (level :: base) true column cs := by
  obtain ⟨mark, _, stands⟩ := behind.place
  have nears := stands.nears_line behind.free tight
  obtain ⟨none, all⟩ := closers_deeper (show ∀ outer ∈ (level :: base).head?, outer ≤ column by simpa using deep)
  rwa [none, all, List.append_nil] at nears

/-- A key is found with its colon, in front of which no other token is queued. -/
theorem Nears.finds_key (nears : scanner.Nears queue before true level (cs ++ ':' :: rest)) (bare : Bare cs)
    (short : cs.length ≤ 1024) (unmarked : Unmarked level (cs ++ ':' :: rest))
    (opens : Opens .blockMapping level base before new) (ends : endsWord rest = true)
    (quiet : ∀ mark, skipLineComment ⟨rest, mark⟩ = ⟨rest, mark⟩) :
    scanner.Finds queue (queue ++ (new ++ [.key, .scalar true (String.ofList cs), .value]))
      (Behind · · base level rest) := by
  obtain ⟨c, tail, shape⟩ := List.exists_cons_of_ne_nil bare.present
  have scalar : scanner.Finds queue (queue ++ [.scalar true (String.ofList cs)]) fun next left =>
      ∃ kept, left = kept ++ [.scalar true (String.ofList cs)] ∧
        ∃ mark, next.Keyed kept (.scalar true (String.ofList cs)) before level mark (':' :: rest) := by
    have starts := bare.starts (':' :: rest)
    rw [shape, List.cons_append] at nears unmarked starts
    refine nears.finds unmarked (by simp) fun {here front mark} place free stands => ?_
    rw [← List.cons_append, ← shape] at stands
    subst place
    obtain ⟨next, read, keyed⟩ := stands.reads_key free opens.bounded bare short ends
    rw [token_plain stands.inFlow_eq_false starts]
    exact ⟨next, read, front, rfl, _, keyed⟩
  refine scalar.replace (fun next kept ⟨mark, keyed⟩ => ?_) (by simp)
  have queued := keyed.stands.queue
  refine finds_of_fetch keyed.stands.going (queued ▸ Nat.le_refl _) (by simp) fun count few => ?_
  have few : count ≤ kept.length := by
    rw [queued, List.length_append, List.length_singleton] at few
    omega
  have handed := keyed.handing few
  obtain ⟨after, read, decided, stands⟩ := handed.reads_colon opens ends quiet
  have deep : level < (mark.right 1).column := Nat.lt_succ_of_lt keyed.deep
  refine ⟨after, _, read, ⟨decided, _, deep, stands⟩, ?_⟩
  rw [queued, List.take_append_of_le_length few, ← List.append_assoc, List.take_append_drop]

/-- The dash of an item is found, and the scanner goes on in front of the item. -/
theorem Nears.finds_dash (nears : scanner.Nears queue before true level ('-' :: ' ' :: cs))
    (opens : Opens .blockSequence level base before new) (tight : Tight cs) :
    scanner.Finds queue (queue ++ (new ++ [.blockEntry])) (Nears · · (level :: base) true (level + 2) cs) := by
  have unmarked : Unmarked level ('-' :: ' ' :: cs) := by
    refine .inr ⟨by simp, fun mark => ?_⟩
    rcases cs with _ | ⟨c, cs⟩ <;> simp [Cursor.atMarker]
  refine nears.finds unmarked (by simp) fun {here front mark} place free stands => ?_
  subst place
  exact stands.reads_dash free opens tight

/-- A list without items is found on its line. -/
theorem Nears.finds_empty
    (nears : scanner.Nears queue before false column ('[' :: ']' :: '\n' :: (List.replicate count ' ' ++ rest)))
    (ahead : 0 < column) (tight : Tight rest) :
    scanner.Finds queue (queue ++ ([.flowSequence, .flowSequenceEnd] ++ closers before count))
      (Nears · · (before.dropWhile (count < ·)) true count rest) := by
  have opened : scanner.Finds queue (queue ++ [.flowSequence]) fun next left => ∃ mark, 0 < mark.column ∧
      next.Listing left before mark (']' :: '\n' :: (List.replicate count ' ' ++ rest)) := by
    refine nears.finds (.inl ahead) (by simp) fun {here front mark} place free stands => ?_
    obtain ⟨next, read, listing⟩ := stands.reads_open free (.sign _)
    exact ⟨next, read, _, Nat.succ_pos _, listing⟩
  rw [show queue ++ ([.flowSequence, .flowSequenceEnd] ++ closers before count) =
    queue ++ [.flowSequence] ++ ([.flowSequenceEnd] ++ closers before count) by simp]
  refine opened.trans fun next left ⟨mark, ahead, listing⟩ => ?_
  refine finds_of_fetch listing.going (listing.queue ▸ Nat.le_refl _) (by simp) fun kept few => ?_
  have few : kept ≤ left.length := by
    rw [listing.queue] at few
    omega
  obtain ⟨after, read, free, stands⟩ := (listing.handing kept).reads_close ahead (skipLineComment_line _)
  refine ⟨after, _, read, stands.nears_line free tight, ?_⟩
  rw [listing.queue]
  simp only [← List.append_assoc, List.take_append_drop]

end Runs

end Blocks

end Scanner

end Lineside.Yaml
