import Lineside.Proofs.YamlTokens

/-! JSON text is YAML text on a single line. Its tokens are those of the value it was written from, and the node that
is read from them is that value, unless it is nested deeper than the scanner goes. -/

namespace Lineside.Yaml

mutual

/-- The tokens of a value. -/
def valueTokens : Json → List Token
  | .null => [.scalar true "null"]
  | .bool true => [.scalar true "true"]
  | .bool false => [.scalar true "false"]
  | .number text => [.scalar true text]
  | .string text => [.scalar false text]
  | .array items => .flowSequence :: itemTokens items
  | .object members => .flowMapping :: memberTokens members

/-- The tokens of the items of an array and its closing bracket. -/
def itemTokens : List Json → List Token
  | [] => [.flowSequenceEnd]
  | [item] => valueTokens item ++ [.flowSequenceEnd]
  | item :: rest => valueTokens item ++ .flowEntry :: itemTokens rest

/-- The tokens of the members of an object and its closing brace. -/
def memberTokens : List (String × Json) → List Token
  | [] => [.flowMappingEnd]
  | [(key, value)] => .key :: .scalar false key :: .value :: valueTokens value ++ [.flowMappingEnd]
  | (key, value) :: rest =>
    .key :: .scalar false key :: .value :: valueTokens value ++ .flowEntry :: memberTokens rest

end

mutual

/-- The text of the value is also YAML text: numbers are 64-bit integers, every character may stand there, and keys
are short enough to be found. -/
def Legible : Json → Prop
  | .number text => ∃ value : Int64, text = value.toInt.repr
  | .string text => ∀ c ∈ text.toList, isLegible c = true
  | .array items => LegibleItems items
  | .object members => LegibleMembers members
  | _ => True

def LegibleItems : List Json → Prop
  | [] => True
  | item :: rest => Legible item ∧ LegibleItems rest

def LegibleMembers : List (String × Json) → Prop
  | [] => True
  | (key, value) :: rest =>
    ((∀ c ∈ key.toList, isLegible c = true) ∧ (Json.renderString key).length ≤ 1024) ∧ Legible value ∧
      LegibleMembers rest

end

theorem LegibleMembers.append {first second : List (String × Json)} (one : LegibleMembers first)
    (two : LegibleMembers second) : LegibleMembers (first ++ second) := by
  induction first with
  | nil => exact two
  | cons member first ih => exact ⟨one.1, one.2.1, ih one.2.2⟩

section Values

open Scanner

theorem tight_render {value : Json} (legible : Legible value) (rest : List Char) : Tight (value.render ++ rest) := by
  cases value with
  | null => exact .word (by decide) _
  | bool value => cases value <;> exact .word (by decide) _
  | number text =>
    obtain ⟨value, rfl⟩ := legible
    obtain ⟨all, present, _⟩ := isWord_repr value.toInt
    obtain ⟨c, cs, shape⟩ := List.exists_cons_of_ne_nil present
    rw [Json.render, shape, List.cons_append]
    exact .word (all c (shape ▸ List.mem_cons_self)) _
  | string text => exact .sign _
  | array items => exact .sign _
  | object members => exact .sign _

theorem renderItems_cons (item next : Json) (tail : List Json) :
    Json.renderItems (item :: next :: tail) = item.render ++ ',' :: Json.renderItems (next :: tail) := rfl

theorem renderMembers_cons (key : String) (value : Json) (next : String × Json) (tail : List (String × Json)) :
    Json.renderMembers ((key, value) :: next :: tail) =
      Json.renderString key ++ ':' :: value.render ++ ',' :: Json.renderMembers (next :: tail) := rfl

theorem tight_renderItems {items : List Json} (legible : LegibleItems items) (rest : List Char) :
    Tight (Json.renderItems items ++ rest) := by
  match items, legible with
  | [], _ => exact .sign _
  | [item], legible =>
    rw [Json.renderItems, List.append_assoc]
    exact tight_render legible.1 _
  | item :: next :: tail, legible =>
    rw [renderItems_cons, List.append_assoc]
    exact tight_render legible.1 _

theorem tight_renderMembers (members : List (String × Json)) (rest : List Char) :
    Tight (Json.renderMembers members ++ rest) := by
  match members with
  | [] => exact .sign _
  | [(key, value)] => exact .sign _
  | (key, value) :: next :: tail => exact .sign _

theorem token_array (scanner : Scanner) (rest : List Char) :
    scanner.token '[' rest = scanner.openFlow .flowSequence := by
  simp [token]

theorem token_arrayEnd (scanner : Scanner) (rest : List Char) :
    scanner.token ']' rest = scanner.closeFlow .flowSequenceEnd := by
  simp [token]

theorem token_object (scanner : Scanner) (rest : List Char) :
    scanner.token '\x7b' rest = scanner.openFlow .flowMapping := by
  simp [token]

theorem token_objectEnd (scanner : Scanner) (rest : List Char) :
    scanner.token '\x7d' rest = scanner.closeFlow .flowMappingEnd := by
  simp [token]

mutual

/-- The scanner finds the tokens of a value unless it is nested too deep. -/
theorem scans_value : (value : Json) → Legible value → {scanner : Scanner} → {level : Nat} → {keys : Bool} →
    {rest : List Char} → scanner.Inside (level + 1) keys (value.render ++ rest) → level < maxLevel → Closes rest →
      scanner.Scans (scanner.queue ++ valueTokens value) (level + 1 + value.depth ≤ maxLevel)
        (Inside · (level + 1) false rest)
  | .null, _, _, _, _, _, inside, room, closes => (inside.reaches_word isWord_null closes).scans room
  | .bool true, _, _, _, _, _, inside, room, closes => (inside.reaches_word isWord_true closes).scans room
  | .bool false, _, _, _, _, _, inside, room, closes => (inside.reaches_word isWord_false closes).scans room
  | .number text, legible, _, _, _, rest, inside, room, closes => by
    obtain ⟨value, rfl⟩ := legible
    exact (inside.reaches_word (isWord_repr value.toInt) closes).scans room
  | .string text, _, _, _, _, _, inside, room, closes =>
    ((inside.reaches_string closes.tight).imp fun _ after => after.1).scans room
  | .array items, legible, scanner, level, _, rest, inside, room, closes =>
    inside.scans_open (token_array · _) (tight_renderItems legible rest) room fun less _ within =>
      scans_items items legible within less closes.tight
  | .object members, legible, scanner, level, _, rest, inside, room, closes =>
    inside.scans_open (token_object · _) (tight_renderMembers members rest) room fun less _ within =>
      scans_members members legible within less closes.tight

theorem scans_items : (items : List Json) → LegibleItems items → {scanner : Scanner} → {level : Nat} →
    {rest : List Char} → scanner.Inside (level + 1) true (Json.renderItems items ++ rest) → level < maxLevel →
      Tight rest → scanner.Scans (scanner.queue ++ itemTokens items) (level + 1 + Json.itemsDepth items ≤ maxLevel)
        (Inside · level false rest)
  | [], _, scanner, level, rest, inside, room, tight =>
    (inside.reaches_close (token_arrayEnd · rest) tight).scans room
  | [item], legible, scanner, level, rest, inside, room, tight => by
    rw [Json.renderItems, List.append_assoc] at inside
    have first := scans_value item legible.1 inside room ⟨']', rest, rfl, by simp⟩
    rw [itemTokens, ← List.append_assoc]
    refine (first.trans fun next within => (within.reaches_close (token_arrayEnd · rest) tight).scans trivial).congr ?_
    simp [Json.itemsDepth]
  | item :: next :: tail, legible, scanner, level, rest, inside, room, tight => by
    rw [renderItems_cons, List.append_assoc] at inside
    have first := scans_value item legible.1 inside room ⟨',', _, rfl, by simp⟩
    have pair := first.trans fun _ within => (within.reaches_comma (tight_renderItems legible.2 rest)).scans trivial
    have all := pair.trans fun _ within => scans_items (next :: tail) legible.2 within room tight
    rw [List.append_assoc, List.append_assoc, List.singleton_append] at all
    refine all.congr ?_
    simp only [Json.itemsDepth, and_true]
    omega

theorem scans_members : (members : List (String × Json)) → LegibleMembers members → {scanner : Scanner} →
    {level : Nat} → {rest : List Char} → scanner.Inside (level + 1) true (Json.renderMembers members ++ rest) →
      level < maxLevel → Tight rest →
        scanner.Scans (scanner.queue ++ memberTokens members) (level + 1 + Json.membersDepth members ≤ maxLevel)
          (Inside · level false rest)
  | [], _, scanner, level, rest, inside, room, tight =>
    (inside.reaches_close (token_objectEnd · rest) tight).scans room
  | [(key, value)], legible, scanner, level, rest, inside, room, tight => by
    rw [Json.renderMembers, List.append_assoc, List.append_assoc, List.cons_append] at inside
    have named := (inside.reaches_key (tight_render legible.2.1 _) legible.1.2).scans trivial
    have entry := named.trans fun _ within => scans_value value legible.2.1 within room ⟨'\x7d', rest, rfl, by simp⟩
    have all := entry.trans fun _ within => (within.reaches_close (token_objectEnd · rest) tight).scans trivial
    rw [List.append_assoc, List.append_assoc] at all
    refine all.congr ?_
    simp [Json.membersDepth]
  | (key, value) :: next :: tail, legible, scanner, level, rest, inside, room, tight => by
    rw [renderMembers_cons, List.append_assoc, List.append_assoc, List.cons_append] at inside
    have named := (inside.reaches_key (tight_render legible.2.1 _) legible.1.2).scans trivial
    have entry := named.trans fun _ within => scans_value value legible.2.1 within room ⟨',', _, rfl, by simp⟩
    have tight' := tight_renderMembers (next :: tail) rest
    have pair := entry.trans fun _ within => (within.reaches_comma tight').scans trivial
    have all := pair.trans fun _ within => scans_members (next :: tail) legible.2.2 within room tight
    rw [List.append_assoc, List.append_assoc, List.append_assoc, List.singleton_append] at all
    refine all.congr ?_
    simp only [Json.membersDepth, true_and, and_true]
    omega

end

end Values

section Text

theorem portions_flatten (room : Nat) (cs : List Char) : (portions room cs).flatten = cs := by
  induction cs generalizing room with
  | nil => rfl
  | cons c cs ih =>
    rw [portions]
    split
    · have rest := ih (room - c.utf8Size)
      cases parts : portions (room - c.utf8Size) cs with
      | nil => simp_all
      | cons first others => simp_all
    · have rest := ih (portionSize - c.utf8Size)
      cases parts : portions (portionSize - c.utf8Size) cs with
      | nil => simp_all
      | cons first others => simp_all

/-- The scanner takes the character as it is. -/
def Clear (c : Char) : Prop := isAllowed c = true ∧ c ≠ '\r' ∧ c.toNat ≠ 0x85

theorem unifyBreaks_clear {cs : List Char} (clear : ∀ c ∈ cs, Clear c) : unifyBreaks cs = cs := by
  induction cs with
  | nil => rfl
  | cons c cs ih =>
    obtain ⟨⟨_, same, single⟩, others⟩ := List.forall_mem_cons.mp clear
    rw [unifyBreaks]
    · rw [ih others]
      simp [same, single]
    · rintro rest rfl
      exact absurd rfl same

theorem ofText_clear {text : String} (clear : ∀ c ∈ text.toList, Clear c)
    (unmarked : text.toList.head? ≠ some byteOrderMark) :
    Scanner.ofText text =
      { cursor := ⟨text.toList, .along 0⟩, queue := [.streamStart], size := text.toList.length } := by
  have flat := portions_flatten portionSize text.toList
  have allowed : ∀ part ∈ portions portionSize text.toList, part.all isAllowed = true := by
    intro part member
    rw [List.all_eq_true]
    intro c inside
    have present : c ∈ (portions portionSize text.toList).flatten := List.mem_flatten.mpr ⟨part, member, inside⟩
    rw [flat] at present
    exact (clear c present).1
  have readable :
      (portions portionSize text.toList).takeWhile (·.all isAllowed) = portions portionSize text.toList := by
    have all := @List.takeWhile_append_of_pos _ _ _ [] allowed
    rwa [List.append_nil, List.takeWhile_nil, List.append_nil] at all
  have whole : (portions portionSize text.toList).all (·.all isAllowed) = true := List.all_eq_true.mpr allowed
  simp only [Scanner.ofText, readable, flat, if_neg unmarked, unifyBreaks_clear clear, whole]
  rfl

/-- A character of ASCII that is no control character. -/
def isPlainAscii (c : Char) : Bool := 0x20 ≤ c.toNat && c.toNat ≤ 0x7E

theorem Clear.of_plainAscii {c : Char} (visible : isPlainAscii c = true) : Clear c := by
  simp only [isPlainAscii, Bool.and_eq_true, decide_eq_true_eq] at visible
  refine ⟨by simp [isAllowed, visible], ?_, by omega⟩
  rintro rfl
  exact absurd visible.1 (by decide)

theorem Clear.sign {c : Char} (sign : c ∈ signs := by decide) : Clear c := by
  have visible : signs.all isPlainAscii = true := by decide
  exact .of_plainAscii (List.all_eq_true.mp visible c sign)

private theorem hex_plainAscii : ∀ code ∈ Json.codes, (Text.hex 4 code).all isPlainAscii = true := by
  decide

theorem clear_escapedChar {c : Char} (legible : isLegible c = true) : ∀ d ∈ Json.escapedChar c, Clear d := by
  rcases Json.escapedChar_cases c with ⟨letter, written, named⟩ | ⟨special, written⟩ | ⟨written, _, _, visible, _⟩
  · rw [written]
    simp only [List.forall_mem_cons]
    refine ⟨.of_plainAscii (by decide), ?_, nofun⟩
    unfold Json.simpleEscape? at named
    split at named <;> cases named <;> exact .of_plainAscii (by decide)
  · rw [written]
    simp only [List.forall_mem_cons]
    refine ⟨.of_plainAscii (by decide), .of_plainAscii (by decide), fun d member => ?_⟩
    exact .of_plainAscii (List.all_eq_true.mp (hex_plainAscii c.toNat special) d member)
  · rw [written]
    simp only [List.forall_mem_cons]
    refine ⟨?_, nofun⟩
    simp only [isLegible, Bool.or_eq_true, decide_eq_true_eq, Bool.and_eq_true, bne_iff_ne, ne_eq] at legible
    rcases legible with low | ⟨allowed, single⟩
    · omega
    · refine ⟨allowed, ?_, single⟩
      rintro rfl
      exact absurd visible (by decide)

theorem clear_renderString {text : String} (legible : ∀ c ∈ text.toList, isLegible c = true) :
    ∀ c ∈ Json.renderString text, Clear c := by
  have quote : Clear '"' := .sign
  intro c member
  simp only [Json.renderString, List.mem_append, List.mem_cons, List.mem_flatMap, List.not_mem_nil, or_false] at member
  rcases member with (rfl | ⟨d, inside, escaped⟩) | rfl
  · exact quote
  · exact clear_escapedChar (legible d inside) c escaped
  · exact quote

theorem isPlainAscii_of_word {c : Char} (word : isWordChar c = true) : isPlainAscii c = true := by
  delta isWordChar Char.isAlphanum Char.isAlpha Char.isUpper Char.isLower Char.isDigit at word
  simp only [Bool.or_eq_true, Bool.and_eq_true, decide_eq_true_eq, UInt32.le_iff_toNat_le, ge_iff_le, beq_iff_eq] at word
  have between {low high : UInt32} (lower : low.toNat ≤ c.val.toNat) (upper : c.val.toNat ≤ high.toNat)
      (first : 0x20 ≤ low.toNat) (last : high.toNat ≤ 0x7E) : isPlainAscii c = true := by
    have visible : 0x20 ≤ c.toNat ∧ c.toNat ≤ 0x7E := ⟨Nat.le_trans first lower, Nat.le_trans upper last⟩
    simp [isPlainAscii, visible]
  rcases word with ((⟨lower, upper⟩ | ⟨lower, upper⟩) | ⟨lower, upper⟩) | rfl
  · exact between lower upper (by decide) (by decide)
  · exact between lower upper (by decide) (by decide)
  · exact between lower upper (by decide) (by decide)
  · decide

theorem Clear.of_word {c : Char} (word : isWordChar c = true) : Clear c := .of_plainAscii (isPlainAscii_of_word word)

mutual

theorem clear_render : (value : Json) → Legible value → ∀ c ∈ value.render, Clear c
  | .null, _ => fun c member => .of_word (isWord_null.all c member)
  | .bool true, _ => fun c member => .of_word (isWord_true.all c member)
  | .bool false, _ => fun c member => .of_word (isWord_false.all c member)
  | .number text, legible => by
    obtain ⟨value, rfl⟩ := legible
    exact fun c member => .of_word ((isWord_repr value.toInt).all c member)
  | .string text, legible => clear_renderString legible
  | .array items, legible =>
    List.forall_mem_cons.mpr ⟨.sign, clear_renderItems items legible⟩
  | .object members, legible =>
    List.forall_mem_cons.mpr ⟨.sign, clear_renderMembers members legible⟩

theorem clear_renderItems : (items : List Json) → LegibleItems items → ∀ c ∈ Json.renderItems items, Clear c
  | [], _ => List.forall_mem_cons.mpr ⟨.sign, nofun⟩
  | [item], legible => by
    rw [Json.renderItems, List.forall_mem_append]
    exact ⟨clear_render item legible.1, List.forall_mem_cons.mpr ⟨.sign, nofun⟩⟩
  | item :: next :: tail, legible => by
    rw [renderItems_cons, List.forall_mem_append, List.forall_mem_cons]
    exact ⟨clear_render item legible.1, .sign, clear_renderItems (next :: tail) legible.2⟩

theorem clear_renderMembers : (members : List (String × Json)) → LegibleMembers members →
    ∀ c ∈ Json.renderMembers members, Clear c
  | [], _ => List.forall_mem_cons.mpr ⟨.sign, nofun⟩
  | [(key, value)], legible => by
    rw [Json.renderMembers, List.forall_mem_append, List.forall_mem_append, List.forall_mem_cons]
    exact ⟨⟨clear_renderString legible.1.1, .sign, clear_render value legible.2.1⟩,
      List.forall_mem_cons.mpr ⟨.sign, nofun⟩⟩
  | (key, value) :: next :: tail, legible => by
    rw [renderMembers_cons, List.forall_mem_append, List.forall_mem_append, List.forall_mem_cons, List.forall_mem_cons]
    exact ⟨⟨clear_renderString legible.1.1, .sign, clear_render value legible.2.1⟩,
      .sign, clear_renderMembers (next :: tail) legible.2.2⟩

end

/-- The tokens of the text of an object, or not all of them where it is nested too deep. -/
theorem tokens_text {members : List (String × Json)} (legible : LegibleMembers members) :
    ((Json.object members).depth ≤ maxLevel →
      tokens (Json.object members).text = .streamStart :: valueTokens (.object members) ++ [.streamEnd]) ∧
    (maxLevel < (Json.object members).depth → ∃ left, left ≠ [] ∧
      tokens (Json.object members).text ++ left = .streamStart :: valueTokens (.object members)) := by
  have written : (Json.object members).text.toList = (Json.object members).render := by simp [Json.text]
  have clear : ∀ c ∈ (Json.object members).text.toList, Clear c := written ▸ clear_render (.object members) legible
  have start := ofText_clear clear (by rw [written]; exact fun same => absurd (Option.some.inj same) (by decide))
  rw [written] at start
  have inside :
      (Scanner.ofText (Json.object members).text).Inside 0 true ('\x7b' :: (Json.renderMembers members ++ [])) := by
    have tight : Tight ('\x7b' :: (Json.renderMembers members ++ [])) := .sign _
    rw [start, List.append_nil] at *
    exact ⟨rfl, rfl, rfl, rfl, rfl, List.forall_mem_nil _, rfl, rfl, tight, Nat.le_refl _, 0, rfl, .inr rfl⟩
  have scans := inside.scans_open (token_object · _) (tight_renderMembers members []) (Nat.zero_le _)
    fun less next within => scans_members members legible within less .nil
  have enough : (Scanner.ofText (Json.object members).text).need ≤
      6 * (Scanner.ofText (Json.object members).text).size + 32 := by
    simp only [start, Scanner.need, List.length_singleton]
    omega
  have queue : (Scanner.ofText (Json.object members).text).queue = [.streamStart] := by rw [start]
  rw [Nat.zero_add, queue] at scans
  constructor
  · intro fits
    exact (scans.1 fits).tokens_eq enough
  · intro deep
    exact scans.2 (Nat.not_le_of_lt deep) _ enough

end Text

section Reading

mutual

/-- The node of a value. -/
def ofJson : Json → Yaml
  | .null => .scalar true "null"
  | .bool true => .scalar true "true"
  | .bool false => .scalar true "false"
  | .number text => .scalar true text
  | .string text => .scalar false text
  | .array items => .sequence (ofItems items)
  | .object members => .mapping (ofMembers members)

def ofItems : List Json → List Yaml
  | [] => []
  | item :: rest => ofJson item :: ofItems rest

def ofMembers : List (String × Json) → List (Yaml × Yaml)
  | [] => []
  | (key, value) :: rest => (.scalar false key, ofJson value) :: ofMembers rest

end

namespace Raw

mutual

/-- The node of a value as it is written. -/
def ofJson : Json → Raw
  | .null => .scalar true "null"
  | .bool true => .scalar true "true"
  | .bool false => .scalar true "false"
  | .number text => .scalar true text
  | .string text => .scalar false text
  | .array items => .sequence (ofItems items)
  | .object members => .mapping (ofMembers members)

def ofItems : List Json → List Raw
  | [] => []
  | item :: rest => ofJson item :: ofItems rest

def ofMembers : List (String × Json) → List (Raw × Raw)
  | [] => []
  | (key, value) :: rest => (.scalar false key, ofJson value) :: ofMembers rest

end

variable (handles : Handles) (anchors : Anchors)

mutual

/-- No anchor, type or key `<<` occurs in what is written of a value. -/
theorem settle_ofJson : (value : Json) → (ofJson value).settle handles anchors = some (Yaml.ofJson value, anchors)
  | .null | .bool true | .bool false | .number _ | .string _ => by simp [ofJson, settle, Yaml.ofJson]
  | .array items => by simp [ofJson, settle, settleItems_ofItems items, Yaml.ofJson]
  | .object members => by simp [ofJson, settle, settleEntries_ofMembers members, merged, Yaml.ofJson]

theorem settleItems_ofItems : (items : List Json) →
    settleItems handles (ofItems items) anchors = some (Yaml.ofItems items, anchors)
  | [] => by simp [ofItems, settleItems, Yaml.ofItems]
  | item :: rest => by
    simp [ofItems, settleItems, settle_ofJson item, settleItems_ofItems rest, Yaml.ofItems]

theorem settleEntries_ofMembers : (members : List (String × Json)) →
    settleEntries handles (ofMembers members) anchors = some (Yaml.ofMembers members, [], anchors)
  | [] => by simp [ofMembers, settleEntries, Yaml.ofMembers]
  | (name, value) :: rest => by
    simp [ofMembers, settleEntries, settle, settle_ofJson value, settleEntries_ofMembers rest, isMerge, key,
      Yaml.ofMembers]

end

end Raw

/-- The token starts a node in a flow collection. -/
def startsNode : Token → Bool
  | .scalar _ _ | .flowSequence | .flowMapping | .reference _ | .anchor _ | .tag _ => true
  | _ => false

theorem valueTokens_head (value : Json) :
    ∃ token tail, valueTokens value = token :: tail ∧ startsNode token = true := by
  cases value with
  | bool value => cases value <;> exact ⟨_, _, rfl, rfl⟩
  | _ => exact ⟨_, _, rfl, rfl⟩

theorem valueTokens_length (value : Json) : 0 < (valueTokens value).length := by
  obtain ⟨token, tail, shape, _⟩ := valueTokens_head value
  simp [shape]

theorem readOptional_value (value : Json) (rest : List Token) {fuel : Nat} {ends : Token → Bool}
    (within : ∀ token, startsNode token = true → ends token = false) :
    readOptional (fuel + 1) false ends (valueTokens value ++ rest) =
      readNode fuel false false (valueTokens value ++ rest) := by
  obtain ⟨token, tail, shape, starts⟩ := valueTokens_head value
  rw [shape, List.cons_append, readOptional, within token starts]
  rfl

theorem readFlowItems_comma (fuel : Nat) (tokens : List Token) :
    readFlowItems (fuel + 1) false (.flowEntry :: tokens) = readFlowItems (fuel + 1) true tokens := by
  rw [readFlowItems.eq_def, readFlowItems.eq_def]
  simp only [Bool.false_eq_true, if_false, if_true, afterComma, Option.bind_eq_bind, Option.bind_some]
  split
  next => rfl
  next => rfl
  next never _ =>
    split
    next => exact absurd rfl (never _)
    next => rfl

theorem readFlowEntries_comma (fuel : Nat) (tokens : List Token) :
    readFlowEntries (fuel + 1) false (.flowEntry :: tokens) = readFlowEntries (fuel + 1) true tokens := by
  rw [readFlowEntries.eq_def, readFlowEntries.eq_def]
  simp only [Bool.false_eq_true, if_false, if_true, afterComma, Option.bind_eq_bind, Option.bind_some]
  split
  next => rfl
  next => rfl
  next never _ =>
    split
    next => exact absurd rfl (never _)
    next => rfl

theorem afterComma_eq_some {tokens inner : List Token} (start : afterComma tokens = some inner) :
    ∃ tail, tokens = .flowEntry :: tail := by
  unfold afterComma at start
  split at start
  next tail => exact ⟨tail, rfl⟩
  next => cases start

theorem comma_of_readFlowItems {fuel : Nat} {tokens rest : List Token} {items : List Raw}
    (read : readFlowItems (fuel + 1) false tokens = some (items, rest)) :
    tokens = .flowSequenceEnd :: rest ∧ items = [] ∨ ∃ tail, tokens = .flowEntry :: tail := by
  rw [readFlowItems.eq_def] at read
  dsimp only at read
  split at read
  next =>
    cases read
    exact .inl ⟨rfl, rfl⟩
  next =>
    obtain ⟨inner, start, _⟩ := Option.bind_eq_some_iff.mp read
    exact .inr (afterComma_eq_some start)

theorem comma_of_readFlowEntries {fuel : Nat} {tokens rest : List Token} {entries : List (Raw × Raw)}
    (read : readFlowEntries (fuel + 1) false tokens = some (entries, rest)) :
    tokens = .flowMappingEnd :: rest ∧ entries = [] ∨ ∃ tail, tokens = .flowEntry :: tail := by
  rw [readFlowEntries.eq_def] at read
  dsimp only at read
  split at read
  next =>
    cases read
    exact .inl ⟨rfl, rfl⟩
  next =>
    obtain ⟨inner, start, _⟩ := Option.bind_eq_some_iff.mp read
    exact .inr (afterComma_eq_some start)

section Starts

variable {token : Token} (starts : startsNode token = true) (tail : List Token) (fuel : Nat)
include starts

theorem readFlowItems_starts :
    readFlowItems (fuel + 1) true (token :: tail) = (do
      let (item, rest) ← readNode fuel false false (token :: tail)
      let (items, rest) ← readFlowItems fuel false rest
      return (item :: items, rest)) := by
  unfold startsNode at starts
  split at starts
  case h_7 => cases starts
  all_goals simp [readFlowItems]

theorem readFlowEntries_starts :
    readFlowEntries (fuel + 1) true (token :: tail) = (do
      let (key, rest) ← readNode fuel false false (token :: tail)
      let (entries, rest) ← readFlowEntries fuel false rest
      return ((key, .empty) :: entries, rest)) := by
  unfold startsNode at starts
  split at starts
  case h_7 => cases starts
  all_goals simp [readFlowEntries]

end Starts

theorem startsNode_of_readMarks {tokens : List Token} {result : Option String × Option Tag × List Token}
    (read : readMarks tokens = some result) : ∃ token tail, tokens = token :: tail ∧ startsNode token = true := by
  unfold readMarks at read
  split at read
  case h_5 => cases read
  all_goals exact ⟨_, _, rfl, rfl⟩

theorem startsNode_of_readNode {fuel : Nat} {tokens : List Token} {result : Raw × List Token}
    (read : readNode fuel false false tokens = some result) :
    ∃ token tail, tokens = token :: tail ∧ startsNode token = true := by
  unfold readNode at read
  split at read
  next => cases read
  next =>
    split at read
    next => exact ⟨_, _, rfl, rfl⟩
    next => exact ⟨_, _, rfl, rfl⟩
    next => exact ⟨_, _, rfl, rfl⟩
    next => simp at read
    next => simp at read
    next => simp at read
    next => exact ⟨_, _, rfl, rfl⟩
    next =>
      split at read
      next marks => exact startsNode_of_readMarks marks
      next => cases read

theorem readFlowItems_value (item : Json) (rest : List Token) (fuel : Nat) :
    readFlowItems (fuel + 1) true (valueTokens item ++ rest) = (do
      let (item, rest) ← readNode fuel false false (valueTokens item ++ rest)
      let (items, rest) ← readFlowItems fuel false rest
      return (item :: items, rest)) := by
  obtain ⟨token, tail, shape, starts⟩ := valueTokens_head item
  rw [shape, List.cons_append, readFlowItems_starts starts]

theorem readFlowEntries_member (key : String) (value : Json) (rest : List Token) (fuel : Nat) :
    readFlowEntries (fuel + 3) true (.key :: .scalar false key :: .value :: (valueTokens value ++ rest)) = (do
      let (value, rest) ← readNode fuel false false (valueTokens value ++ rest)
      let (entries, rest) ← readFlowEntries (fuel + 2) false rest
      return ((.scalar false key, value) :: entries, rest)) := by
  have named : readOptional (fuel + 2) false (fun token => token == .value || endsFlowEntry .flowMappingEnd token)
      (.scalar false key :: .value :: (valueTokens value ++ rest)) =
        some (.scalar false key, .value :: (valueTokens value ++ rest)) := by
    simp [readOptional, readNode, endsFlowEntry]
  have given : readValue (fuel + 2) false (endsFlowEntry .flowMappingEnd) (.value :: (valueTokens value ++ rest)) =
      readNode fuel false false (valueTokens value ++ rest) := by
    rw [readValue]
    refine readOptional_value value rest fun token starts => ?_
    unfold startsNode at starts
    split at starts <;> simp_all [endsFlowEntry]
  rw [readFlowEntries]
  · simp [named, given]
  · nofun

theorem itemTokens_cons (item next : Json) (tail : List Json) :
    itemTokens (item :: next :: tail) = valueTokens item ++ .flowEntry :: itemTokens (next :: tail) := rfl

theorem memberTokens_cons (key : String) (value : Json) (next : String × Json) (tail : List (String × Json)) :
    memberTokens ((key, value) :: next :: tail) =
      .key :: .scalar false key :: .value :: valueTokens value ++ .flowEntry :: memberTokens (next :: tail) := rfl

mutual

/-- A value is read back from its tokens. -/
theorem readNode_value : (value : Json) → (fuel : Nat) → (valueTokens value).length ≤ fuel → (block beside : Bool) →
    (rest : List Token) → readNode fuel block beside (valueTokens value ++ rest) = some (.ofJson value, rest)
  | value, 0, enough, _, _, _ => absurd enough (Nat.not_le_of_lt (valueTokens_length value))
  | .null, _ + 1, _, _, _, _ => by simp [valueTokens, readNode, Raw.ofJson]
  | .bool true, _ + 1, _, _, _, _ => by simp [valueTokens, readNode, Raw.ofJson]
  | .bool false, _ + 1, _, _, _, _ => by simp [valueTokens, readNode, Raw.ofJson]
  | .number text, _ + 1, _, _, _, _ => by simp [valueTokens, readNode, Raw.ofJson]
  | .string text, _ + 1, _, _, _, _ => by simp [valueTokens, readNode, Raw.ofJson]
  | .array items, fuel + 1, enough, _, _, rest => by
    rw [valueTokens, List.length_cons] at enough
    have read := readFlowItems_items items fuel (Nat.le_of_succ_le_succ enough) rest
    simp [valueTokens, readNode, read, Raw.ofJson]
  | .object members, fuel + 1, enough, _, _, rest => by
    rw [valueTokens, List.length_cons] at enough
    have read := readFlowEntries_members members fuel (Nat.le_of_succ_le_succ enough) rest
    simp [valueTokens, readNode, read, Raw.ofJson]

theorem readFlowItems_items : (items : List Json) → (fuel : Nat) → (itemTokens items).length ≤ fuel →
    (rest : List Token) → readFlowItems fuel true (itemTokens items ++ rest) = some (Raw.ofItems items, rest)
  | [], 0, enough, _ => by simp [itemTokens] at enough
  | [], _ + 1, _, _ => by simp [itemTokens, readFlowItems, Raw.ofItems]
  | [item], 0, enough, _ => by simp [itemTokens] at enough
  | [item], fuel + 1, enough, rest => by
    simp only [itemTokens, List.length_append, List.length_singleton] at enough
    have present := valueTokens_length item
    have read := readNode_value item fuel (by omega) false false (.flowSequenceEnd :: rest)
    obtain ⟨fuel, rfl⟩ : ∃ less, fuel = less + 1 := ⟨fuel - 1, by omega⟩
    rw [itemTokens, List.append_assoc, List.singleton_append, readFlowItems_value, read]
    simp [readFlowItems, Raw.ofItems]
  | item :: next :: tail, 0, enough, _ => by simp [itemTokens_cons] at enough
  | item :: next :: tail, fuel + 1, enough, rest => by
    simp only [itemTokens_cons, List.length_append, List.length_cons] at enough
    have present := valueTokens_length item
    have first := readNode_value item fuel (by omega) false false (.flowEntry :: (itemTokens (next :: tail) ++ rest))
    have others := readFlowItems_items (next :: tail) fuel (by omega) rest
    obtain ⟨fuel, rfl⟩ : ∃ less, fuel = less + 1 := ⟨fuel - 1, by omega⟩
    rw [itemTokens_cons, List.append_assoc, List.cons_append, readFlowItems_value, first]
    simp [readFlowItems_comma, others, Raw.ofItems]

theorem readFlowEntries_members : (members : List (String × Json)) → (fuel : Nat) →
    (memberTokens members).length ≤ fuel → (rest : List Token) →
      readFlowEntries fuel true (memberTokens members ++ rest) = some (Raw.ofMembers members, rest)
  | [], 0, enough, _ => by simp [memberTokens] at enough
  | [], _ + 1, _, _ => by simp [memberTokens, readFlowEntries, Raw.ofMembers]
  | [(key, value)], fuel, enough, rest => by
    simp only [memberTokens, List.length_append, List.length_cons] at enough
    obtain ⟨fuel, rfl⟩ : ∃ less, fuel = less + 3 := ⟨fuel - 3, by omega⟩
    have read := readNode_value value fuel (by omega) false false (.flowMappingEnd :: rest)
    have shape : memberTokens [(key, value)] ++ rest =
        .key :: .scalar false key :: .value :: (valueTokens value ++ .flowMappingEnd :: rest) := by
      simp [memberTokens]
    rw [shape, readFlowEntries_member, read]
    simp [readFlowEntries, Raw.ofMembers]
  | (key, value) :: (other, next) :: tail, fuel, enough, rest => by
    simp only [memberTokens_cons, List.length_append, List.length_cons] at enough
    have present := valueTokens_length value
    obtain ⟨fuel, rfl⟩ : ∃ less, fuel = less + 3 := ⟨fuel - 3, by omega⟩
    have first := readNode_value value fuel (by omega) false false
      (.flowEntry :: (memberTokens ((other, next) :: tail) ++ rest))
    have others := readFlowEntries_members ((other, next) :: tail) (fuel + 2) (by omega) rest
    have shape : memberTokens ((key, value) :: (other, next) :: tail) ++ rest =
        .key :: .scalar false key :: .value ::
          (valueTokens value ++ .flowEntry :: (memberTokens ((other, next) :: tail) ++ rest)) := by
      simp [memberTokens_cons]
    obtain ⟨fuel, rfl⟩ : ∃ less, fuel = less + 1 := ⟨fuel - 1, by omega⟩
    rw [shape, readFlowEntries_member, first]
    simp [readFlowEntries_comma, others, Raw.ofMembers]

end

theorem readNode_marked {fuel : Nat} {block beside : Bool} {tokens rest : List Token} {anchor : Option String}
    {tag : Option Tag} {next : Token} (marks : readMarks tokens = some (anchor, tag, next :: rest)) :
    readNode (fuel + 1) block beside tokens =
      if startsContent block beside next then
        (readNode fuel block beside (next :: rest)).map fun (node, rest) => (.marked anchor tag node, rest)
      else some (.marked anchor tag .empty, next :: rest) := by
  obtain ⟨token, tail, rfl, starts⟩ : ∃ token tail, tokens = token :: tail ∧
      ((∃ name, token = .anchor name) ∨ ∃ tag, token = .tag tag) := by
    unfold readMarks at marks
    split at marks
    case h_5 => cases marks
    all_goals exact ⟨_, _, rfl, by simp⟩
  rcases starts with ⟨name, rfl⟩ | ⟨tag, rfl⟩
  · simp only [readNode, marks]
  · simp only [readNode, marks]

/-- What can be read in front of a node is also read in front of further tokens, if a token follows it. -/
theorem readMarks_append (more : List Token) {tokens rest : List Token} {anchor : Option String} {tag : Option Tag}
    {next : Token} (read : readMarks tokens = some (anchor, tag, next :: rest)) :
    readMarks (tokens ++ more) = some (anchor, tag, next :: (rest ++ more)) := by
  unfold readMarks at read
  split at read
  case h_5 => cases read
  all_goals
    cases read
    simp_all [readMarks]

mutual

/-- What can be read of a flow collection is also read in front of further tokens. -/
theorem readNode_append (more : List Token) : (fuel : Nat) → {longer : Nat} → fuel ≤ longer →
    {tokens rest : List Token} → {node : Raw} → readNode fuel false false tokens = some (node, rest) →
      readNode longer false false (tokens ++ more) = some (node, rest ++ more)
  | 0, _, _, _, _, _, read => by simp [readNode] at read
  | fuel + 1, longer, within, tokens, rest, node, read => by
    obtain ⟨longer, rfl⟩ : ∃ less, longer = less + 1 := ⟨longer - 1, by omega⟩
    have less := Nat.le_of_succ_le_succ within
    rw [readNode.eq_def] at read
    dsimp only at read
    split at read
    next => cases read; simp [readNode]
    next tail =>
      obtain ⟨⟨items, last⟩, inner, same⟩ := Option.map_eq_some_iff.mp read
      cases same
      simp [readNode, readFlowItems_append more fuel less inner]
    next tail =>
      obtain ⟨⟨entries, last⟩, inner, same⟩ := Option.map_eq_some_iff.mp read
      cases same
      simp [readNode, readFlowEntries_append more fuel less inner]
    next => simp at read
    next => simp at read
    next => simp at read
    next => cases read; simp [readNode]
    next =>
      split at read
      next anchor tag next behind marks =>
        rw [readNode_marked (readMarks_append more marks)]
        split at read
        next content =>
          obtain ⟨⟨inner, last⟩, found, same⟩ := Option.map_eq_some_iff.mp read
          cases same
          have first := readNode_append more fuel less found
          rw [List.cons_append] at first
          rw [if_pos content, first]
          rfl
        next missing =>
          cases read
          rw [if_neg missing]
          rfl
      next => cases read

theorem readOptional_append (more : List Token) : (fuel : Nat) → {longer : Nat} → fuel ≤ longer →
    {ends : Token → Bool} → {tokens rest : List Token} → {node : Raw} →
      readOptional fuel false ends tokens = some (node, rest) →
        readOptional longer false ends (tokens ++ more) = some (node, rest ++ more)
  | 0, _, _, _, _, _, _, read => by simp [readOptional] at read
  | _ + 1, _, _, _, [], _, _, read => by simp [readOptional] at read
  | fuel + 1, longer, within, ends, token :: tail, rest, node, read => by
    obtain ⟨longer, rfl⟩ : ∃ less, longer = less + 1 := ⟨longer - 1, by omega⟩
    rw [readOptional] at read
    rw [List.cons_append, readOptional]
    split at read
    next done =>
      cases read
      rw [if_pos done, List.cons_append]
    next open' =>
      rw [if_neg open', ← List.cons_append]
      exact readNode_append more fuel (Nat.le_of_succ_le_succ within) read

theorem readValue_append (more : List Token) : (fuel : Nat) → {longer : Nat} → fuel ≤ longer → {ends : Token → Bool} →
    {tokens rest : List Token} → {node : Raw} → readValue fuel false ends tokens = some (node, rest) →
      readValue longer false ends (tokens ++ more) = some (node, rest ++ more)
  | 0, _, _, _, _, _, _, read => by simp [readValue] at read
  | fuel + 1, longer, within, ends, tokens, rest, node, read => by
    obtain ⟨longer, rfl⟩ : ∃ less, longer = less + 1 := ⟨longer - 1, by omega⟩
    rw [readValue.eq_def] at read
    dsimp only at read
    split at read
    next tail =>
      rw [List.cons_append, readValue]
      exact readOptional_append more fuel (Nat.le_of_succ_le_succ within) read
    next => cases read
    next other present =>
      cases read
      obtain ⟨token, tail, rfl⟩ := List.exists_cons_of_ne_nil present
      rw [List.cons_append, readValue]
      · intro _ same
        exact other tail (by rw [(List.cons.inj same).1])
      · nofun

theorem readFlowItems_append (more : List Token) : (fuel : Nat) → {longer : Nat} → fuel ≤ longer → {first : Bool} →
    {tokens rest : List Token} → {items : List Raw} → readFlowItems fuel first tokens = some (items, rest) →
      readFlowItems longer first (tokens ++ more) = some (items, rest ++ more)
  | 0, _, _, _, _, _, _, read => by simp [readFlowItems] at read
  | fuel + 1, longer, within, first, tokens, rest, items, read => by
    obtain ⟨longer, rfl⟩ : ∃ less, longer = less + 1 := ⟨longer - 1, by omega⟩
    have less := Nat.le_of_succ_le_succ within
    have core : ∀ {tokens rest : List Token} {items : List Raw},
        readFlowItems (fuel + 1) true tokens = some (items, rest) →
          readFlowItems (longer + 1) true (tokens ++ more) = some (items, rest ++ more) := by
      intro tokens rest items read
      rw [readFlowItems.eq_def] at read
      simp only [if_true, Option.bind_eq_bind, Option.bind_some] at read
      split at read
      next => cases read; simp [readFlowItems]
      next =>
        split at read
        next => cases read; simp [readFlowItems]
        next next tail _ =>
          rw [List.cons_append, List.cons_append, readFlowItems.eq_def]
          split at read
          next missing =>
            obtain ⟨⟨value, one⟩, given, read⟩ := Option.bind_eq_some_iff.mp read
            obtain ⟨⟨others, two⟩, last, same⟩ := Option.bind_eq_some_iff.mp read
            cases same
            simp [missing, readValue_append more fuel less given, readFlowItems_append more fuel less last]
          next named =>
            obtain ⟨⟨key, one⟩, found, read⟩ := Option.bind_eq_some_iff.mp read
            obtain ⟨⟨value, two⟩, given, read⟩ := Option.bind_eq_some_iff.mp read
            obtain ⟨⟨others, three⟩, last, same⟩ := Option.bind_eq_some_iff.mp read
            cases same
            have first := readNode_append more fuel less found
            rw [List.cons_append] at first
            simp [named, first, readValue_append more fuel less given, readFlowItems_append more fuel less last]
        next =>
          obtain ⟨⟨item, one⟩, found, read⟩ := Option.bind_eq_some_iff.mp read
          obtain ⟨⟨others, two⟩, last, same⟩ := Option.bind_eq_some_iff.mp read
          cases same
          obtain ⟨token, tail, rfl, starts⟩ := startsNode_of_readNode found
          have first := readNode_append more fuel less found
          rw [List.cons_append] at first ⊢
          simp [readFlowItems_starts starts, first, readFlowItems_append more fuel less last]
    cases first with
    | true => exact core read
    | false =>
      rcases comma_of_readFlowItems read with ⟨rfl, rfl⟩ | ⟨tail, rfl⟩
      · simp [readFlowItems]
      · rw [readFlowItems_comma] at read
        rw [List.cons_append, readFlowItems_comma]
        exact core read

theorem readFlowEntries_append (more : List Token) : (fuel : Nat) → {longer : Nat} → fuel ≤ longer → {first : Bool} →
    {tokens rest : List Token} → {entries : List (Raw × Raw)} →
      readFlowEntries fuel first tokens = some (entries, rest) →
        readFlowEntries longer first (tokens ++ more) = some (entries, rest ++ more)
  | 0, _, _, _, _, _, _, read => by simp [readFlowEntries] at read
  | fuel + 1, longer, within, first, tokens, rest, entries, read => by
    obtain ⟨longer, rfl⟩ : ∃ less, longer = less + 1 := ⟨longer - 1, by omega⟩
    have less := Nat.le_of_succ_le_succ within
    have core : ∀ {tokens rest : List Token} {entries : List (Raw × Raw)},
        readFlowEntries (fuel + 1) true tokens = some (entries, rest) →
          readFlowEntries (longer + 1) true (tokens ++ more) = some (entries, rest ++ more) := by
      intro tokens rest entries read
      rw [readFlowEntries.eq_def] at read
      simp only [if_true, Option.bind_eq_bind, Option.bind_some] at read
      split at read
      next => cases read; simp [readFlowEntries]
      next =>
        split at read
        next => cases read; simp [readFlowEntries]
        next tail _ =>
          obtain ⟨⟨key, one⟩, found, read⟩ := Option.bind_eq_some_iff.mp read
          obtain ⟨⟨value, two⟩, given, read⟩ := Option.bind_eq_some_iff.mp read
          obtain ⟨⟨others, three⟩, last, same⟩ := Option.bind_eq_some_iff.mp read
          cases same
          rw [List.cons_append, readFlowEntries.eq_def]
          simp [readOptional_append more fuel less found, readValue_append more fuel less given,
            readFlowEntries_append more fuel less last]
        next =>
          obtain ⟨⟨key, one⟩, found, read⟩ := Option.bind_eq_some_iff.mp read
          obtain ⟨⟨others, two⟩, last, same⟩ := Option.bind_eq_some_iff.mp read
          cases same
          obtain ⟨token, tail, rfl, starts⟩ := startsNode_of_readNode found
          have first := readNode_append more fuel less found
          rw [List.cons_append] at first ⊢
          simp [readFlowEntries_starts starts, first, readFlowEntries_append more fuel less last]
    cases first with
    | true => exact core read
    | false =>
      rcases comma_of_readFlowEntries read with ⟨rfl, rfl⟩ | ⟨tail, rfl⟩
      · simp [readFlowEntries]
      · rw [readFlowEntries_comma] at read
        rw [List.cons_append, readFlowEntries_comma]
        exact core read

end

theorem parse_of_tokens {text : String} {tail : List Token}
    (found : tokens text = .streamStart :: .flowMapping :: tail) :
    parseText text = (readFlowEntries (3 * tail.length + 5) true tail).bind fun (entries, rest) =>
      if rest.isEmpty then none else ((Raw.mapping entries).settle [] []).map fun (node, _) => some node := by
  unfold parseText
  rw [found]
  simp only [readRoot, List.length_cons, Nat.mul_add, readNode]
  cases readFlowEntries (3 * tail.length + 5) true tail with
  | none => rfl
  | some result =>
    simp only [Option.map_some, Option.bind_eq_bind, Option.bind_some]
    split
    · rfl
    · cases (Raw.mapping result.1).settle [] [] <;> rfl

/-- Reading the text of an object as YAML gives that object. -/
theorem parse_text {members : List (String × Json)} (legible : LegibleMembers members)
    (shallow : (Json.object members).depth ≤ maxLevel) :
    parseText (Json.object members).text = some (some (ofJson (.object members))) := by
  have whole : tokens (Json.object members).text =
      .streamStart :: .flowMapping :: (memberTokens members ++ [.streamEnd]) :=
    (tokens_text legible).1 shallow
  have read := readFlowEntries_members members (3 * (memberTokens members ++ [Token.streamEnd]).length + 5)
    (by simp; omega) [.streamEnd]
  have settled : (Raw.mapping (Raw.ofMembers members)).settle [] [] = some (ofJson (.object members), []) :=
    Raw.settle_ofJson [] [] (.object members)
  rw [parse_of_tokens whole, read]
  simp [settled]

/-- Nothing is read of a part of the tokens, since it would also be read of all of them, where it ends elsewhere. -/
theorem parse_cut {text : String} {members : List (String × Json)} {left : List Token} (missing : left ≠ [])
    (all : tokens text ++ left = .streamStart :: .flowMapping :: memberTokens members) : parseText text = none := by
  rcases found : tokens text with _ | ⟨first, _ | ⟨second, tail⟩⟩
  · unfold parseText
    rw [found]
  · rw [found] at all
    obtain rfl : first = .streamStart := (List.cons.inj all).1
    unfold parseText
    rw [found]
    rfl
  · rw [found] at all
    obtain ⟨rfl, rfl, rest⟩ : first = .streamStart ∧ second = .flowMapping ∧ tail ++ left = memberTokens members := by
      simpa using all
    rw [parse_of_tokens found]
    cases read : readFlowEntries (3 * tail.length + 5) true tail with
    | none => rfl
    | some result =>
      obtain ⟨entries, behind⟩ := result
      have part := readFlowEntries_append left _ (Nat.le_add_right _ (memberTokens members).length) read
      have whole := readFlowEntries_members members (3 * tail.length + 5 + (memberTokens members).length) (by omega) []
      rw [List.append_nil] at whole
      rw [rest, whole, Option.some.injEq, Prod.mk.injEq] at part
      exact absurd (List.append_eq_nil_iff.mp part.2.symm).2 missing

/-- Where the object is nested too deep, nothing is read. -/
theorem parse_text_deep {members : List (String × Json)} (legible : LegibleMembers members)
    (deep : maxLevel < (Json.object members).depth) : parseText (Json.object members).text = none := by
  obtain ⟨left, missing, all⟩ := (tokens_text legible).2 deep
  exact parse_cut missing all

end Reading

end Lineside.Yaml
