import Lineside.Yaml.Encoding
import Lineside.Yaml.Reference
import Lineside.Yaml.Token

/-!
Reading YAML text: block and flow collections, scalars of all kinds, anchors and types of nodes, references, comments and
directives. The first document of the text is read.
-/

namespace Lineside.Yaml

def isAllowed (c : Char) : Bool :=
  let code := c.toNat
  code == 0x09 || code == 0x0A || code == 0x0D || (0x20 ≤ code && code ≤ 0x7E) || code == 0x85 ||
    (0xA0 ≤ code && code ≤ 0xD7FF) || (0xE000 ≤ code && code ≤ 0xFFFD) || 0x10000 ≤ code

def portionSize : Nat := 512

/-- Cuts a text into portions, with room for some bytes in the first one. -/
def portions : Nat → List Char → List (List Char)
  | _, [] => [[]]
  | room, c :: rest =>
    if c.utf8Size ≤ room then
      match portions (room - c.utf8Size) rest with
      | [] => [[c]]
      | first :: others => (c :: first) :: others
    else
      match portions (portionSize - c.utf8Size) rest with
      | [] => [[], [c]]
      | first :: others => [] :: (c :: first) :: others

/-- Starts at the beginning of a text. A portion with a character that may not stand in YAML text, and
what follows it, cannot be read. A byte-order mark in front is dropped; a second one hides the start of
every line in the first portion. -/
def Scanner.ofText (text : String) : Scanner :=
  let parts := portions portionSize text.toList
  let readable := (parts.takeWhile (·.all isAllowed)).flatten
  let cs := if readable.head? = some byteOrderMark then readable.drop 1 else readable
  { cursor := ⟨unifyBreaks cs, {}⟩
    queue := [.streamStart]
    clipped := !parts.all (·.all isAllowed)
    marked := if cs.head? = some byteOrderMark then (parts.headD []).length - 1 else 0
    size := cs.length }

def tokens (text : String) : List Token :=
  let scanner := Scanner.ofText text
  scanner.tokens (6 * scanner.size + 32)

def endsBlockEntry : Token → Bool
  | .key | .value | .blockEnd => true
  | _ => false

def endsFlowEntry (last : Token) (token : Token) : Bool := token == .flowEntry || token == last

def afterComma : List Token → Option (List Token)
  | .flowEntry :: rest => some rest
  | _ => none

def readMarks : List Token → Option (Option String × Option Tag × List Token)
  | .anchor name :: .tag tag :: rest => some (some name, some tag, rest)
  | .anchor name :: rest => some (some name, none, rest)
  | .tag tag :: .anchor name :: rest => some (some name, some tag, rest)
  | .tag tag :: rest => some (none, some tag, rest)
  | _ => none

/-- A node that may stand behind an anchor or a type starts with this token. -/
def startsContent (block beside : Bool) : Token → Bool
  | .scalar _ _ | .flowSequence | .flowMapping => true
  | .blockSequence | .blockMapping => block
  | .blockEntry => beside
  | _ => false

mutual

/-- Reads a node. `block` tells whether it may be a block collection, and `beside` whether a sequence may
stand in the column of the keys around it. -/
def readNode : Nat → Bool → Bool → List Token → Option (Raw × List Token)
  | 0, _, _, _ => none
  | fuel + 1, block, beside, tokens =>
    match tokens with
    | .scalar plain text :: rest => some (.scalar plain text, rest)
    | .flowSequence :: rest => (readFlowItems fuel true rest).map fun (items, rest) => (.sequence items, rest)
    | .flowMapping :: rest =>
      (readFlowEntries fuel true rest).map fun (entries, rest) => (.mapping entries, rest)
    | .blockSequence :: rest =>
      if block then (readItems fuel rest).map fun (items, rest) => (.sequence items, rest) else none
    | .blockMapping :: rest =>
      if block then (readEntries fuel rest).map fun (entries, rest) => (.mapping entries, rest) else none
    | .blockEntry :: _ =>
      if beside then (readItemsBeside fuel tokens).map fun (items, rest) => (.sequence items, rest) else none
    | .reference name :: rest => some (.reference name, rest)
    | _ =>
      match readMarks tokens with
      | some (anchor, tag, next :: rest) =>
        if startsContent block beside next then
          (readNode fuel block beside (next :: rest)).map fun (node, rest) => (.marked anchor tag node, rest)
        else some (.marked anchor tag .empty, next :: rest)
      | _ => none

def readOptional : Nat → Bool → (Token → Bool) → List Token → Option (Raw × List Token)
  | 0, _, _, _ => none
  | _ + 1, _, _, [] => none
  | fuel + 1, block, ends, token :: rest =>
    if ends token then some (.empty, token :: rest) else readNode fuel block block (token :: rest)

def readItems : Nat → List Token → Option (List Raw × List Token)
  | 0, _ => none
  | fuel + 1, tokens =>
    match tokens with
    | .blockEnd :: rest => some ([], rest)
    | .blockEntry :: next :: rest => do
      let (item, rest) ←
        if next = .blockEntry ∨ next = .blockEnd then some (.empty, next :: rest)
        else readNode fuel true false (next :: rest)
      let (items, rest) ← readItems fuel rest
      return (item :: items, rest)
    | _ => none

/-- Reads the items of a sequence in the column of the keys around it, up to the next key. -/
def readItemsBeside : Nat → List Token → Option (List Raw × List Token)
  | 0, _ => none
  | fuel + 1, tokens =>
    match tokens with
    | .blockEntry :: next :: rest => do
      let (item, rest) ←
        if next = .blockEntry ∨ endsBlockEntry next then some (.empty, next :: rest)
        else readNode fuel true false (next :: rest)
      let (items, rest) ← readItemsBeside fuel rest
      return (item :: items, rest)
    | [] | [.blockEntry] => none
    | _ => some ([], tokens)

def readEntries : Nat → List Token → Option (List (Raw × Raw) × List Token)
  | 0, _ => none
  | fuel + 1, tokens =>
    match tokens with
    | .blockEnd :: rest => some ([], rest)
    | .key :: rest => do
      let (key, rest) ← readOptional fuel true endsBlockEntry rest
      let (value, rest) ← readValue fuel true endsBlockEntry rest
      let (entries, rest) ← readEntries fuel rest
      return ((key, value) :: entries, rest)
    | _ => none

/-- Reads a colon and the value behind it. Both may be missing. -/
def readValue : Nat → Bool → (Token → Bool) → List Token → Option (Raw × List Token)
  | 0, _, _, _ => none
  | fuel + 1, block, ends, tokens =>
    match tokens with
    | .value :: rest => readOptional fuel block ends rest
    | [] => none
    | _ => some (.empty, tokens)

/-- Reads the items of a flow sequence, up to and with its closing bracket. An item may be a single pair;
where its key is left out, the token behind the key's mark is passed over. -/
def readFlowItems : Nat → Bool → List Token → Option (List Raw × List Token)
  | 0, _, _ => none
  | fuel + 1, first, tokens =>
    match tokens with
    | .flowSequenceEnd :: rest => some ([], rest)
    | _ => do
      let tokens ← if first then some tokens else afterComma tokens
      match tokens with
      | .flowSequenceEnd :: rest => some ([], rest)
      | .key :: next :: rest =>
        let (key, rest) ←
          if next = .value ∨ endsFlowEntry .flowSequenceEnd next then some (.empty, rest)
          else readNode fuel false false (next :: rest)
        let (value, rest) ← readValue fuel false (endsFlowEntry .flowSequenceEnd) rest
        let (items, rest) ← readFlowItems fuel false rest
        return (.mapping [(key, value)] :: items, rest)
      | _ =>
        let (item, rest) ← readNode fuel false false tokens
        let (items, rest) ← readFlowItems fuel false rest
        return (item :: items, rest)

def readFlowEntries : Nat → Bool → List Token → Option (List (Raw × Raw) × List Token)
  | 0, _, _ => none
  | fuel + 1, first, tokens =>
    match tokens with
    | .flowMappingEnd :: rest => some ([], rest)
    | _ => do
      let tokens ← if first then some tokens else afterComma tokens
      match tokens with
      | .flowMappingEnd :: rest => some ([], rest)
      | .key :: rest =>
        let (key, rest) ←
          readOptional fuel false (fun token => token == .value || endsFlowEntry .flowMappingEnd token) rest
        let (value, rest) ← readValue fuel false (endsFlowEntry .flowMappingEnd) rest
        let (entries, rest) ← readFlowEntries fuel false rest
        return ((key, value) :: entries, rest)
      | _ =>
        let (key, rest) ← readNode fuel false false tokens
        let (entries, rest) ← readFlowEntries fuel false rest
        return ((key, .empty) :: entries, rest)

end

/-- What handles are declared to stand for, and the tokens behind the directives of a document. There is at most one
version, which is 1.1, and no handle is given twice. -/
def readDirectives (versioned : Bool) (handles : Handles) : List Token → Option (Handles × List Token)
  | .version major minor :: rest =>
    if versioned ∨ major ≠ 1 ∨ minor ≠ 1 then none else readDirectives true handles rest
  | .handle name start :: rest =>
    if (handles.lookup name).isSome then none else readDirectives versioned ((name, start) :: handles) rest
  | tokens => some (handles, tokens)

def endsDocument : Token → Bool
  | .version _ _ | .handle _ _ | .documentStart | .documentEnd | .streamEnd => true
  | _ => false

def readRoot (fuel : Nat) : List Token → Option (Handles × Raw × List Token)
  | token :: rest =>
    match token with
    | .version _ _ | .handle _ _ | .documentStart => do
      match ← readDirectives false [] (token :: rest) with
      | (handles, .documentStart :: next :: rest) =>
        if endsDocument next then some (handles, .empty, next :: rest)
        else (readNode fuel true false (next :: rest)).map (handles, ·)
      | _ => none
    | _ => (readNode fuel true false (token :: rest)).map ([], ·)
  | [] => none

/-- Reads the first document of a text. The answer is `some none` where the text holds none. What follows
the document is not read, but a token must be there to end it. -/
def parseText (text : String) : Option (Option Yaml) :=
  match tokens text with
  | .streamStart :: .streamEnd :: _ => some none
  | .streamStart :: tokens => do
    let (handles, node, rest) ← readRoot (3 * tokens.length + 3) tokens
    if rest.isEmpty then none else
    let (node, _) ← node.settle handles []
    return some node
  | _ => none

def parse (bytes : ByteArray) : Option (Option Yaml) := parseText (textOf bytes)

end Lineside.Yaml
