import Lineside.Yaml.Block

/-!
YAML text as tokens. A key carries no mark in front of it, so every place where one may start is a
candidate until a colon on the same line, at most 1024 characters further, makes it a key. Indentation
that opens or closes a block collection has tokens of its own.
-/

namespace Lineside.Yaml

inductive Token where
  | streamStart
  | streamEnd
  | version (major minor : Nat)
  | handle (name : String) (start : Name)
  | documentStart
  | documentEnd
  | blockSequence
  | blockMapping
  | blockEnd
  | flowSequence
  | flowSequenceEnd
  | flowMapping
  | flowMappingEnd
  | blockEntry
  | flowEntry
  | key
  | value
  | reference (anchor : String)
  | anchor (name : String)
  | tag (tag : Tag)
  | scalar (plain : Bool) (text : String)
  deriving DecidableEq, Repr

structure Candidate where
  number : Nat
  start : Mark := {}
  /-- It may still become a key. -/
  undecided : Bool := false
  /-- Nothing else than a key may stand there. -/
  required : Bool := false
  /-- The token is held back until this is decided. -/
  holds : Bool := false
  deriving DecidableEq, Repr

namespace Candidate

def reaches (candidate : Candidate) (mark : Mark) : Bool :=
  candidate.undecided && candidate.start.line == mark.line &&
    decide (mark.index ≤ candidate.start.index + 1024)

end Candidate

structure Scanner where
  cursor : Cursor
  queue : List Token := []
  handed : Nat := 0
  indents : List Nat := []
  /-- The last candidate of the innermost flow collection, or of the block around all of them. -/
  candidate : Candidate := { number := 0 }
  outer : List Candidate := []
  keys : Bool := true
  finished : Bool := false
  clipped : Bool := false
  /-- As long as fewer characters have been read, the first one of a line is not looked at. -/
  marked : Nat := 0
  size : Nat

def maxLevel : Nat := 10000

/-- Steps over a comment to the end of its line, and over further comments if nothing but blanks and line
breaks, and not too many of them, stand between. -/
def skipComments : Nat → Cursor → Cursor
  | 0, cursor => cursor
  | fuel + 1, cursor =>
    let eol := cursor.skipWhile (!isBreak ·)
    match eol.rest with
    | [] => eol
    | _ :: rest =>
      let blank := (rest.take 511).takeWhile fun c => isBlank c || isBreak c
      if blank.length < 511 ∧ (rest.drop blank.length).head? = some '#' then
        skipComments fuel (Gap.after eol).next
      else eol

/-- Steps over blanks, comments and line breaks to the next token. A tab may not stand where a key may
start, and in a block every line break lets a key start. Up to the place `marked`, the first character of
a line is passed over. -/
def skipBetween (flow : Bool) (marked : Nat) : Nat → Bool → Cursor → Cursor × Bool
  | 0, keys, cursor => (cursor, keys)
  | fuel + 1, keys, cursor =>
    let cursor :=
      if cursor.column = 0 ∧ cursor.mark.index < marked then cursor.skip 1 (cursor.rest.drop 1) else cursor
    let cursor := cursor.skipWhile fun c => c == ' ' || (c == '\t' && (flow || !keys))
    let cursor := if cursor.rest.head? = some '#' then skipComments fuel cursor else cursor
    if cursor.rest.head?.any isBreak then skipBetween flow marked fuel (keys || !flow) cursor.skipBreak
    else (cursor, keys)

def skipLineComment (cursor : Cursor) : Cursor :=
  let blank := (cursor.rest.take 512).takeWhile isBlank
  let next := cursor.skip blank.length (cursor.rest.drop blank.length)
  if blank.length < 512 ∧ next.rest.head? = some '#' then next.skipWhile (!isBreak ·) else cursor

def isNameChar (c : Char) : Bool := c.isAlphanum || c == '_' || c == '-'

def readVersionPart (cs : List Char) : Option (Nat × List Char) :=
  let digits := cs.takeWhile Char.isDigit
  if digits.isEmpty ∨ 2 < digits.length then none
  else some (Nat.ofDigitChars 10 digits 0, cs.drop digits.length)

def readVersion (cs : List Char) : Option (Token × List Char) := do
  let (major, rest) ← readVersionPart (cs.dropWhile isBlank)
  match rest with
  | '.' :: rest =>
    let (minor, rest) ← readVersionPart rest
    return (.version major minor, rest)
  | _ => none

/-- Reads a handle: a mark, or a name between two of them. Where it is none, what was read of it is the
start of a longer name. -/
def readHandle : List Char → Option (List Char × List Char)
  | '!' :: rest =>
    let name := rest.takeWhile isNameChar
    match rest.drop name.length with
    | '!' :: rest => some ('!' :: name ++ ['!'], rest)
    | rest => some ('!' :: name, rest)
  | _ => none

def following? (byte : UInt8) : Option Nat :=
  if byte < 0x80 then some 0
  else if byte < 0xC0 then none
  else if byte < 0xE0 then some 1
  else if byte < 0xF0 then some 2
  else if byte < 0xF8 then some 3
  else none

def isFollowing (byte : UInt8) : Bool := 0x80 ≤ byte && byte < 0xC0

/-- Reads the name of a type. Any character may be written as bytes, all of them; `due` of the last one are still to
come. -/
def readTypeName : Nat → List Char → Option (List UInt8 × List Char)
  | due, '%' :: a :: b :: rest => do
    let high ← hexDigit? a
    let low ← hexDigit? b
    let byte := (16 * high + low).toUInt8
    let due ← match due with
      | 0 => following? byte
      | due + 1 => if isFollowing byte then some due else none
    let (bytes, rest) ← readTypeName due rest
    return (byte :: bytes, rest)
  | 0, c :: rest =>
    if c = '%' then none
    else if isNameChar c || ";/?:@&=+$.,!~*'()[]".toList.contains c then
      (readTypeName 0 rest).map fun (bytes, rest) => (c.toNat.toUInt8 :: bytes, rest)
    else some ([], c :: rest)
  | 0, [] => some ([], [])
  | _ + 1, _ => none

def readHandleDirective (cs : List Char) : Option (Token × List Char) := do
  let (handle, rest) ← readHandle (cs.dropWhile isBlank)
  if handle ≠ ['!'] ∧ (handle.length < 2 ∨ handle.getLast? ≠ some '!') then none
  else if !(rest.head?.any isBlank) then none else
  let (start, rest) ← readTypeName 0 (rest.dropWhile isBlank)
  if start = [] ∨ !endsWord rest then none else return (.handle (String.ofList handle) ⟨start⟩, rest)

def readDirective (cs : List Char) : Option (Token × List Char) := do
  let name := cs.takeWhile isNameChar
  let rest := cs.drop name.length
  if name = [] ∨ !endsWord rest then none else
  let (token, rest) ←
    if name = "YAML".toList then readVersion rest
    else if name = "TAG".toList then readHandleDirective rest
    else none
  let rest := rest.dropWhile isBlank
  let rest := if rest.head? = some '#' then rest.dropWhile (!isBreak ·) else rest
  if rest.head?.all isBreak then return (token, rest) else none

def readAnchor (token : String → Token) (cs : List Char) : Option (Token × List Char) :=
  let name := cs.takeWhile isNameChar
  let rest := cs.drop name.length
  let ends := endsWord rest ||
    rest.head?.any fun c => "?:,]%@".toList.contains c || c == '\x7d' || c == '\x60'
  if name = [] ∨ !ends then none else some (token (String.ofList name), rest)

def readWholeType (cs : List Char) : Option (Tag × List Char) := do
  let (name, rest) ← readTypeName 0 cs
  match rest with
  | '>' :: rest => if name = [] then none else some (⟨"", ⟨name⟩⟩, rest)
  | _ => none

def readHandledType (cs : List Char) : Option (Tag × List Char) := do
  let (handle, rest) ← readHandle cs
  let (name, rest) ← readTypeName 0 rest
  if 1 < handle.length ∧ handle.getLast? = some '!' then
    if name = [] then none else some (⟨String.ofList handle, ⟨name⟩⟩, rest)
  else
    let name := (handle.drop 1).map (·.toNat.toUInt8) ++ name
    some (if name = [] then ⟨"", "!"⟩ else ⟨"!", ⟨name⟩⟩, rest)

def readType (cs : List Char) : Option (Token × List Char) := do
  let (tag, rest) ←
    match cs with
    | '!' :: '<' :: rest => readWholeType rest
    | _ => readHandledType cs
  if endsWord rest then some (.tag tag, rest) else none

namespace Scanner

def inFlow (scanner : Scanner) : Bool := !scanner.outer.isEmpty

def nextNumber (scanner : Scanner) : Nat := scanner.handed + scanner.queue.length

def indent (scanner : Scanner) : Nat :=
  match scanner.indents with
  | [] => 0
  | column :: _ => column + 1

def add (scanner : Scanner) (token : Token) : Scanner := { scanner with queue := scanner.queue ++ [token] }

/-- Puts a token in front of the one with a number, or at the end if that has been handed out. -/
def insert (scanner : Scanner) (number : Nat) (token : Token) : Scanner :=
  if number < scanner.handed then scanner.add token
  else { scanner with queue := scanner.queue.insertIdx (number - scanner.handed) token }

def advance (scanner : Scanner) (count : Nat) : Scanner :=
  { scanner with cursor := scanner.cursor.skip count (scanner.cursor.rest.drop count) }

def moveTo (scanner : Scanner) (rest : List Char) : Scanner :=
  scanner.advance (scanner.cursor.rest.length - rest.length)

/-- Gives the candidate up. One that has to be a key must not be given up. -/
def giveUp (scanner : Scanner) : Option Scanner :=
  if scanner.candidate.undecided && scanner.candidate.required then none
  else some { scanner with candidate := { scanner.candidate with undecided := false } }

def propose (scanner : Scanner) : Option Scanner :=
  if scanner.keys then
    scanner.giveUp.map fun scanner => { scanner with candidate := {
      number := scanner.nextNumber
      start := scanner.cursor.mark
      undecided := true
      required := !scanner.inFlow && scanner.indents.head? == some scanner.cursor.column
      holds := true } }
  else some scanner

/-- Opens a block collection in a column, unless one that is at least as deep is open. Its token stands
in front of the token with a number, or at the end. -/
def openBlock (scanner : Scanner) (column : Nat) (number : Option Nat) (token : Token) : Option Scanner :=
  if scanner.inFlow || scanner.indents.head?.any (column ≤ ·) then some scanner
  else if maxLevel ≤ scanner.indents.length then none
  else
    let scanner := { scanner with indents := column :: scanner.indents }
    match number with
    | some number => some (scanner.insert number token)
    | none => some (scanner.add token)

def closeBlocks (scanner : Scanner) (deeper : Nat → Bool) : Scanner :=
  if scanner.inFlow then scanner
  else { scanner with
    indents := scanner.indents.dropWhile deeper
    queue := scanner.queue ++ (scanner.indents.takeWhile deeper).map fun _ => .blockEnd }

def approach (scanner : Scanner) : Scanner :=
  let (cursor, keys) :=
    skipBetween scanner.inFlow scanner.marked (scanner.size + 1) scanner.keys scanner.cursor
  { scanner with cursor, keys }.closeBlocks (cursor.column < ·)

def finish (scanner : Scanner) : Option Scanner :=
  (scanner.closeBlocks fun _ => true).giveUp.map fun scanner =>
    { scanner.add .streamEnd with keys := false, finished := true }

def directive (scanner : Scanner) : Option Scanner := do
  let scanner ← (scanner.closeBlocks fun _ => true).giveUp
  let (token, rest) ← readDirective (scanner.cursor.rest.drop 1)
  let scanner := scanner.moveTo rest
  return { scanner.add token with keys := false, cursor := scanner.cursor.skipBreak }

def marker (scanner : Scanner) : Option Scanner :=
  (scanner.closeBlocks fun _ => true).giveUp.map fun scanner =>
    let token := if scanner.cursor.rest.head? = some '-' then .documentStart else .documentEnd
    { (scanner.advance 3).add token with keys := false }

/-- Opens a flow collection. Candidates inside it are counted from the one that it may be itself. -/
def openFlow (scanner : Scanner) (token : Token) : Option Scanner := do
  let scanner ← scanner.propose
  if maxLevel ≤ scanner.outer.length then none
  else return { (scanner.advance 1).add token with
    keys := true
    candidate := { number := scanner.nextNumber }
    outer := scanner.candidate :: scanner.outer }

/-- Closes a flow collection. One in which no candidate was found no longer holds tokens back. -/
def closeFlow (scanner : Scanner) (token : Token) : Option Scanner := do
  let scanner ← scanner.giveUp
  let scanner := { (scanner.advance 1).add token with keys := false }
  match scanner.outer with
  | [] => return scanner
  | around :: outer =>
    let holds := around.holds && around.number != scanner.candidate.number
    return { scanner with candidate := { around with holds }, outer }

def flowEntry (scanner : Scanner) : Option Scanner :=
  scanner.giveUp.map fun scanner => { (scanner.advance 1).add .flowEntry with keys := true }

def blockEntry (scanner : Scanner) : Option Scanner := do
  if !scanner.inFlow && !scanner.keys then none else
  let scanner ← scanner.openBlock scanner.cursor.column none .blockSequence
  let scanner ← scanner.giveUp
  return { (scanner.advance 1).add .blockEntry with keys := true }

def markedKey (scanner : Scanner) : Option Scanner := do
  if !scanner.inFlow && !scanner.keys then none else
  let scanner ← scanner.openBlock scanner.cursor.column none .blockMapping
  let scanner ← scanner.giveUp
  return { (scanner.advance 1).add .key with keys := !scanner.inFlow }

/-- Reads a colon. It makes the candidate a key, or else belongs to a key that was marked or left out. -/
def colon (scanner : Scanner) : Option Scanner := do
  let candidate := scanner.candidate
  if candidate.reaches scanner.cursor.mark then
    let scanner := scanner.insert candidate.number .key
    let scanner ← scanner.openBlock candidate.start.column (some candidate.number) .blockMapping
    return { (scanner.advance 1).add .value with
      candidate := { candidate with undecided := false }
      keys := false }
  else
    let scanner ← scanner.giveUp
    if !scanner.inFlow && !scanner.keys then none else
    let scanner ← scanner.openBlock scanner.cursor.column none .blockMapping
    return { (scanner.advance 1).add .value with keys := !scanner.inFlow }

def name (scanner : Scanner) (read : List Char → Option (Token × List Char)) : Option Scanner := do
  let scanner ← scanner.propose
  let (token, rest) ← read scanner.cursor.rest
  return { (scanner.moveTo rest).add token with keys := false }

def quotedScalar (scanner : Scanner) (read : Nat → Cursor → Option (List Char × Cursor)) :
    Option Scanner := do
  let scanner ← scanner.propose
  let (text, cursor) ← read (scanner.size + 1) (scanner.advance 1).cursor
  return { scanner.add (.scalar false (String.ofList text)) with cursor, keys := false }

def plainScalar (scanner : Scanner) : Option Scanner := do
  let scanner ← scanner.propose
  let plain ← readPlain scanner.inFlow scanner.indent (scanner.size + 1) scanner.cursor
  if scanner.clipped ∧ plain.last.rest = [] then none
  else return { scanner.add (.scalar true (String.ofList plain.text)) with
    cursor := plain.last, keys := plain.broken }

def blockScalar (scanner : Scanner) (literal : Bool) : Option Scanner := do
  let scanner ← scanner.giveUp
  let (text, cursor) ← readBlockScalar literal scanner.indent (scanner.size + 1) (scanner.advance 1).cursor
  if scanner.clipped ∧ cursor.rest = [] then none
  else return { scanner.add (.scalar false (String.ofList text)) with cursor, keys := true }

def token (scanner : Scanner) (c : Char) (rest : List Char) : Option Scanner :=
  let flow := scanner.inFlow
  if c = '[' then scanner.openFlow .flowSequence
  else if c = '\x7b' then scanner.openFlow .flowMapping
  else if c = ']' then scanner.closeFlow .flowSequenceEnd
  else if c = '\x7d' then scanner.closeFlow .flowMappingEnd
  else if c = ',' then scanner.flowEntry
  else if c = '-' ∧ endsWord rest then scanner.blockEntry
  else if c = '?' ∧ (flow ∨ endsWord rest) then scanner.markedKey
  else if c = ':' ∧ (flow ∨ endsWord rest) then scanner.colon
  else if c = '*' then scanner.name fun cs => readAnchor .reference (cs.drop 1)
  else if c = '&' then scanner.name fun cs => readAnchor .anchor (cs.drop 1)
  else if c = '!' then scanner.name readType
  else if c = '|' ∧ !flow then scanner.blockScalar true
  else if c = '>' ∧ !flow then scanner.blockScalar false
  else if c = '\'' then scanner.quotedScalar readSingleQuoted
  else if c = '"' then scanner.quotedScalar readDoubleQuoted
  else if startsPlain flow (c :: rest) then scanner.plainScalar
  else none

/-- Steps over a comment behind the last token. A dash leaves it to what follows, and a scalar whose last
line has ended has none. -/
def endLine (scanner : Scanner) : Scanner :=
  let ended := match scanner.queue.getLast? with
    | some .blockEntry => true
    | some (.scalar _ _) => scanner.keys
    | _ => false
  if ended then scanner else { scanner with cursor := skipLineComment scanner.cursor }

def fetch (scanner : Scanner) : Option Scanner :=
  let scanner := scanner.approach
  if scanner.clipped ∧ (scanner.cursor.rest.drop 3).isEmpty then none else
  match scanner.cursor.rest with
  | [] => scanner.finish
  | c :: rest =>
    if scanner.cursor.column = 0 ∧ c = '%' then scanner.directive
    else if scanner.cursor.atMarker then scanner.marker
    else (scanner.token c rest).map endLine

def waits (scanner : Scanner) : Bool :=
  (scanner.candidate :: scanner.outer).any fun candidate =>
    candidate.holds && candidate.number == scanner.handed && candidate.reaches scanner.cursor.mark

/-- The first token, once the two behind it are read and it is known whether it starts a key. -/
def ready (scanner : Scanner) : Option (Token × Scanner) :=
  match scanner.queue with
  | first :: second :: third :: rest =>
    if scanner.waits then none
    else some (first, { scanner with queue := second :: third :: rest, handed := scanner.handed + 1 })
  | _ => none

def tokens : Nat → Scanner → List Token
  | 0, _ => []
  | fuel + 1, scanner =>
    if scanner.finished then scanner.queue
    else
      match scanner.ready with
      | some (first, scanner) => first :: tokens fuel scanner
      | none =>
        match scanner.fetch with
        | some scanner => tokens fuel scanner
        | none => []

end Scanner

end Lineside.Yaml
