import Lineside.Yaml.Basic

/-!
Scalars within a line of YAML text, plain and quoted. A cursor walks over the characters and knows its
place; each reader returns the text of the scalar and the cursor behind it. Line breaks inside a scalar
are folded.
-/

namespace Lineside.Yaml

structure Mark where
  index : Nat := 0
  line : Nat := 0
  column : Nat := 0
  deriving DecidableEq, Repr

namespace Mark

def right (mark : Mark) (count : Nat) : Mark :=
  { mark with index := mark.index + count, column := mark.column + count }

def nextLine (mark : Mark) : Mark := ⟨mark.index + 1, mark.line + 1, 0⟩

end Mark

structure Cursor where
  rest : List Char
  mark : Mark := {}
  deriving Repr

def lineSeparator : Char := Char.ofNat 0x2028

def paragraphSeparator : Char := Char.ofNat 0x2029

def byteOrderMark : Char := Char.ofNat 0xFEFF

def isBreak (c : Char) : Bool := c == '\n' || c == lineSeparator || c == paragraphSeparator

def isBlank (c : Char) : Bool := c == ' ' || c == '\t'

def endsWord : List Char → Bool
  | [] => true
  | c :: _ => isBlank c || isBreak c

/-- Writes every kind of line break that is not kept as such in one way. -/
def unifyBreaks : List Char → List Char
  | [] => []
  | '\r' :: '\n' :: rest => '\n' :: unifyBreaks rest
  | c :: rest => (if c = '\r' ∨ c.toNat = 0x85 then '\n' else c) :: unifyBreaks rest

namespace Cursor

def line (cursor : Cursor) : Nat := cursor.mark.line

def column (cursor : Cursor) : Nat := cursor.mark.column

def skip (cursor : Cursor) (count : Nat) (rest : List Char) : Cursor := ⟨rest, cursor.mark.right count⟩

def skipWhile (cursor : Cursor) (condition : Char → Bool) : Cursor :=
  cursor.skip (cursor.rest.takeWhile condition).length (cursor.rest.dropWhile condition)

def skipBreak (cursor : Cursor) : Cursor :=
  match cursor.rest with
  | c :: rest => if isBreak c then ⟨rest, cursor.mark.nextLine⟩ else cursor
  | [] => cursor

def atMarker (cursor : Cursor) : Bool :=
  cursor.column == 0 &&
    match cursor.rest with
    | a :: b :: c :: rest => a == b && b == c && (a == '-' || a == '.') && endsWord rest
    | _ => false

end Cursor

/-- Blanks and line breaks between two parts of a scalar. -/
structure Gap where
  blanks : List Char := []
  breaks : List Char := []
  tabs : List Nat := []
  next : Cursor

namespace Gap

def extend (gap : Gap) : List Char → Mark → Gap
  | [], mark => { gap with next := ⟨[], mark⟩ }
  | c :: rest, mark =>
    if isBlank c then
      if gap.breaks.isEmpty then extend { gap with blanks := gap.blanks ++ [c] } rest (mark.right 1)
      else
        extend { gap with tabs := if c = '\t' then mark.column :: gap.tabs else gap.tabs } rest
          (mark.right 1)
    else if isBreak c then extend { gap with blanks := [], breaks := gap.breaks ++ [c] } rest mark.nextLine
    else { gap with next := ⟨c :: rest, mark⟩ }

def after (cursor : Cursor) : Gap := extend { next := cursor } cursor.rest cursor.mark

/-- What the gap contributes to the scalar: one line break is a space, further ones stay. -/
def folded (gap : Gap) : List Char :=
  match gap.breaks with
  | [] => gap.blanks
  | first :: more => if first = '\n' then if more.isEmpty then [' '] else more else first :: more

end Gap

def endsFlowWord (c : Char) (rest : List Char) : Bool :=
  [',', '[', ']', '\x7b', '\x7d'].contains c ||
    (c == '?' && endsWord rest && rest.head? != some '\t')

def plainWord (flow : Bool) : List Char → List Char × List Char
  | [] => ([], [])
  | c :: rest =>
    if isBlank c || isBreak c || (c == ':' && endsWord rest) || (flow && endsFlowWord c rest) then
      ([], c :: rest)
    else
      let (word, rest) := plainWord flow rest
      (c :: word, rest)

def startsPlain (flow : Bool) : List Char → Bool
  | [] => false
  | c :: rest =>
    if [',', '[', ']', '\x7b', '\x7d', '#', '&', '*', '!', '|', '>', '\'', '"', '%', '@', '\x60'].contains c then
      false
    else if c = '-' then !endsWord rest
    else if c = '?' ∨ c = ':' then !flow && !endsWord rest
    else !(isBlank c || isBreak c)

structure PlainText where
  text : List Char
  /-- The place behind the scalar and the blanks and line breaks that follow it. -/
  last : Cursor
  /-- There were line breaks among those. -/
  broken : Bool

/-- Reads a plain scalar word by word. On further lines of a block it is indented by at least `indent`,
and a tab may not stand where indentation is due. -/
def readPlain (flow : Bool) (indent : Nat) : Nat → Cursor → Option PlainText
  | 0, cursor => some ⟨[], cursor, false⟩
  | fuel + 1, cursor =>
    let (word, rest) := plainWord flow cursor.rest
    let gap := Gap.after (cursor.skip word.length rest)
    let done :=
      (gap.blanks.isEmpty && gap.breaks.isEmpty) || gap.next.atMarker || gap.next.rest.head? == some '#' ||
        (!flow && gap.next.column < indent) || (plainWord flow gap.next.rest).1.isEmpty
    if gap.tabs.any (· < indent) then none
    else if done then some ⟨word, gap.next, !gap.breaks.isEmpty⟩
    else (readPlain flow indent fuel gap.next).map fun more =>
      { more with text := word ++ gap.folded ++ more.text }

def readSingleQuoted : Nat → Cursor → Option (List Char × Cursor)
  | 0, _ => none
  | fuel + 1, cursor =>
    if cursor.atMarker then none else
    match cursor.rest with
    | [] => none
    | '\'' :: '\'' :: rest =>
      (readSingleQuoted fuel (cursor.skip 2 rest)).map fun (text, last) => ('\'' :: text, last)
    | '\'' :: rest => some ([], cursor.skip 1 rest)
    | c :: rest =>
      if isBlank c || isBreak c then
        let gap := Gap.after cursor
        (readSingleQuoted fuel gap.next).map fun (text, last) => (gap.folded ++ text, last)
      else (readSingleQuoted fuel (cursor.skip 1 rest)).map fun (text, last) => (c :: text, last)

def hexDigit? (c : Char) : Option Nat :=
  if '0' ≤ c ∧ c ≤ '9' then some (c.toNat - '0'.toNat)
  else if 'a' ≤ c ∧ c ≤ 'f' then some (c.toNat - 'a'.toNat + 10)
  else if 'A' ≤ c ∧ c ≤ 'F' then some (c.toNat - 'A'.toNat + 10)
  else none

def codeChar? (digits : List Char) : Option Char := do
  let code ← digits.foldlM (fun value c => (hexDigit? c).map (16 * value + ·)) 0
  if code < 0x110000 ∧ ¬(0xD800 ≤ code ∧ code ≤ 0xDFFF) then some (Char.ofNat code) else none

def simpleEscape? : Char → Option Char
  | '0' => some '\x00'
  | 'a' => some '\x07'
  | 'b' => some '\x08'
  | 't' | '\t' => some '\t'
  | 'n' => some '\n'
  | 'v' => some '\x0b'
  | 'f' => some '\x0c'
  | 'r' => some '\r'
  | 'e' => some '\x1b'
  | ' ' => some ' '
  | '"' => some '"'
  | '\'' => some '\''
  | '\\' => some '\\'
  | '/' => some '/'
  | 'N' => some '\x85'
  | '_' => some '\xa0'
  | 'L' => some lineSeparator
  | 'P' => some paragraphSeparator
  | _ => none

def escapeWidth? : Char → Option Nat
  | 'x' => some 2
  | 'u' => some 4
  | 'U' => some 8
  | _ => none

/-- The character of an escape behind its backslash, and how many characters it takes. -/
def readEscape : List Char → Option (Char × Nat)
  | [] => none
  | letter :: rest =>
    match escapeWidth? letter with
    | some width =>
      let digits := rest.take width
      if digits.length < width then none else (codeChar? digits).map fun c => (c, width + 1)
    | none => (simpleEscape? letter).map fun c => (c, 1)

def readDoubleQuoted : Nat → Cursor → Option (List Char × Cursor)
  | 0, _ => none
  | fuel + 1, cursor =>
    if cursor.atMarker then none else
    match cursor.rest with
    | [] => none
    | '"' :: rest => some ([], cursor.skip 1 rest)
    | '\\' :: rest =>
      if rest.head?.any isBreak then
        let gap := Gap.after (cursor.skip 1 rest)
        (readDoubleQuoted fuel gap.next).map fun (text, last) => (gap.breaks.drop 1 ++ text, last)
      else
        match readEscape rest with
        | none => none
        | some (c, width) =>
          (readDoubleQuoted fuel (cursor.skip (width + 1) (rest.drop width))).map fun (text, last) =>
            (c :: text, last)
    | c :: rest =>
      if isBlank c || isBreak c then
        let gap := Gap.after cursor
        (readDoubleQuoted fuel gap.next).map fun (text, last) => (gap.folded ++ text, last)
      else (readDoubleQuoted fuel (cursor.skip 1 rest)).map fun (text, last) => (c :: text, last)

end Lineside.Yaml
