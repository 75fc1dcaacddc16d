import Lineside.Yaml.Text

/-!
Scalars written as a block of lines: literal ones, which keep their line breaks, and folded ones. A header
says what becomes of the line breaks at the end and may give the indentation; otherwise the first line of
text sets it.
-/

namespace Lineside.Yaml

inductive Chomping where
  | clip
  | strip
  | keep
  deriving DecidableEq, Repr

structure BlockHeader where
  chomping : Chomping := .clip
  /-- How much deeper than its surroundings the block is indented, or zero where that is not said. -/
  increment : Nat := 0
  deriving DecidableEq, Repr

namespace BlockHeader

def chomping? : Char → Option Chomping
  | '+' => some .keep
  | '-' => some .strip
  | _ => none

def readIncrement (header : BlockHeader) : List Char → Option (BlockHeader × List Char)
  | c :: rest =>
    if c = '0' then none
    else if '1' ≤ c ∧ c ≤ '9' then some ({ header with increment := c.toNat - '0'.toNat }, rest)
    else some (header, c :: rest)
  | [] => some (header, [])

def readChomping (header : BlockHeader) : List Char → BlockHeader × List Char
  | c :: rest =>
    match chomping? c with
    | some chomping => ({ header with chomping }, rest)
    | none => (header, c :: rest)
  | [] => (header, [])

def read (cs : List Char) : Option (BlockHeader × List Char) :=
  if (cs.head?.bind chomping?).isSome then
    let (header, rest) := readChomping {} cs
    header.readIncrement rest
  else (readIncrement {} cs).map fun (header, rest) =>
    if header.increment = 0 then (header, rest) else header.readChomping rest

def finish (header : BlockHeader) (text ending spare : List Char) : List Char :=
  match header.chomping with
  | .strip => text
  | .clip => text ++ ending
  | .keep => text ++ ending ++ spare

end BlockHeader

structure Indentation where
  breaks : List Char
  widest : Nat
  next : Cursor

/-- Steps over indentation and empty lines. `indent` is zero where the indentation is not yet known. A tab
may not stand where indentation is due. -/
def readIndentation (indent : Nat) : List Char → Nat → List Char → Mark → Option Indentation
  | breaks, widest, [], mark => some ⟨breaks, max widest mark.column, ⟨[], mark⟩⟩
  | breaks, widest, c :: rest, mark =>
    if (c = ' ' ∨ c = '\t') ∧ (indent = 0 ∨ mark.column < indent) then
      if c = '\t' then none else readIndentation indent breaks widest rest (mark.right 1)
    else if isBreak c then readIndentation indent (breaks ++ [c]) (max widest mark.column) rest mark.nextLine
    else some ⟨breaks, max widest mark.column, ⟨c :: rest, mark⟩⟩

/-- Lines of a block that have been read: their text, the last line break and the empty lines behind. -/
structure BlockLines where
  text : List Char
  ending : List Char
  spare : List Char
  last : Cursor

/-- Reads the lines of a block. `ending` and `spare` are the line break and the empty lines in front, and
`wasBlank` tells that the line before starts with a blank, which keeps it from being folded. -/
def readLines (literal : Bool) (indent : Nat) :
    Nat → List Char → List Char → Bool → Cursor → Option BlockLines
  | 0, _, _, _, _ => none
  | fuel + 1, ending, spare, wasBlank, cursor =>
    if cursor.column = indent ∧ cursor.rest ≠ [] then do
      let startsBlank := cursor.rest.head?.any isBlank
      let folds := !literal && !wasBlank && !startsBlank && ending.head? == some '\n'
      let joint := if folds then if spare.isEmpty then [' '] else spare else ending ++ spare
      let line := cursor.rest.takeWhile (!isBreak ·)
      let eol := cursor.skip line.length (cursor.rest.dropWhile (!isBreak ·))
      let nextEnding := (eol.rest.head?.filter isBreak).toList
      let next := eol.skipBreak
      let gap ← readIndentation indent [] 0 next.rest next.mark
      let more ← readLines literal indent fuel nextEnding gap.breaks startsBlank gap.next
      return { more with text := joint ++ line ++ more.text }
    else some ⟨[], ending, spare, cursor⟩

/-- Reads a block scalar behind its first character. `indent` is how far the lines of the block around it
are indented at least. -/
def readBlockScalar (literal : Bool) (indent : Nat) (fuel : Nat) (cursor : Cursor) :
    Option (List Char × Cursor) := do
  let (header, rest) ← BlockHeader.read cursor.rest
  let eol := (cursor.skip (cursor.rest.length - rest.length) rest).skipWhile isBlank
  let eol := if eol.rest.head? = some '#' then eol.skipWhile (!isBreak ·) else eol
  if !(eol.rest.head?.all isBreak) then none else
  let next := eol.skipBreak
  let given := if header.increment = 0 then 0 else indent - 1 + header.increment
  let gap ← readIndentation given [] 0 next.rest next.mark
  let indent := if given = 0 then max gap.widest (max indent 1) else given
  let lines ← readLines literal indent fuel [] gap.breaks false gap.next
  return (header.finish lines.text lines.ending lines.spare, lines.last)

end Lineside.Yaml
