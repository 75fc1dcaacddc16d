import Lineside.Text.Quoted
import Lineside.Yaml.Scalar
import Lineside.Yaml.Text
import Lineside.Yaml.Timestamp

/-!
How a text is written as a YAML scalar: as a literal block if it has several lines, plain where it then
reads back as itself, in single quotes where only its marks stand in the way, and in double quotes
otherwise. Texts that other readers take for numbers, dates or truth values are quoted too.
-/

namespace Lineside.Yaml

def isSexagesimal (text : String) : Bool :=
  let rec groups : Nat → List Char → Bool
    | 0, _ => false
    | fuel + 1, cs =>
      match cs with
      | ':' :: rest =>
        match numberBelow 60 rest with
        | none => false
        | some rest => groups fuel rest || closes rest
      | _ => false
  match (Decimal.sign text.toList).2 with
  | c :: rest => Decimal.isDigit c &&
      groups text.length (rest.dropWhile fun c => Decimal.isDigit c || c == '_')
  | [] => false
where
  closes : List Char → Bool
    | [] => true
    | '.' :: rest => rest.all fun c => Decimal.isDigit c || c == '_'
    | _ => false

def isOldTruthValue (text : String) : Bool :=
  ["y", "Y", "yes", "Yes", "YES", "on", "On", "ON",
    "n", "N", "no", "No", "NO", "off", "Off", "OFF"].contains text

/-- The text, written without quotes, stands for itself. -/
def standsForItself (text : String) : Bool :=
  (match Scalar.ofPlain text with
    | .text => true
    | _ => false) && !isTimestamp text && !isSexagesimal text && !isOldTruthValue text

def isVisible (c : Char) : Bool :=
  let code := c.toNat
  code == 0x0A || (0x20 ≤ code && code ≤ 0x7E) || (0xA0 ≤ code && code ≤ 0xD7FF) ||
    (0xE000 ≤ code && code ≤ 0xFFFD && c != byteOrderMark)

def hasInnerMark : List Char → Bool
  | a :: b :: rest =>
    (isBlank a && b == '#') ||
      (b == ':' && (match rest with
        | [] => true
        | c :: _ => isBlank c)) ||
      hasInnerMark (b :: rest)
  | _ => false

def hasLeadingMark : List Char → Bool
  | [] => false
  | c :: rest =>
    "#,[]&*!|>\"%@".toList.contains c || c == '\x7b' || c == '\x7d' || c == '\x27' || c == '\x60' ||
      ((c == '?' || c == ':' || c == '-') && (match rest with
        | [] => true
        | next :: _ => isBlank next)) ||
      ['-', '-', '-'].isPrefixOf (c :: rest) || ['.', '.', '.'].isPrefixOf (c :: rest)

def hasPair (first second : Char → Bool) : List Char → Bool
  | a :: b :: rest => (first a && second b) || hasPair first second (b :: rest)
  | _ => false

/-- The text can be a literal block: a space at the end of a line would be lost. -/
def fitsLiteral (cs : List Char) : Bool :=
  (cs.all fun c => isVisible c || c == '\t') && cs.getLast? != some ' ' && !hasPair (· == ' ') isBreak cs

/-- The text can stand in single quotes: spaces around a line break would be lost. -/
def fitsSingleQuotes (cs : List Char) : Bool :=
  cs.all isVisible && !hasPair (· == ' ') isBreak cs && !hasPair isBreak (· == ' ') cs

def fitsPlain (cs : List Char) : Bool :=
  (cs.all fun c => isVisible c && !isBreak c) && !hasLeadingMark cs && !hasInnerMark cs &&
    cs.head? != some ' ' && cs.getLast? != some ' '

def upperHex (width value : Nat) : List Char := (Text.hex width value).map Char.toUpper

def escape (c : Char) : List Char :=
  match c.toNat with
  | 0x00 => ['\\', '0']
  | 0x07 => ['\\', 'a']
  | 0x08 => ['\\', 'b']
  | 0x09 => ['\\', 't']
  | 0x0a => ['\\', 'n']
  | 0x0b => ['\\', 'v']
  | 0x0c => ['\\', 'f']
  | 0x0d => ['\\', 'r']
  | 0x1b => ['\\', 'e']
  | 0x22 => ['\\', '"']
  | 0x5c => ['\\', '\\']
  | 0x85 => ['\\', 'N']
  | 0xa0 => ['\\', '_']
  | 0x2028 => ['\\', 'L']
  | 0x2029 => ['\\', 'P']
  | code =>
    if code ≤ 0xFF then '\\' :: 'x' :: upperHex 2 code
    else if code ≤ 0xFFFF then '\\' :: 'u' :: upperHex 4 code
    else '\\' :: 'U' :: upperHex 8 code

/-- A text in double quotes. One that starts with a byte-order mark consists of escapes only. -/
def doubleQuoted (cs : List Char) : List Char :=
  let marked := cs.head? == some byteOrderMark
  '"' :: cs.flatMap (fun c =>
    if marked || !isVisible c || isBreak c || c == '"' || c == '\\' then escape c else [c]) ++ ['"']

def indentLines (spaces : Nat) (shown : Char → List Char) : Bool → List Char → List Char
  | _, [] => []
  | fresh, c :: rest =>
    if isBreak c then c :: indentLines spaces shown true rest
    else (if fresh then List.replicate spaces ' ' else []) ++ shown c ++ indentLines spaces shown false rest

def singleQuoted (spaces : Nat) (cs : List Char) : List Char :=
  '\x27' :: indentLines spaces (fun c => if c = '\x27' then [c, c] else [c]) false cs ++ ['\x27']

def indentStep : Nat := 4

/-- The header of a literal block: the indentation where the text starts with a blank or a line break,
and what becomes of the line breaks at the end unless there is just one. -/
def literalHeader (cs : List Char) : List Char :=
  let increment := if cs.head?.any (fun c => c == ' ' || isBreak c) then (Nat.toDigits 10 indentStep) else []
  let chomping := match cs.reverse with
    | [] => ['-']
    | last :: before =>
      if !isBreak last then ['-'] else if before.head?.all isBreak then ['+'] else []
  '|' :: increment ++ chomping

/-- A text as a literal block. A line break at its start takes the place of the one behind the header. -/
def literal (spaces : Nat) (cs : List Char) : List Char :=
  let first := if cs.head?.any isBreak then [] else ['\n']
  literalHeader cs ++ first ++ indentLines spaces ([·]) true cs

/-- A text as a scalar whose further lines are indented, and the end of its last line. -/
def written (spaces : Nat) (text : String) : String :=
  let cs := text.toList
  String.ofList <|
    if cs.contains '\n' then
      if fitsLiteral cs then literal spaces cs ++ (if cs.getLast?.any isBreak then [] else ['\n'])
      else doubleQuoted cs ++ ['\n']
    else if !standsForItself text then doubleQuoted cs ++ ['\n']
    else if fitsPlain cs then cs ++ ['\n']
    else if fitsSingleQuotes cs then singleQuoted spaces cs ++ ['\n']
    else doubleQuoted cs ++ ['\n']

end Lineside.Yaml
