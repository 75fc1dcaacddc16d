import Lineside.Json.Basic

/-!
Reading JSON text. The whole text must be one value, nested at most ten thousand levels deep. A half of
a surrogate pair that stands alone becomes the replacement character.
-/

namespace Lineside.Json

def isBlank (c : Char) : Bool := c == ' ' || c == '\t' || c == '\n' || c == '\r'

def skipBlank (cs : List Char) : List Char := cs.dropWhile isBlank

def hexDigit? (c : Char) : Option Nat :=
  if '0' ≤ c ∧ c ≤ '9' then some (c.toNat - '0'.toNat)
  else if 'a' ≤ c ∧ c ≤ 'f' then some (c.toNat - 'a'.toNat + 10)
  else if 'A' ≤ c ∧ c ≤ 'F' then some (c.toNat - 'A'.toNat + 10)
  else none

def hexValue? (cs : List Char) : Option Nat :=
  cs.foldlM (fun value c => (hexDigit? c).map (16 * value + ·)) 0

def isHighSurrogate (code : Nat) : Bool := 0xD800 ≤ code && code < 0xDC00

def isLowSurrogate (code : Nat) : Bool := 0xDC00 ≤ code && code < 0xE000

def replacement : Char := Char.ofNat 0xFFFD

def simpleEscape? : Char → Option Char
  | '"' => some '"'
  | '\\' => some '\\'
  | '/' => some '/'
  | 'b' => some '\x08'
  | 'f' => some '\x0c'
  | 'n' => some '\n'
  | 'r' => some '\r'
  | 't' => some '\t'
  | _ => none

/-- Reads a string behind its opening quote, up to and with the closing one, as a list of code units. -/
def readUnits : List Char → Option (List Nat × List Char)
  | [] => none
  | '"' :: rest => some ([], rest)
  | '\\' :: 'u' :: a :: b :: c :: d :: rest =>
    match hexValue? [a, b, c, d] with
    | none => none
    | some code => (readUnits rest).map fun (units, rest) => (code :: units, rest)
  | '\\' :: c :: rest =>
    match simpleEscape? c with
    | none => none
    | some c => (readUnits rest).map fun (units, rest) => (c.toNat :: units, rest)
  | c :: rest =>
    if c = '\\' ∨ c.toNat < 0x20 then none
    else (readUnits rest).map fun (units, rest) => (c.toNat :: units, rest)

/-- The character of a code unit; half a pair has none. -/
def unitChar (unit : Nat) : Char :=
  if isHighSurrogate unit ∨ isLowSurrogate unit then replacement else Char.ofNat unit

/-- Joins the two halves of each surrogate pair. -/
def joinUnits : List Nat → List Char
  | [] => []
  | [unit] => [unitChar unit]
  | first :: second :: rest =>
    if isHighSurrogate first ∧ isLowSurrogate second then
      Char.ofNat (0x10000 + (first - 0xD800) * 0x400 + (second - 0xDC00)) :: joinUnits rest
    else unitChar first :: joinUnits (second :: rest)

def readString (cs : List Char) : Option (String × List Char) :=
  (readUnits cs).map fun (units, rest) => (String.ofList (joinUnits units), rest)

def isDigit (c : Char) : Bool := '0' ≤ c && c ≤ '9'

def digits1 (cs : List Char) : Option (List Char × List Char) :=
  match cs.takeWhile isDigit with
  | [] => none
  | digits => some (digits, cs.dropWhile isDigit)

/-- The digits before the point: a zero stands alone. -/
def wholeDigits : List Char → Option (List Char × List Char)
  | '0' :: rest => some (['0'], rest)
  | cs => digits1 cs

def fractionDigits : List Char → Option (List Char × List Char)
  | '.' :: rest => (digits1 rest).map fun (digits, rest) => ('.' :: digits, rest)
  | cs => some ([], cs)

def exponentDigits : List Char → Option (List Char × List Char)
  | e :: sign :: rest =>
    if e = 'e' ∨ e = 'E' then
      if sign = '+' ∨ sign = '-' then
        (digits1 rest).map fun (digits, rest) => (e :: sign :: digits, rest)
      else (digits1 (sign :: rest)).map fun (digits, rest) => (e :: digits, rest)
    else some ([], e :: sign :: rest)
  | [e] => if e = 'e' ∨ e = 'E' then none else some ([], [e])
  | [] => some ([], [])

def numberSign : List Char → List Char × List Char
  | '-' :: rest => (['-'], rest)
  | cs => ([], cs)

def readNumber (cs : List Char) : Option (List Char × List Char) := do
  let (sign, cs) := numberSign cs
  let (whole, cs) ← wholeDigits cs
  let (fraction, cs) ← fractionDigits cs
  let (exponent, cs) ← exponentDigits cs
  return (sign ++ whole ++ fraction ++ exponent, cs)

mutual

def readValue : Nat → Nat → List Char → Option (Json × List Char)
  | 0, _, _ => none
  | fuel + 1, depth, cs =>
    match skipBlank cs with
    | 'n' :: 'u' :: 'l' :: 'l' :: rest => some (.null, rest)
    | 't' :: 'r' :: 'u' :: 'e' :: rest => some (.bool true, rest)
    | 'f' :: 'a' :: 'l' :: 's' :: 'e' :: rest => some (.bool false, rest)
    | '"' :: rest => (readString rest).map fun (text, rest) => (.string text, rest)
    | '[' :: rest =>
      match depth, skipBlank rest with
      | 0, _ => none
      | _ + 1, ']' :: rest => some (.array [], rest)
      | depth + 1, rest => (readItems fuel depth rest).map fun (items, rest) => (.array items, rest)
    | '\x7b' :: rest =>
      match depth, skipBlank rest with
      | 0, _ => none
      | _ + 1, '\x7d' :: rest => some (.object [], rest)
      | depth + 1, rest =>
        (readMembers fuel depth rest).map fun (members, rest) => (.object members, rest)
    | cs => (readNumber cs).map fun (text, rest) => (.number (String.ofList text), rest)

def readItems : Nat → Nat → List Char → Option (List Json × List Char)
  | 0, _, _ => none
  | fuel + 1, depth, cs => do
    let (item, cs) ← readValue fuel depth cs
    match skipBlank cs with
    | ',' :: rest =>
      let (items, rest) ← readItems fuel depth rest
      return (item :: items, rest)
    | ']' :: rest => return ([item], rest)
    | _ => none

def readMembers : Nat → Nat → List Char → Option (List (String × Json) × List Char)
  | 0, _, _ => none
  | fuel + 1, depth, cs =>
    match skipBlank cs with
    | '"' :: rest => do
      let (key, cs) ← readString rest
      match skipBlank cs with
      | ':' :: rest =>
        let (value, cs) ← readValue fuel depth rest
        match skipBlank cs with
        | ',' :: rest =>
          let (members, rest) ← readMembers fuel depth rest
          return ((key, value) :: members, rest)
        | '\x7d' :: rest => return ([(key, value)], rest)
        | _ => none
      | _ => none
    | _ => none

end

def maxDepth : Nat := 10000

def parse (text : String) : Option Json :=
  match readValue (2 * text.length + 2) maxDepth text.toList with
  | some (value, rest) => if skipBlank rest = [] then some value else none
  | none => none

end Lineside.Json
