import Lineside.Number.Integer

/-!
Numbers written in digits: whole numbers in a base with an optional prefix, and decimal fractions as
double precision numbers.
-/

namespace Lineside.Decimal

def isDigit (c : Char) : Bool := '0' ≤ c && c ≤ '9'

def digit? (base : Nat) (c : Char) : Option Nat :=
  let value :=
    if isDigit c then c.toNat - '0'.toNat
    else if 'a' ≤ c ∧ c ≤ 'f' then c.toNat - 'a'.toNat + 10
    else if 'A' ≤ c ∧ c ≤ 'F' then c.toNat - 'A'.toNat + 10
    else base
  if value < base then some value else none

def digitsValue? (base : Nat) (cs : List Char) : Option Nat :=
  cs.foldlM (fun value c => (digit? base c).map (base * value + ·)) 0

def natural? (base : Nat) (cs : List Char) : Option Nat :=
  if cs = [] then none else digitsValue? base cs

def sign : List Char → Bool × List Char
  | '-' :: rest => (true, rest)
  | '+' :: rest => (false, rest)
  | cs => (false, cs)

/-- The base and the digits of a whole number: `0b`, `0o` and `0x` select a base, and so does a leading
zero, which is octal. -/
def splitBase : List Char → Nat × List Char
  | '0' :: mark :: c :: rest =>
    if mark = 'b' ∨ mark = 'B' then (2, c :: rest)
    else if mark = 'o' ∨ mark = 'O' then (8, c :: rest)
    else if mark = 'x' ∨ mark = 'X' then (16, c :: rest)
    else (8, mark :: c :: rest)
  | '0' :: rest => (8, rest)
  | cs => (10, cs)

def basedNatural? (cs : List Char) : Option Nat :=
  if cs = [] then none else
  let (base, digits) := splitBase cs
  digitsValue? base digits

inductive IntegerError where
  | badForm
  | outOfRange
  deriving DecidableEq, Repr

def signed (negative : Bool) (magnitude : Nat) : Except IntegerError Int64 :=
  match Integer.ofInt? (if negative then -magnitude else magnitude) with
  | some value => .ok value
  | none => .error .outOfRange

/-- Underscores may stand between digits, and between a base prefix and a digit. -/
def underscoresSeparate (cs : List Char) : Bool :=
  let rec go (hexadecimal : Bool) (last : Char) : List Char → Bool
    | [] => last != '_'
    | c :: rest =>
      if isDigit c || (hexadecimal && (digit? 16 c).isSome) then go hexadecimal '0' rest
      else if c = '_' then last == '0' && go hexadecimal '_' rest
      else last != '_' && go hexadecimal '!' rest
  match (sign cs).2 with
  | '0' :: mark :: rest =>
    if mark.toLower = 'b' ∨ mark.toLower = 'o' then go false '0' rest
    else if mark.toLower = 'x' then go true '0' rest
    else go false '^' ('0' :: mark :: rest)
  | cs => go false '^' cs

/-- Reads digits from left to right behind the ones that gave `value`, underscores aside. The first
character that is no digit ends the reading, and so does the first digit that leads beyond 64 bits. -/
def accumulate (base : Nat) (value : Nat) : List Char → Except IntegerError Nat
  | [] => .ok value
  | c :: rest =>
    if c = '_' then accumulate base value rest else
    match digit? base c with
    | none => .error .badForm
    | some digit =>
      if base * value + digit < 2 * Integer.half then accumulate base (base * value + digit) rest
      else .error .outOfRange

def integer (text : String) : Except IntegerError Int64 := do
  let (negative, cs) := sign text.toList
  if cs = [] then .error .badForm
  let (base, digits) := splitBase cs
  let magnitude ← accumulate base 0 digits
  if cs.contains '_' ∧ !underscoresSeparate cs then .error .badForm
  signed negative magnitude

/-- A decimal fraction taken apart: its digits without the point, and the power of ten. -/
structure Fraction where
  negative : Bool
  digits : List Char
  exponent : Int
  deriving DecidableEq, Repr

def fraction? (cs : List Char) : Option Fraction :=
  let (negative, cs) := sign cs
  let whole := cs.takeWhile isDigit
  let cs := cs.dropWhile isDigit
  let (decimals, cs) := match cs with
    | '.' :: rest => (rest.takeWhile isDigit, rest.dropWhile isDigit)
    | cs => ([], cs)
  if whole = [] ∧ decimals = [] then none else
  match cs with
  | [] => some ⟨negative, whole ++ decimals, -decimals.length⟩
  | mark :: rest =>
    if mark = 'e' ∨ mark = 'E' then
      let (below, power) := sign rest
      (natural? 10 power).map fun power =>
        ⟨negative, whole ++ decimals, (if below then -(power : Int) else power) - decimals.length⟩
    else none

/-- The double nearest to a fraction, or none where it is too large. -/
def Fraction.toFloat? (fraction : Fraction) : Option Float :=
  let mantissa := Nat.ofDigitChars 10 fraction.digits 0
  let size : Int := (Nat.toDigits 10 mantissa).length + fraction.exponent
  let signed (x : Float) : Float := if fraction.negative then -x else x
  if mantissa = 0 ∨ size < -400 then some (signed 0)
  else if 400 < size then none
  else
    let value := Float.ofScientific mantissa (fraction.exponent < 0) fraction.exponent.natAbs
    if value.isInf then none else some (signed value)

end Lineside.Decimal
