import Lineside.Number.Decimal

/-!
What a plain YAML scalar stands for. Underscores inside numbers are ignored; a number with a leading zero
is octal unless that fails, and a whole number too large for 64 bits is a fraction.
-/

namespace Lineside.Yaml

inductive Scalar where
  | null
  | bool (value : Bool)
  /-- Fits into 64 bits, with or without sign. -/
  | int (value : Int)
  | float (value : Float)
  | text

def isNull (text : String) : Bool := ["", "~", "null", "Null", "NULL"].contains text

def infinity : Float := 1.0 / 0.0

def word? (text : String) : Option Scalar :=
  if isNull text then some .null
  else if ["true", "True", "TRUE"].contains text then some (.bool true)
  else if ["false", "False", "FALSE"].contains text then some (.bool false)
  else if [".inf", ".Inf", ".INF", "+.inf", "+.Inf", "+.INF"].contains text then some (.float infinity)
  else if ["-.inf", "-.Inf", "-.INF"].contains text then some (.float (-infinity))
  else if [".nan", ".NaN", ".NAN"].contains text then some (.float (infinity - infinity))
  else none

/-- A whole number that fits into 64 bits: with sign where it carries one, and without otherwise. -/
def ranged (hasSign negative : Bool) (magnitude : Nat) : Option Int :=
  if negative then if magnitude ≤ Integer.half then some (-magnitude) else none
  else if magnitude < (if hasSign then Integer.half else 2 * Integer.half) then some magnitude else none

def hasSign : List Char → Bool
  | '+' :: _ | '-' :: _ => true
  | _ => false

def whole? (cs : List Char) : Option Int := do
  let (negative, rest) := Decimal.sign cs
  ranged (hasSign cs) negative (← Decimal.basedNatural? rest)

/-- A whole number whose sign follows its base prefix. -/
def signAfterBase? : List Char → Option Int
  | '0' :: mark :: rest => do
    let base ← if mark = 'b' then some 2 else if mark = 'o' then some 8 else none
    let (negative, digits) := Decimal.sign rest
    ranged (hasSign rest) negative (← Decimal.natural? base digits)
  | _ => none

def number? (cs : List Char) : Option Scalar :=
  let plain := cs.filter (· != '_')
  match whole? plain with
  | some value => some (.int value)
  | none =>
    match (Decimal.fraction? plain).bind (·.toFloat?) with
    | some value => some (.float value)
    | none => (signAfterBase? plain).map .int

def pointNumber? (cs : List Char) : Option Scalar :=
  if Decimal.underscoresSeparate cs then
    ((Decimal.fraction? (cs.filter (· != '_'))).bind (·.toFloat?)).map .float
  else none

def Scalar.ofPlain (text : String) : Scalar :=
  match word? text with
  | some meaning => meaning
  | none =>
    let found := match text.toList with
      | [] => none
      | c :: rest =>
        if c = '+' ∨ c = '-' ∨ Decimal.isDigit c then number? (c :: rest)
        else if c = '.' then pointNumber? (c :: rest)
        else none
    found.getD .text

end Lineside.Yaml
