import Lineside.Number.Decimal
import Lineside.Text.Quoted

/-!
Durations such as `1h2m3.5s`, in nanoseconds. A duration is a sign and a row of amounts, each with its
unit; nothing but the sign may stand before the first amount, and only zero needs no unit.
-/

namespace Lineside

structure Duration where
  nanoseconds : Int64
  deriving DecidableEq, Repr

inductive DurationError where
  | invalid (text : String)
  | missingUnit (text : String)
  | unknownUnit (unit : String) (text : String)
  deriving DecidableEq, Repr

namespace DurationError

/-- Quotes in these messages keep printable ASCII and write every other byte in hexadecimal. -/
def quotedChar (c : Char) : List Char :=
  if c.toNat < 0x20 ∨ 0x80 ≤ c.toNat then
    (String.utf8EncodeChar c).flatMap fun byte => '\\' :: 'x' :: Text.hex 2 byte.toNat
  else if c = '"' ∨ c = '\\' then ['\\', c]
  else [c]

def quoted (text : String) : String :=
  String.ofList ('"' :: text.toList.flatMap quotedChar ++ ['"'])

def message : DurationError → String
  | .invalid text => "time: invalid duration " ++ quoted text
  | .missingUnit text => "time: missing unit in duration " ++ quoted text
  | .unknownUnit unit text => "time: unknown unit " ++ quoted unit ++ " in duration " ++ quoted text

end DurationError

namespace Duration

def second : Duration := ⟨1000000000⟩

def hour : Duration := ⟨3600000000000⟩

/-- The nanoseconds in a unit. The micro sign and the Greek letter mu are both accepted. -/
def unit? (name : String) : Option Nat :=
  [("ns", 1), ("us", 1000), ("µs", 1000), ("μs", 1000), ("ms", 1000000), ("s", 1000000000),
    ("m", 60000000000), ("h", 3600000000000)].lookup name

/-- Decimals after the point: their value without the point, and its power of ten. Digits that would
exceed 63 bits are dropped. -/
def decimals (cs : List Char) : Nat × Float :=
  let rec go (value : Nat) (scale : Float) : List Char → Nat × Float
    | [] => (value, scale)
    | c :: rest =>
      let next := 10 * value + (c.toNat - '0'.toNat)
      if (Integer.half - 1) / 10 < value ∨ Integer.half < next then (value, scale)
      else go next (10 * scale) rest
  go 0 1 cs

def decimalPart (value : Nat) (scale : Float) (unit : Nat) : Nat :=
  (value.toUInt64.toFloat * (unit.toUInt64.toFloat / scale)).toUInt64.toNat

structure Amount where
  whole : List Char
  decimals : List Char
  unit : String

def splitAmount (cs : List Char) : Amount × List Char :=
  let whole := cs.takeWhile Decimal.isDigit
  let rest := cs.dropWhile Decimal.isDigit
  let (decimals, rest) := match rest with
    | '.' :: rest => (rest.takeWhile Decimal.isDigit, rest.dropWhile Decimal.isDigit)
    | rest => ([], rest)
  let inUnit (c : Char) : Bool := c != '.' && !Decimal.isDigit c
  (⟨whole, decimals, String.ofList (rest.takeWhile inUnit)⟩, rest.dropWhile inUnit)

namespace Amount

def nanoseconds (text : String) (amount : Amount) : Except DurationError Nat :=
  let whole := Nat.ofDigitChars 10 amount.whole 0
  if amount.whole = [] ∧ amount.decimals = [] then .error (.invalid text)
  else if Integer.half < whole then .error (.invalid text)
  else if amount.unit = "" then .error (.missingUnit text)
  else match unit? amount.unit with
    | none => .error (.unknownUnit amount.unit text)
    | some unit =>
      let (value, scale) := Duration.decimals amount.decimals
      if Integer.half / unit < whole then .error (.invalid text)
      else
        let total := whole * unit + (if value = 0 then 0 else decimalPart value scale unit)
        if Integer.half < total then .error (.invalid text) else .ok total

end Amount

/-- Adds up the amounts of a duration, at most `count` of them. The sum is kept in
64 bits without sign. -/
def sum (text : String) : Nat → Nat → List Char → Except DurationError Nat
  | _, total, [] => .ok total
  | 0, _, _ :: _ => .error (.invalid text)
  | count + 1, total, c :: rest => do
    let (amount, rest) := splitAmount (c :: rest)
    let total := (total + (← amount.nanoseconds text)) % (2 * Integer.half)
    if Integer.half < total then .error (.invalid text) else sum text count total rest

def parse (text : String) : Except DurationError Duration :=
  let (negative, cs) := Decimal.sign text.toList
  if cs = ['0'] then .ok ⟨0⟩
  else if cs = [] then .error (.invalid text)
  else do
    let total ← sum text cs.length 0 cs
    if negative then return ⟨Int64.ofInt (-total)⟩
    else if Integer.half ≤ total then .error (.invalid text)
    else return ⟨Int64.ofNat total⟩

def seconds (duration : Duration) : Float :=
  (duration.nanoseconds / second.nanoseconds).toFloat +
    (duration.nanoseconds % second.nanoseconds).toFloat / 1e9

end Duration

end Lineside
