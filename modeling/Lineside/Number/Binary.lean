import Lineside.Number.Integer

/-!
Binary floating point numbers, read off their bits: the whole part as a 64-bit integer, and the nearest
whole number as text.
-/

namespace Lineside

inductive Binary where
  | nan
  | infinite (negative : Bool)
  /-- The magnitude is the mantissa times that power of two. -/
  | finite (negative : Bool) (mantissa : Nat) (exponent : Int)
  deriving DecidableEq, Repr

namespace Binary

def ofBits (scaleBits fractionBits bits : Nat) : Binary :=
  let scales : Nat := 1 <<< scaleBits
  let fractions : Nat := 1 <<< fractionBits
  let negative := bits / (scales * fractions) % 2 == 1
  let scale := bits / fractions % scales
  let fraction := bits % fractions
  let lowest : Int := 2 - (scales / 2 : Nat) - fractionBits
  if scale = scales - 1 then
    if fraction = 0 then .infinite negative else .nan
  else if scale = 0 then .finite negative fraction lowest
  else .finite negative (fractions + fraction) (lowest + scale - 1)

def ofFloat32 (x : Float32) : Binary := ofBits 8 23 x.toBits.toNat

def ofFloat (x : Float) : Binary := ofBits 11 52 x.toBits.toNat

def wholePart (mantissa : Nat) (exponent : Int) : Nat :=
  if 0 ≤ exponent then mantissa <<< exponent.toNat else mantissa >>> (-exponent).toNat

/-- The whole number nearest to a magnitude; a half goes to the even neighbour. -/
def nearest (mantissa : Nat) (exponent : Int) : Nat :=
  if 0 ≤ exponent then mantissa <<< exponent.toNat
  else
    let unit : Nat := 1 <<< (-exponent).toNat
    let below := mantissa / unit
    let twice := 2 * (mantissa % unit)
    if twice < unit then below
    else if unit < twice then below + 1
    else if below % 2 = 0 then below else below + 1

/-- The whole part, toward zero. What is not a number or does not fit gives the least integer. -/
def toInt64 : Binary → Int64
  | .nan => Int64.minValue
  | .infinite _ => Int64.minValue
  | .finite negative mantissa exponent =>
    let whole : Int := wholePart mantissa exponent
    (Integer.ofInt? (if negative then -whole else whole)).getD Int64.minValue

def text : Binary → String
  | .nan => "NaN"
  | .infinite negative => if negative then "-Inf" else "+Inf"
  | .finite negative mantissa exponent =>
    (if negative then "-" else "") ++ (nearest mantissa exponent).repr

end Binary

end Lineside
