/-!
Bytes written with 64 characters, four for every three bytes. The last ones may be filled up with equals signs, and line
breaks do not count.
-/

namespace Lineside.Base64

def digit? (c : Char) : Option Nat :=
  if 'A' ≤ c ∧ c ≤ 'Z' then some (c.toNat - 'A'.toNat)
  else if 'a' ≤ c ∧ c ≤ 'z' then some (c.toNat - 'a'.toNat + 26)
  else if '0' ≤ c ∧ c ≤ '9' then some (c.toNat - '0'.toNat + 52)
  else if c = '+' then some 62
  else if c = '/' then some 63
  else none

/-- The bytes of characters without line breaks. Bits that fill up the last of them may be anything. -/
def bytes? : List Char → Option (List UInt8)
  | [] => some []
  | [a, b, '=', '='] => do
    let a ← digit? a
    let b ← digit? b
    return [(4 * a + b / 16).toUInt8]
  | [a, b, c, '='] => do
    let a ← digit? a
    let b ← digit? b
    let c ← digit? c
    return [(4 * a + b / 16).toUInt8, (16 * (b % 16) + c / 4).toUInt8]
  | a :: b :: c :: d :: rest => do
    let a ← digit? a
    let b ← digit? b
    let c ← digit? c
    let d ← digit? d
    return (4 * a + b / 16).toUInt8 :: (16 * (b % 16) + c / 4).toUInt8 :: (64 * (c % 4) + d).toUInt8 :: (← bytes? rest)
  | _ => none

def decode (text : String) : Option (List UInt8) :=
  bytes? (text.toList.filter fun c => c != '\n' && c != '\r')

end Lineside.Base64
