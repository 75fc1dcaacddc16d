import Lineside.Text.Utf8
import Lineside.Yaml.Text

/-!
The characters of YAML text: UTF-8, or UTF-16 where the text starts with its byte-order mark. Bytes that are none are read
as the null character, which must not stand in YAML text.
-/

namespace Lineside.Yaml

def ofUnits : List Nat → List Char
  | [] => []
  | high :: low :: rest =>
    if high / 1024 = 54 ∧ low / 1024 = 55 then
      Char.ofNat (65536 + 1024 * (high % 1024) + low % 1024) :: ofUnits rest
    else Char.ofNat high :: ofUnits (low :: rest)
  | [unit] => [Char.ofNat unit]

/-- The units of pairs of bytes. Half a unit is none. -/
def units (unit : UInt8 → UInt8 → Nat) : List UInt8 → List Nat
  | [] => []
  | [_] => [0]
  | first :: second :: rest => unit first second :: units unit rest

def textOf (bytes : ByteArray) : String :=
  match String.fromUTF8? bytes with
  | some text => text
  | none =>
    String.ofList <| match bytes.data.toList with
      | 0xFF :: 0xFE :: rest => byteOrderMark :: ofUnits (units (fun low high => low.toNat + 256 * high.toNat) rest)
      | 0xFE :: 0xFF :: rest => byteOrderMark :: ofUnits (units (fun high low => low.toNat + 256 * high.toNat) rest)
      | _ => (Text.decodeFrom bytes 0).map fun piece => piece.toOption.getD '\x00'

theorem textOf_toUTF8 (text : String) : textOf text.toUTF8 = text := by
  simp only [textOf, Text.fromUTF8?_toUTF8]

end Lineside.Yaml
