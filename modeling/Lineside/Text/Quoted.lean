import Lineside.Text.Printable
import Lineside.Text.Utf8

/-!
Quoted text. Quotes and backslashes are escaped, and so is every character that is not printable.
-/

namespace Lineside.Text

def hex (width value : Nat) : List Char :=
  let digits := Nat.toDigits 16 value
  List.replicate (width - digits.length) '0' ++ digits

def quotedChar (quote c : Char) : List Char :=
  if c = quote ∨ c = '\\' then ['\\', c]
  else if isPrintable c then [c]
  else match c.toNat with
    | 0x07 => ['\\', 'a']
    | 0x08 => ['\\', 'b']
    | 0x0c => ['\\', 'f']
    | 0x0a => ['\\', 'n']
    | 0x0d => ['\\', 'r']
    | 0x09 => ['\\', 't']
    | 0x0b => ['\\', 'v']
    | code =>
      if code < 0x20 ∨ code = 0x7f then '\\' :: 'x' :: hex 2 code
      else if code < 0x10000 then '\\' :: 'u' :: hex 4 code
      else '\\' :: 'U' :: hex 8 code

def quoted (text : String) : String :=
  String.ofList ('"' :: text.toList.flatMap (quotedChar '"') ++ ['"'])

/-- Quotes bytes as a text. A byte that belongs to no character is escaped. -/
def quotedBytes (bytes : List UInt8) : String :=
  let piece : Except UInt8 Char → List Char
    | .ok c => quotedChar '"' c
    | .error byte => '\\' :: 'x' :: hex 2 byte.toNat
  String.ofList ('"' :: (decodeFrom (ByteArray.mk bytes.toArray) 0).flatMap piece ++ ['"'])

def quotedCharacter (c : Char) : String :=
  String.ofList ('\'' :: quotedChar '\'' c ++ ['\''])

end Lineside.Text
