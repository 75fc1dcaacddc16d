import Lineside.Text.Name
import Lineside.Text.Quoted

/-!
JSON values and their compact text. Numbers keep the text they were written with, and members keep their
order and repetitions.
-/

namespace Lineside

inductive Json where
  | null
  | bool (value : Bool)
  | number (text : String)
  | string (text : String)
  | array (items : List Json)
  | object (members : List (String × Json))
  deriving Repr

namespace Json

def ofInt (value : Int64) : Json := .number value.toInt.repr

/-- One character inside a string. What could end a script element of a page, or a line of a program
text, is written as an escape. -/
def escapedChar (c : Char) : List Char :=
  match c with
  | '"' => ['\\', '"']
  | '\\' => ['\\', '\\']
  | '\n' => ['\\', 'n']
  | '\r' => ['\\', 'r']
  | '\t' => ['\\', 't']
  | '\x08' => ['\\', 'b']
  | '\x0c' => ['\\', 'f']
  | c =>
    if c.toNat < 0x20 ∨ c = '<' ∨ c = '>' ∨ c = '&' ∨ c.toNat = 0x2028 ∨ c.toNat = 0x2029 then
      '\\' :: 'u' :: Text.hex 4 c.toNat
    else [c]

def renderString (text : String) : List Char := '"' :: text.toList.flatMap escapedChar ++ ['"']

def escapedPiece : Except UInt8 Char → List Char
  | .ok c => escapedChar c
  | .error _ => ['\\', 'u', 'f', 'f', 'f', 'd']

def renderName (name : Name) : List Char := '"' :: name.pieces.flatMap escapedPiece ++ ['"']

mutual

def render : Json → List Char
  | .null => ['n', 'u', 'l', 'l']
  | .bool true => ['t', 'r', 'u', 'e']
  | .bool false => ['f', 'a', 'l', 's', 'e']
  | .number text => text.toList
  | .string text => renderString text
  | .array items => '[' :: renderItems items
  | .object members => '\x7b' :: renderMembers members

def renderItems : List Json → List Char
  | [] => [']']
  | [item] => render item ++ [']']
  | item :: rest => render item ++ ',' :: renderItems rest

def renderMembers : List (String × Json) → List Char
  | [] => ['\x7d']
  | [(key, value)] => renderString key ++ ':' :: render value ++ ['\x7d']
  | (key, value) :: rest => renderString key ++ ':' :: render value ++ ',' :: renderMembers rest

end

def text (value : Json) : String := String.ofList value.render

end Json

end Lineside
