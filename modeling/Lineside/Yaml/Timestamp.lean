import Lineside.Number.Decimal

/-!
Dates, and times of the day behind them. Other readers take a plain scalar for one, and a type can ask for one.
-/

namespace Lineside.Yaml

def shortNumber : List Char → Option (Nat × List Char)
  | a :: b :: rest =>
    if Decimal.isDigit a ∧ Decimal.isDigit b then some (Nat.ofDigitChars 10 [a, b] 0, rest)
    else if Decimal.isDigit a then some (Nat.ofDigitChars 10 [a] 0, b :: rest)
    else none
  | [a] => if Decimal.isDigit a then some (Nat.ofDigitChars 10 [a] 0, []) else none
  | [] => none

def numberBelow (bound : Nat) (cs : List Char) : Option (List Char) := do
  let (value, rest) ← shortNumber cs
  if value < bound then some rest else none

def expect (c : Char) : List Char → Option (List Char)
  | first :: rest => if first = c then some rest else none
  | [] => none

def daysIn (year month : Nat) : Nat :=
  if month = 2 then if year % 4 = 0 ∧ (year % 100 ≠ 0 ∨ year % 400 = 0) then 29 else 28
  else if [4, 6, 9, 11].contains month then 30
  else 31

def date (cs : List Char) : Option (List Char) := do
  let digits := cs.takeWhile Decimal.isDigit
  if digits.length ≠ 4 then none else
  let year := Nat.ofDigitChars 10 digits 0
  let (month, rest) ← shortNumber (← expect '-' (cs.drop 4))
  let (day, rest) ← shortNumber (← expect '-' rest)
  if 1 ≤ month ∧ month ≤ 12 ∧ 1 ≤ day ∧ day ≤ daysIn year month then some rest else none

def clockTime (cs : List Char) : Option (List Char) := do
  let rest ← numberBelow 60 (← expect ':' (← numberBelow 60 (← expect ':' (← numberBelow 24 cs))))
  match rest with
  | mark :: digit :: more =>
    if (mark = '.' ∨ mark = ',') ∧ Decimal.isDigit digit then
      some (more.dropWhile Decimal.isDigit)
    else some rest
  | _ => some rest

def isZone : List Char → Bool
  | ['Z'] => true
  | [mark, a, b, ':', c, d] =>
    (mark == '+' || mark == '-') && [a, b, c, d].all Decimal.isDigit &&
      decide (Nat.ofDigitChars 10 [a, b] 0 ≤ 24) && decide (Nat.ofDigitChars 10 [c, d] 0 ≤ 60)
  | _ => false

/-- A date, alone or with a time: after a space, or after `T` with a time zone. -/
def isTimestamp (text : String) : Bool :=
  match date text.toList with
  | none => false
  | some [] => true
  | some (mark :: rest) =>
    if mark = 'T' ∨ mark = 't' then (clockTime rest).any isZone
    else if mark = ' ' then (clockTime (rest.dropWhile (· == ' '))).any (·.isEmpty)
    else false

end Lineside.Yaml
