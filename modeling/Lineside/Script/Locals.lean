import Lineside.Script.Basic

/-!
Local variables of one script invocation. They start at zero; reading or writing outside their range
has no effect and gives zero.
-/

namespace Lineside

structure Locals where
  size : Nat
  /-- The values that were set, by index; all others are zero. -/
  cells : List (Int64 × Int64) := []
  deriving DecidableEq, Repr

namespace Locals

/-- The most slots one invocation can hold: what an address space of 48 bits has room for. -/
def capacity : Int64 := 0x200000000000

def fresh (count : Int64) : Except Fault Locals :=
  if count < 0 ∨ capacity < count then .error .localCount else .ok { size := count.toInt.toNat }

def ofList (values : List Int64) : Locals where
  size := values.length
  cells := values.zipIdx.map fun (value, position) => (.ofNat position, value)

def InRange (locals : Locals) (index : Int64) : Prop := 0 ≤ index.toInt ∧ index.toInt < locals.size

instance (locals : Locals) (index : Int64) : Decidable (locals.InRange index) :=
  inferInstanceAs (Decidable (_ ∧ _))

def get (locals : Locals) (index : Int64) : Int64 :=
  if locals.InRange index then (locals.cells.lookup index).getD 0 else 0

def set (locals : Locals) (index value : Int64) : Locals :=
  if locals.InRange index then
    { locals with cells := (index, value) :: locals.cells.filter (·.1 != index) }
  else locals

def toList (locals : Locals) : List Int64 :=
  (List.range locals.size).map fun position => locals.get (.ofNat position)

end Locals

end Lineside
