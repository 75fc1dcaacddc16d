/-!
The range of 64-bit integers.
-/

namespace Lineside.Integer

/-- How many integers are negative, and the least magnitude that no positive one has. -/
def half : Nat := 0x8000000000000000

def ofInt? (value : Int) : Option Int64 :=
  if -(half : Int) ≤ value ∧ value < half then some (Int64.ofInt value) else none

end Lineside.Integer
