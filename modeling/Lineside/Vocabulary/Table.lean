/-!
Tables of names. A table pairs names with codes; a name may be written with the table's lead in front,
and a code outside the table has one common label.
-/

namespace Lineside

structure UnknownName where
  name : String
  deriving DecidableEq, Repr

structure NameTable where
  /-- What may stand in front of a name, as in `SIGASP_STOP`. -/
  lead : String
  entries : List (String × Int64)
  otherwise : String

namespace NameTable

def bare (table : NameTable) (name : String) : String :=
  if table.lead ≠ "" ∧ table.lead.length < name.length ∧ table.lead.toList.isPrefixOf name.toList then
    String.ofList (name.toList.drop table.lead.length)
  else name

/-- The code of a name, with or without its lead. The name reported as unknown is the bare one. -/
def resolve (table : NameTable) (name : String) : Except UnknownName Int64 :=
  match table.entries.lookup (table.bare name) with
  | some code => .ok code
  | none => .error ⟨table.bare name⟩

def label (table : NameTable) (code : Int64) : String :=
  match table.entries.find? (·.2 == code) with
  | some (name, _) => name
  | none => table.otherwise

end NameTable

end Lineside
