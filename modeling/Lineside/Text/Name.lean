import Lineside.Text.Utf8

/-!
Names as the program keeps them: sequences of bytes, which need not be a text. They are compared byte by byte, and
shown as the text that can be made of them.
-/

namespace Lineside

structure Name where
  bytes : List UInt8
  deriving DecidableEq, Repr

namespace Name

def ofText (text : String) : Name := ⟨text.toUTF8.data.toList⟩

instance : Coe String Name := ⟨ofText⟩

def pieces (name : Name) : List (Except UInt8 Char) := Text.pieces ⟨⟨name.bytes⟩⟩

def text (name : Name) : String := Text.ofBytes ⟨⟨name.bytes⟩⟩

/-- The name that a name becomes once it has been a text. -/
def repaired (name : Name) : Name := ofText name.text

instance : LT Name := ⟨fun a b => a.bytes < b.bytes⟩

instance : LE Name := ⟨fun a b => a.bytes ≤ b.bytes⟩

instance (a b : Name) : Decidable (a ≤ b) := inferInstanceAs (Decidable (a.bytes ≤ b.bytes))

def Legible (name : Name) : Prop := ∃ text : String, name = text

@[simp] theorem text_ofText (text : String) : (ofText text).text = text := Text.ofBytes_toUTF8 text

@[simp] theorem ofText_inj {first second : String} : ofText first = ofText second ↔ first = second := by
  refine ⟨fun same => ?_, congrArg ofText⟩
  rw [← text_ofText first, same, text_ofText]

theorem Legible.repaired {name : Name} (legible : name.Legible) : name.repaired = name := by
  obtain ⟨text, rfl⟩ := legible
  rw [Name.repaired, text_ofText]

@[simp] theorem repaired_eq_empty {name : Name} : name.repaired = "" ↔ name = "" := by
  constructor
  case mpr =>
    rintro rfl
    exact Legible.repaired ⟨"", rfl⟩
  intro empty
  have none : name.pieces = [] := by
    have shown : name.text.toList = [] := by rw [ofText_inj.mp empty, String.toList_empty]
    rwa [text, Text.toList_ofBytes, List.map_eq_nil_iff] at shown
  exact congrArg mk (Text.pieces_eq_nil none)

end Name

end Lineside
