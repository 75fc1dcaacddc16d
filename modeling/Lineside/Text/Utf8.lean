/-!
Bytes as text. Bytes that are no UTF-8 are replaced one by one, so that every sequence of bytes can be
read.
-/

namespace Lineside.Text

/-- Stands for a byte that belongs to no character. -/
def replacement : Char := Char.ofNat 0xFFFD

/-- The characters from a position on, and the bytes that belong to none. -/
def decodeFrom (bytes : ByteArray) (position : Nat) : List (Except UInt8 Char) :=
  if inside : position < bytes.size then
    match bytes.utf8DecodeChar? position with
    | some c => .ok c :: decodeFrom bytes (position + c.utf8Size)
    | none => .error (bytes[position]) :: decodeFrom bytes (position + 1)
  else []
termination_by bytes.size - position
decreasing_by
  · have := c.utf8Size_pos
    omega
  · omega

def pieces (bytes : ByteArray) : List (Except UInt8 Char) :=
  match String.fromUTF8? bytes with
  | some text => text.toList.map .ok
  | none => decodeFrom bytes 0

def ofBytes (bytes : ByteArray) : String :=
  match String.fromUTF8? bytes with
  | some text => text
  | none => String.ofList ((decodeFrom bytes 0).map fun piece => piece.toOption.getD replacement)

theorem fromUTF8?_toUTF8 (text : String) : String.fromUTF8? text.toUTF8 = some text := by
  have valid : text.toByteArray.IsValidUTF8 := text.isValidUTF8
  simp [String.fromUTF8?, String.toUTF8_eq_toByteArray, valid, String.fromUTF8]

theorem ofBytes_toUTF8 (text : String) : ofBytes text.toUTF8 = text := by
  simp only [ofBytes, fromUTF8?_toUTF8]

theorem pieces_toUTF8 (text : String) : pieces text.toUTF8 = text.toList.map .ok := by
  simp only [pieces, fromUTF8?_toUTF8]

theorem toList_ofBytes (bytes : ByteArray) :
    (ofBytes bytes).toList = (pieces bytes).map fun piece => piece.toOption.getD replacement := by
  unfold ofBytes pieces
  cases String.fromUTF8? bytes with
  | some text =>
    rw [List.map_map]
    exact (List.map_id _).symm
  | none => exact String.toList_ofList

theorem pieces_eq_nil {bytes : List UInt8} (none : pieces ⟨⟨bytes⟩⟩ = []) : bytes = [] := by
  unfold pieces at none
  split at none
  next text found =>
    have empty : text = "" := String.toList_eq_nil_iff.mp (List.map_eq_nil_iff.mp none)
    rw [String.fromUTF8?] at found
    split at found
    · have same := congrArg (·.toByteArray.data.toList) ((Option.some.inj found).trans empty)
      exact same
    · cases found
  next =>
    rw [decodeFrom] at none
    split at none
    · split at none <;> cases none
    · cases bytes with
      | nil => rfl
      | cons byte bytes => exact absurd (Nat.succ_pos bytes.length) ‹_›

end Lineside.Text
