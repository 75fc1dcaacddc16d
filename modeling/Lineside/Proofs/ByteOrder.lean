import Mathlib.Data.String.Basic
import Mathlib.Order.Monotone.Basic
import Mathlib.Tactic.SplitIfs

/-! Texts are ordered by their characters, and that is the order of their bytes. A character is written as a first
byte, whose mark tells how many others follow, and those bring six bits each. -/

namespace Lineside.Text

/-- The bytes that follow the first one of a character, the highest bits first. -/
def continuation : Nat → Nat → List UInt8
  | 0, _ => []
  | count + 1, code => continuation count (code / 64) ++ [.ofNat (code % 64 + 128)]

/-- How many bytes follow the first one. -/
def continuationCount (code : Nat) : Nat :=
  if code < 0x80 then 0 else if code < 0x800 then 1 else if code < 0x10000 then 2 else 3

/-- The least first byte in front of a number of others. -/
def leadMark : Nat → Nat
  | 0 => 0
  | 1 => 0xc0
  | 2 => 0xe0
  | 3 => 0xf0
  | _ => 0xf8

def firstByte (code : Nat) : Nat := code / 64 ^ continuationCount code + leadMark (continuationCount code)

theorem toNat_lt (c : Char) : c.toNat < 0x110000 := by
  have valid := c.valid
  simp only [UInt32.isValidChar, Nat.isValidChar] at valid
  change c.val.toNat < _
  omega

theorem utf8EncodeChar_eq (c : Char) :
    String.utf8EncodeChar c = .ofNat (firstByte c.toNat) :: continuation (continuationCount c.toNat) c.toNat := by
  have bound := toNat_lt c
  have unsigned : c.val.toNat = c.toNat := rfl
  have two : c.toNat < 0x800 → c.toNat / 64 % 0x20 = c.toNat / 64 := by omega
  have three : c.toNat < 0x10000 → c.toNat / 4096 % 0x10 = c.toNat / 4096 := by omega
  have four : c.toNat / 262144 % 0x08 = c.toNat / 262144 := by omega
  simp only [String.utf8EncodeChar, unsigned, firstByte, continuationCount, ← Nat.lt_succ_iff]
  split_ifs with one small middle
  · rw [pow_zero, Nat.div_one]
    rfl
  · rw [two small]
    rfl
  · rw [three middle]
    simp [continuation, leadMark]
  · rw [four]
    simp [continuation, leadMark, Nat.div_div_eq_div_mul]

theorem leadMark_mono : Monotone leadMark := by
  apply monotone_nat_of_le_succ
  intro count
  match count with
  | 0 | 1 | 2 | 3 => decide
  | _ + 4 => rfl

theorem continuationCount_mono : Monotone continuationCount := by
  intro a b order
  simp only [continuationCount]
  split_ifs <;> omega

theorem firstByte_range {code : Nat} (bound : code < 0x110000) :
    leadMark (continuationCount code) ≤ firstByte code ∧ firstByte code < leadMark (continuationCount code + 1) := by
  simp only [firstByte, continuationCount]
  split_ifs <;> simp only [leadMark] <;> omega

theorem firstByte_lt {code : Nat} (bound : code < 0x110000) : firstByte code < 256 := by
  have count : continuationCount code + 1 ≤ 4 := by
    simp only [continuationCount]
    split_ifs <;> omega
  calc firstByte code
    _ < leadMark (continuationCount code + 1) := (firstByte_range bound).2
    _ ≤ leadMark 4 := leadMark_mono count
    _ < 256 := by decide

theorem continuation_lt {count a b : Nat} (less : a < b) (same : a / 64 ^ count = b / 64 ^ count)
    (rest others : List UInt8) : continuation count a ++ rest < continuation count b ++ others := by
  induction count generalizing a b rest others with
  | zero =>
    rw [pow_zero, Nat.div_one, Nat.div_one] at same
    omega
  | succ count ih =>
    simp only [continuation, List.append_assoc]
    rcases Nat.lt_or_ge (a / 64) (b / 64) with higher | equal
    · apply ih higher
      simpa only [Nat.div_div_eq_div_mul, pow_succ'] using same
    · have high : a / 64 = b / 64 := by omega
      rw [high]
      apply List.append_left_lt
      simp only [List.cons_append, List.cons_lt_cons_iff, UInt8.lt_iff_toNat_lt, UInt8.toNat_ofNat']
      omega

/-- A smaller character has a smaller first byte, or else the same one and a smaller continuation. -/
theorem firstByte_lt_or {a b : Nat} (less : a < b) (bound : b < 0x110000) :
    firstByte a < firstByte b ∨ firstByte a = firstByte b ∧ continuationCount a = continuationCount b ∧
      a / 64 ^ continuationCount b = b / 64 ^ continuationCount b := by
  rcases (continuationCount_mono less.le).eq_or_lt with same | fewer
  · have order : a / 64 ^ continuationCount b ≤ b / 64 ^ continuationCount b := Nat.div_le_div_right less.le
    rw [firstByte, firstByte, same]
    rcases order.eq_or_lt with equal | lower
    · exact .inr ⟨by rw [equal], rfl, equal⟩
    · exact .inl (Nat.add_lt_add_right lower _)
  · left
    calc firstByte a
      _ < leadMark (continuationCount a + 1) := (firstByte_range (less.trans bound)).2
      _ ≤ leadMark (continuationCount b) := leadMark_mono fewer
      _ ≤ firstByte b := (firstByte_range bound).1

theorem utf8EncodeChar_lt {c d : Char} (less : c < d) (rest others : List UInt8) :
    String.utf8EncodeChar c ++ rest < String.utf8EncodeChar d ++ others := by
  rw [utf8EncodeChar_eq, utf8EncodeChar_eq, List.cons_append, List.cons_append, List.cons_lt_cons_iff]
  have order : c.toNat < d.toNat := less
  rcases firstByte_lt_or order (toNat_lt d) with lower | ⟨equal, count, high⟩
  · left
    rwa [UInt8.lt_iff_toNat_lt, UInt8.toNat_ofNat', UInt8.toNat_ofNat', Nat.mod_eq_of_lt (firstByte_lt (toNat_lt c)),
      Nat.mod_eq_of_lt (firstByte_lt (toNat_lt d))]
  · right
    rw [equal, count]
    exact ⟨rfl, continuation_lt order high rest others⟩

theorem flatMap_utf8EncodeChar_lt {cs ds : List Char} (less : cs < ds) :
    cs.flatMap String.utf8EncodeChar < ds.flatMap String.utf8EncodeChar := by
  induction less with
  | nil =>
    rw [List.flatMap_cons, utf8EncodeChar_eq]
    exact .nil
  | rel less => exact utf8EncodeChar_lt less _ _
  | cons _ ih => exact List.append_left_lt ih

/-- The bytes of a text. -/
def bytes (text : String) : List UInt8 := text.toUTF8.data.toList

theorem bytes_eq (text : String) : bytes text = text.toList.flatMap String.utf8EncodeChar := by
  rw [bytes, String.toUTF8, ← String.utf8Encode_toList, List.utf8Encode, List.data_toByteArray]

theorem bytes_lt {a b : String} (less : a < b) : bytes a < bytes b := by
  rw [bytes_eq, bytes_eq]
  exact flatMap_utf8EncodeChar_lt less

theorem bytes_le {a b : String} : bytes a ≤ bytes b ↔ a ≤ b := by
  constructor
  · intro order less
    exact order (bytes_lt less)
  · intro order less
    by_cases lower : a < b
    · exact List.lt_asymm less (bytes_lt lower)
    · obtain rfl := String.le_antisymm order lower
      exact List.lt_irrefl _ less

end Lineside.Text
