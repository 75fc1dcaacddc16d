import Lineside.Text.Quoted

/-!
The digest of a stored script: BLAKE2b with 32 bytes of output and without key. A message is cut into
blocks of 128 bytes, each of which is mixed into a state of eight words by twelve rounds.
-/

namespace Lineside.Digest

/-- The words a state starts from, and the lower half of every block's working words. -/
def start : Vector UInt64 8 :=
  #v[0x6a09e667f3bcc908, 0xbb67ae8584caa73b, 0x3c6ef372fe94f82b, 0xa54ff53a5f1d36f1,
    0x510e527fade682d1, 0x9b05688c2b3e6c1f, 0x1f83d9abfb41bd6b, 0x5be0cd19137e2179]

def schedule : List (Vector (Fin 16) 16) :=
  let rows : List (Vector (Fin 16) 16) := [
    #v[0, 1, 2, 3, 4, 5, 6, 7, 8, 9, 10, 11, 12, 13, 14, 15],
    #v[14, 10, 4, 8, 9, 15, 13, 6, 1, 12, 0, 2, 11, 7, 5, 3],
    #v[11, 8, 12, 0, 5, 2, 15, 13, 10, 14, 3, 6, 7, 1, 9, 4],
    #v[7, 9, 3, 1, 13, 12, 11, 14, 2, 6, 5, 10, 4, 0, 15, 8],
    #v[9, 0, 5, 7, 2, 4, 10, 15, 14, 1, 11, 12, 6, 8, 3, 13],
    #v[2, 12, 6, 10, 0, 11, 8, 3, 4, 13, 7, 5, 15, 14, 1, 9],
    #v[12, 5, 1, 15, 14, 13, 4, 10, 0, 7, 6, 3, 9, 2, 8, 11],
    #v[13, 11, 7, 14, 12, 1, 3, 9, 5, 0, 15, 4, 8, 6, 2, 10],
    #v[6, 15, 14, 9, 11, 3, 0, 8, 12, 2, 13, 7, 1, 4, 10, 5],
    #v[10, 2, 8, 4, 7, 6, 1, 5, 15, 11, 9, 14, 3, 12, 13, 0]]
  rows ++ rows.take 2

def turn (word : UInt64) (bits : UInt64) : UInt64 := (word >>> bits) ||| (word <<< (64 - bits))

def mix (v : Vector UInt64 16) (a b c d : Fin 16) (x y : UInt64) : Vector UInt64 16 :=
  let v := v.set a (v[a] + v[b] + x) a.isLt
  let v := v.set d (turn (v[d] ^^^ v[a]) 32) d.isLt
  let v := v.set c (v[c] + v[d]) c.isLt
  let v := v.set b (turn (v[b] ^^^ v[c]) 24) b.isLt
  let v := v.set a (v[a] + v[b] + y) a.isLt
  let v := v.set d (turn (v[d] ^^^ v[a]) 16) d.isLt
  let v := v.set c (v[c] + v[d]) c.isLt
  v.set b (turn (v[b] ^^^ v[c]) 63) b.isLt

def round (block : Vector UInt64 16) (v : Vector UInt64 16) (order : Vector (Fin 16) 16) : Vector UInt64 16 :=
  let word (i : Fin 16) : UInt64 := block[order[i]]
  let v := mix v 0 4 8 12 (word 0) (word 1)
  let v := mix v 1 5 9 13 (word 2) (word 3)
  let v := mix v 2 6 10 14 (word 4) (word 5)
  let v := mix v 3 7 11 15 (word 6) (word 7)
  let v := mix v 0 5 10 15 (word 8) (word 9)
  let v := mix v 1 6 11 12 (word 10) (word 11)
  let v := mix v 2 7 8 13 (word 12) (word 13)
  mix v 3 4 9 14 (word 14) (word 15)

/-- The word of eight bytes from a position on, lowest byte first; beyond the end there are zeros. -/
def wordAt (bytes : ByteArray) (position : Nat) : UInt64 :=
  (List.range 8).foldr (fun i word => word <<< 8 ||| ((bytes[position + i]?).getD 0).toUInt64) 0

def blockAt (bytes : ByteArray) (position : Nat) : Vector UInt64 16 :=
  Vector.ofFn fun i : Fin 16 => wordAt bytes (position + 8 * i.val)

/-- Mixes a block into a state, given how many bytes were read up to its end and whether it is the last. -/
def compress (state : Vector UInt64 8) (block : Vector UInt64 16) (count : Nat) (last : Bool) :
    Vector UInt64 8 :=
  let v : Vector UInt64 16 := state ++ start
  let v := v.set 12 (v[12] ^^^ count.toUInt64)
  let v := if last then v.set 14 (v[14] ^^^ 0xffffffffffffffff) else v
  let v := schedule.foldl (round block) v
  Vector.ofFn fun i : Fin 8 => state[i] ^^^ v[i.val] ^^^ v[i.val + 8]

def wordBytes (word : UInt64) : List UInt8 :=
  (List.range 8).map fun i => (word >>> (8 * i).toUInt64).toUInt8

def ofBytes (bytes : ByteArray) : ByteArray :=
  let blocks := max 1 ((bytes.size + 127) / 128)
  let first := start.set 0 (start[0] ^^^ 0x01010020)
  let state := (List.range blocks).foldl (fun state i =>
    compress state (blockAt bytes (128 * i)) (min (128 * (i + 1)) bytes.size) (i + 1 == blocks)) first
  ⟨((state.toList.take 4).flatMap wordBytes).toArray⟩

def fits (bytes digest : ByteArray) : Bool := digest.data == (ofBytes bytes).data

def hex (bytes : ByteArray) : String :=
  String.ofList (bytes.toList.flatMap fun byte => Text.hex 2 byte.toNat)

end Lineside.Digest
