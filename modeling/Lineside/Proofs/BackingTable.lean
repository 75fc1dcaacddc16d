import Lineside.Proofs.Outcomes
import Lineside.Store.Backing
import Mathlib.Data.String.Basic

/-! The table behind a store, read key by key. No two signal types share a key, not even where the name of
one begins with that of the other, and no blob has the key of a digest. -/

namespace Lineside

namespace ByteTable

variable {table : ByteTable} {key other : List UInt8} {bytes : ByteArray}

theorem get_erase_self : (table.erase key).get key = none := by
  simp only [get, erase, List.lookup_eq_none_iff, List.mem_filter]
  intro entry ⟨_, apart⟩
  exact bne_iff_ne.mpr (Ne.symm (bne_iff_ne.mp apart))

theorem get_erase_other (apart : other ≠ key) : (table.erase key).get other = table.get other := by
  induction table with
  | nil => rfl
  | cons entry table ih =>
    obtain ⟨first, value⟩ := entry
    by_cases same : first = key
    · subst same
      have skipped : (other == first) = false := by simpa using apart
      simpa [get, erase, List.lookup_cons, skipped] using ih
    · simp only [get, erase] at ih
      simp [get, erase, same, List.lookup_cons, ih]

theorem get_set_self : (table.set key bytes).get key = some bytes := by
  simp [get, set]

theorem get_set_other (apart : other ≠ key) : (table.set key bytes).get other = table.get other := by
  have skipped : (other == key) = false := by simpa using apart
  calc (table.set key bytes).get other = (table.erase key).get other := by
        simp [get, set, List.lookup_cons, skipped]
    _ = table.get other := get_erase_other apart

/-- The keys that have bytes. -/
def keys (table : ByteTable) : List (List UInt8) := table.map (·.1)

theorem mem_keys : key ∈ table.keys ↔ (table.get key).isSome := by
  simp [keys, get, List.lookup_isSome_iff]

theorem nodup_erase (distinct : table.keys.Nodup) : (table.erase key).keys.Nodup :=
  distinct.sublist (List.filter_sublist.map _)

theorem nodup_set (distinct : table.keys.Nodup) : (table.set key bytes).keys.Nodup := by
  have absent : key ∉ (table.erase key).keys := by
    rw [mem_keys, get_erase_self]
    simp
  exact List.nodup_cons.mpr ⟨absent, nodup_erase distinct⟩

end ByteTable

namespace Piece

theorem key_injective {piece other : Piece} {kind name : Name} (same : piece.key kind = other.key name) :
    piece = other ∧ kind = name := by
  obtain ⟨code, bytes⟩ := List.cons.inj same
  refine ⟨?_, congrArg Name.mk bytes⟩
  cases piece <;> cases other <;> first | rfl | cases code

theorem blobKind?_blob (kind : Name) : blobKind? (Piece.blob.key kind) = some kind := by
  simp [blobKind?, key]

theorem blobKind?_digest (kind : Name) : blobKind? (Piece.digest.key kind) = none := by
  simp [blobKind?, key, code]

theorem key_ne_of_kind {piece other : Piece} {kind name : Name} (apart : kind ≠ name) :
    piece.key kind ≠ other.key name :=
  fun same => apart (key_injective same).2

theorem blob_ne_digest (kind name : Name) : Piece.blob.key kind ≠ Piece.digest.key name := by
  intro same
  cases (key_injective same).1

section

variable {table : ByteTable} {kind : Name}

theorem get_written_blob (blob digest : ByteArray) :
    ((table.set (Piece.blob.key kind) blob).set (Piece.digest.key kind) digest).get (Piece.blob.key kind) =
      some blob := by
  rw [ByteTable.get_set_other (blob_ne_digest kind kind), ByteTable.get_set_self]

theorem get_written_other (piece : Piece) {name : Name} (apart : name ≠ kind) (blob digest : ByteArray) :
    ((table.set (Piece.blob.key kind) blob).set (Piece.digest.key kind) digest).get (piece.key name) =
      table.get (piece.key name) := by
  rw [ByteTable.get_set_other (key_ne_of_kind apart), ByteTable.get_set_other (key_ne_of_kind apart)]

theorem get_removed (piece : Piece) :
    ((table.erase (Piece.blob.key kind)).erase (Piece.digest.key kind)).get (piece.key kind) = none := by
  cases piece with
  | blob => rw [ByteTable.get_erase_other (blob_ne_digest kind kind), ByteTable.get_erase_self]
  | digest => rw [ByteTable.get_erase_self]

theorem get_removed_other (piece : Piece) {name : Name} (apart : name ≠ kind) :
    ((table.erase (Piece.blob.key kind)).erase (Piece.digest.key kind)).get (piece.key name) =
      table.get (piece.key name) := by
  rw [ByteTable.get_erase_other (key_ne_of_kind apart), ByteTable.get_erase_other (key_ne_of_kind apart)]

end

theorem blobKind?_eq_some {key : List UInt8} {kind : Name} (shaped : ∃ piece name, key = Piece.key piece name) :
    blobKind? key = some kind ↔ key = Piece.blob.key kind := by
  obtain ⟨piece, name, rfl⟩ := shaped
  constructor
  · intro found
    cases piece with
    | blob =>
      rw [blobKind?_blob] at found
      cases found
      rfl
    | digest =>
      rw [blobKind?_digest] at found
      cases found
  · intro same
    rw [same, blobKind?_blob]

end Piece

namespace Backing

/-- Every key of the table is there once, and belongs to a piece of some script. -/
structure Orderly (table : ByteTable) : Prop where
  distinct : table.keys.Nodup
  shaped : ∀ key ∈ table.keys, ∃ piece kind, key = Piece.key piece kind

theorem Orderly.erase {table : ByteTable} (orderly : Orderly table) (key : List UInt8) : Orderly (table.erase key) where
  distinct := ByteTable.nodup_erase orderly.distinct
  shaped := fun other member => orderly.shaped other ((List.filter_sublist.map _).subset member)

theorem Orderly.set {table : ByteTable} (orderly : Orderly table) (piece : Piece) (kind : Name) (bytes : ByteArray) :
    Orderly (table.set (piece.key kind) bytes) where
  distinct := ByteTable.nodup_set orderly.distinct
  shaped := by
    intro other member
    rcases List.mem_cons.mp member with rfl | member
    · exact ⟨piece, kind, rfl⟩
    · exact (orderly.erase _).shaped other member

/-- The signal types are listed in strictly ascending order, and are those that have a blob. -/
theorem kinds_eq_ok {backing : Backing} (orderly : Orderly backing.table) (available : backing.available = .ok ()) :
    ∃ names, backing.kinds = .ok names ∧ names.Pairwise (· < ·) ∧
      ∀ name, name ∈ names ↔ (backing.table.get (Piece.blob.key name)).isSome := by
  have listed : backing.table.filterMap (Piece.blobKind? ·.1) = backing.table.keys.filterMap Piece.blobKind? := by
    rw [ByteTable.keys, List.filterMap_map]
    rfl
  have distinct : (backing.table.keys.filterMap Piece.blobKind?).Nodup := by
    refine List.pairwise_filterMap.mpr (orderly.distinct.imp_of_mem fun {key other} one two apart => ?_)
    intro name named name' named' same
    subst same
    -- Only the key of its blob gives a name.
    rw [Piece.blobKind?_eq_some (orderly.shaped _ one)] at named
    rw [Piece.blobKind?_eq_some (orderly.shaped _ two)] at named'
    exact apart (named.trans named'.symm)
  let names := (backing.table.keys.filterMap Piece.blobKind?).mergeSort fun a b => decide (a ≤ b)
  have same : names.Perm (backing.table.keys.filterMap Piece.blobKind?) := List.mergeSort_perm _ _
  have sorted : names.Pairwise fun a b => decide (a ≤ b) := by
    refine List.pairwise_mergeSort (fun a b c one two => ?_) (fun a b => ?_) _
    · simp only [decide_eq_true_eq] at one two ⊢
      exact List.le_trans one two
    · simp only [Bool.or_eq_true, decide_eq_true_eq]
      exact List.le_total a.bytes b.bytes
  refine ⟨names, by simp only [kinds, available, ok_bind, pure_eq_ok, listed]; rfl, ?_, fun name => ?_⟩
  · refine (sorted.and (same.nodup_iff.mpr distinct)).imp fun {a b} both => ?_
    have least : a.bytes ≤ b.bytes := of_decide_eq_true both.1
    by_contra above
    exact both.2 (congrArg Name.mk (List.le_antisymm least (List.not_lt.mp above)))
  · rw [same.mem_iff, List.mem_filterMap, ← ByteTable.mem_keys]
    constructor
    · rintro ⟨key, member, named⟩
      rw [Piece.blobKind?_eq_some (orderly.shaped key member)] at named
      exact named ▸ member
    · intro member
      exact ⟨_, member, Piece.blobKind?_blob name⟩

end Backing

end Lineside
