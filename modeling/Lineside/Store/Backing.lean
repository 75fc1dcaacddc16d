import Lineside.Error

/-!
What a store keeps its scripts in: one table of bytes by key. A blob and its digest have keys that differ in
their first byte, which the bytes of the signal type follow. Writes come in batches that are applied as a
whole. It can be closed, and a single one of its operations can be made to fail.
-/

namespace Lineside

abbrev ByteTable := List (List UInt8 × ByteArray)

namespace ByteTable

def get (table : ByteTable) (key : List UInt8) : Option ByteArray := table.lookup key

def erase (table : ByteTable) (key : List UInt8) : ByteTable := table.filter (·.1 != key)

def set (table : ByteTable) (key : List UInt8) (bytes : ByteArray) : ByteTable :=
  (key, bytes) :: erase table key

end ByteTable

/-- Writes that are not made yet, in order. No bytes stand for the removal of a key. -/
abbrev Batch := List (List UInt8 × Option ByteArray)

namespace Batch

def apply (batch : Batch) (table : ByteTable) : ByteTable :=
  batch.foldl (fun table (key, bytes) =>
    match bytes with
    | some bytes => table.set key bytes
    | none => table.erase key) table

end Batch

inductive Piece where
  | blob
  | digest
  deriving DecidableEq, Repr

namespace Piece

def code : Piece → UInt8
  | .blob => 0
  | .digest => 1

def key (piece : Piece) (kind : Name) : List UInt8 := piece.code :: kind.bytes

/-- The signal type whose blob has a key. -/
def blobKind? : List UInt8 → Option Name
  | code :: rest => if code = Piece.blob.code then some ⟨rest⟩ else none
  | [] => none

end Piece

inductive BackingOperation where
  | fetchBlob
  | fetchDigest
  | startBatch
  | setBlob
  | setDigest
  | deleteBlob
  | deleteDigest
  | commit
  deriving DecidableEq, Repr

structure Backing where
  table : ByteTable := []
  closed : Bool := false
  failing : Option BackingOperation := none

namespace Backing

def available (backing : Backing) : Outcome Unit :=
  if backing.closed then Outcome.fail .storeClosed else .ok ()

def attempt (backing : Backing) (operation : BackingOperation) : Outcome Unit :=
  if backing.failing = some operation then Outcome.fail .storeFault else backing.available

def fetchBlob (backing : Backing) (kind : Name) : Outcome (Option ByteArray) := do
  backing.attempt .fetchBlob
  return backing.table.get (Piece.blob.key kind)

def fetchDigest (backing : Backing) (kind : Name) : Outcome (Option ByteArray) := do
  backing.attempt .fetchDigest
  return backing.table.get (Piece.digest.key kind)

def note (backing : Backing) (operation : BackingOperation) (activity : Activity) (key : List UInt8)
    (bytes : Option ByteArray) (batch : Batch) : Outcome Batch := do
  Outcome.during activity (backing.attempt operation)
  return batch ++ [(key, bytes)]

def noteScript (backing : Backing) (kind : Name) (blob digest : ByteArray) (batch : Batch) : Outcome Batch := do
  let batch ← backing.note .setBlob (.storingScript kind) (Piece.blob.key kind) (some blob) batch
  backing.note .setDigest (.storingDigest kind) (Piece.digest.key kind) (some digest) batch

def noteRemoval (backing : Backing) (kind : Name) (batch : Batch) : Outcome Batch := do
  let batch ← backing.note .deleteBlob (.deletingScript kind) (Piece.blob.key kind) none batch
  backing.note .deleteDigest (.deletingDigest kind) (Piece.digest.key kind) none batch

def commit (backing : Backing) (kind : Name) (batch : Batch) : Outcome Unit × Backing :=
  match Outcome.during (.committing kind) (backing.attempt .commit) with
  | .error error => (.error error, backing)
  | .ok () => (.ok (), { backing with table := batch.apply backing.table })

def write (backing : Backing) (kind : Name) (fill : Batch → Outcome Batch) : Outcome Unit × Backing :=
  match Outcome.during .startingBatch (backing.attempt .startBatch) with
  | .error error => (.error error, backing)
  | .ok () =>
    match fill [] with
    | .error error => (.error error, backing)
    | .ok batch => backing.commit kind batch

def kinds (backing : Backing) : Outcome (List Name) := do
  backing.available
  return (backing.table.filterMap (Piece.blobKind? ·.1)).mergeSort fun a b => decide (a ≤ b)

end Backing

end Lineside
