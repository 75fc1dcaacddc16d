import Lineside.Document.OfJson
import Lineside.Document.Text
import Lineside.Document.Writing
import Lineside.Store.Backing
import Lineside.Store.Cache
import Lineside.Store.Digest
import Lineside.Text.Utf8

/-!
The script store. A script is validated before it is stored, and a stored script is handed out only
where its digest fits. What a write or removal does to the tables and the cache happens as a whole or not
at all.
-/

namespace Lineside

inductive Notice where
  | stored (kind : Name) (size : Nat)
  | deleted (kind : Name)
  | unusable (kind : Name) (error : Error)
  | loaded (count : Nat) (directory : String)
  | watching (directory : String)
  | reloaded (kind : Name) (path : String)
  | unreadable (error : Error)
  | refused (path : String) (error : Error)
  deriving DecidableEq, Repr

namespace Notice

def line? : Notice → Option LogLine
  | .stored kind size => some ⟨.debug, "stored script " ++ kind.text ++ " (" ++ size.repr ++ " bytes)"⟩
  | .deleted _ => none
  | .unusable kind error =>
    some ⟨.warn, "script of signal type " ++ kind.text ++ " unusable, applying fallback: " ++ error.message⟩
  | .loaded count directory => some ⟨.info, "loaded " ++ count.repr ++ " scripts from " ++ directory⟩
  | .watching directory => some ⟨.info, "watching " ++ directory ++ " for script changes"⟩
  | .reloaded kind path => some ⟨.info, "reloaded script " ++ kind.text ++ " from " ++ path⟩
  | .unreadable error => some ⟨.warn, "ignoring changed script file: " ++ error.message⟩
  | .refused path error => some ⟨.warn, "ignoring changed script file " ++ path ++ ": " ++ error.message⟩

def lines (notices : List Notice) : List LogLine := notices.filterMap line?

end Notice

namespace Script

def encode (script : Script) : Except Fault ByteArray := do
  return (← Document.Script.ofScript (some script)).text.toUTF8

def decode (kind : Name) (blob : ByteArray) : Outcome Script := do
  let document ← Outcome.during (.decodingScript kind)
    (Outcome.require .malformedBlob (Document.Script.ofStored (Text.ofBytes blob)))
  ofDocument document

def checked (script : Option Script) : Outcome Script := do
  match ← Outcome.because .incomplete (validate script), script with
  | some reason, _ => Outcome.fail (.invalidScript reason)
  | none, some script => return script
  | none, none => Outcome.fail (.invalidScript .missing)

def sealed (script : Option Script) : Outcome (Script × ByteArray) := do
  let script ← checked script
  return (script, ← Outcome.because .incomplete script.encode)

end Script

structure Store where
  backing : Backing := {}
  cache : Cache := Cache.new 0 ⟨0⟩

namespace Store

def opened (backing : Backing) (cache : Cache) : Outcome Store := do
  Outcome.during .openingStore backing.available
  return { backing, cache }

/-- Makes writes about a signal type in one batch, after which nothing is cached for it. -/
def write (store : Store) (kind : Name) (fill : Batch → Outcome Batch) : Outcome Unit × Store :=
  match store.backing.write kind fill with
  | (.error error, backing) => (.error error, { store with backing })
  | (.ok (), backing) => (.ok (), { backing, cache := store.cache.invalidate kind })

def put (store : Store) (script : Option Script) : Outcome Notice × Store :=
  match Script.sealed script with
  | .error error => (.error error, store)
  | .ok (script, blob) =>
    match store.write script.name (store.backing.noteScript script.name blob (Digest.ofBytes blob)) with
    | (.error error, store) => (.error error, store)
    | (.ok (), store) => (.ok (.stored script.name blob.size), store)

def fetch (store : Store) (kind : Name) : Outcome Script := do
  let found ← Outcome.during (.fetchingScript kind) (store.backing.fetchBlob kind)
  let blob ← Outcome.require (.scriptNotFound kind) found
  let digest ← Outcome.during (.fetchingDigest kind) (store.backing.fetchDigest kind)
  if digest.any (Digest.fits blob) then Script.decode kind blob else Outcome.fail (.digestMismatch kind)

/-- The script of a signal type. One that had to be fetched is cached. -/
def get (store : Store) (moment : Moment) (kind : Name) : Outcome Script × Store :=
  match store.cache.get moment.asked kind with
  | some script => (.ok script, store)
  | none =>
    match store.fetch kind with
    | .ok script => (.ok script, { store with cache := store.cache.put moment kind script })
    | .error error => (.error error, store)

/-- The script of a signal type, if it can be used. That there is none needs no notice. -/
def lookup (store : Store) (moment : Moment) (kind : Name) : Option Script × Store × List Notice :=
  match store.get moment kind with
  | (.ok script, store) => (some script, store, [])
  | (.error error, store) =>
    match error.cause with
    | .scriptNotFound _ => (none, store, [])
    | _ => (none, store, [.unusable kind error])

def delete (store : Store) (kind : Name) : Outcome Notice × Store :=
  match store.write kind (store.backing.noteRemoval kind) with
  | (.error error, store) => (.error error, store)
  | (.ok (), store) => (.ok (.deleted kind), store)

def kinds (store : Store) : Outcome (List Name) := Outcome.during .iteratingScripts store.backing.kinds

end Store

end Lineside
