import Lineside.Proofs.DocumentRoundTrip
import Lineside.Proofs.StoreFailSafe
import Lineside.Store.Directory

/-! Storing scripts that come from files. Such a script is stored exactly if it is valid and the backing can be
written, and what a name is bound to depends on the scripts of that name alone. A list of scripts is stored up
to the first one that is refused. -/

namespace Lineside

/-- A list of steps succeeds exactly if each of them does. -/
theorem mapM_eq_ok {α β ε : Type} {f : α → Except ε β} {items : List α} {results : List β} :
    items.mapM f = .ok results ↔
      (∀ item ∈ items, ∃ result, f item = .ok result) ∧ results = items.filterMap fun item => (f item).toOption := by
  induction items generalizing results with
  | nil => simp [eq_comm]
  | cons item items ih =>
    simp only [List.mapM_cons, bind_eq_ok, pure_eq_ok, Except.ok.injEq, List.forall_mem_cons]
    constructor
    · rintro ⟨first, here, rest, others, rfl⟩
      obtain ⟨all, rfl⟩ := ih.mp others
      exact ⟨⟨⟨first, here⟩, all⟩, by simp [here, Except.toOption]⟩
    · rintro ⟨⟨⟨first, here⟩, all⟩, rfl⟩
      exact ⟨first, here, _, ih.mpr ⟨all, rfl⟩, by simp [here, Except.toOption]⟩

namespace Script

theorem parse_expressible {bytes : ByteArray} {script : Script} (parsed : parse bytes = .ok script) :
    ∀ node ∈ script.nodes, node.Expressible := by
  obtain ⟨document, _, described⟩ := bind_eq_ok.mp parsed
  split at described
  · cases described
  · exact Document.Script.resolve_expressible (Outcome.because_eq_ok.mp described)

theorem fromFile_expressible {files : Files} {path : String} {script : Script}
    (read : fromFile files path = .ok script) : ∀ node ∈ script.nodes, node.Expressible := by
  obtain ⟨bytes, _, parsed⟩ := bind_eq_ok.mp read
  exact parse_expressible (Outcome.during_eq_ok.mp parsed)

theorem fromDirectory_eq_ok {files : Files} {directory : String} {scripts : List Script} :
    fromDirectory files directory = .ok scripts ↔ ∃ entries, files.list directory = .ok entries ∧
      (∀ name ∈ fileNames entries, ∃ script, fromFile files (Path.join directory name) = .ok script) ∧
      scripts = (fileNames entries).filterMap fun name => (fromFile files (Path.join directory name)).toOption := by
  simp only [fromDirectory, bind_eq_ok, Outcome.during_eq_ok, Outcome.because_eq_ok, mapM_eq_ok]

theorem fromDirectory_expressible {files : Files} {directory : String} {scripts : List Script}
    (read : fromDirectory files directory = .ok scripts) :
    ∀ script ∈ scripts, ∀ node ∈ script.nodes, node.Expressible := by
  obtain ⟨entries, _, _, rfl⟩ := fromDirectory_eq_ok.mp read
  intro script member
  obtain ⟨name, _, found⟩ := List.mem_filterMap.mp member
  exact fromFile_expressible (toOption_eq_some.mp found)

theorem encode_total {script : Script} (expressible : ∀ node ∈ script.nodes, node.Expressible) :
    ∃ blob, script.encode = .ok blob := by
  obtain ⟨written, _, encoded, _⟩ := decode_encode expressible
  exact ⟨_, encoded⟩

theorem checked_some {script : Script} : checked (some script) = .ok script ↔ validate (some script) = .ok none := by
  rcases validated : validate (some script) with fault | _ | reason <;>
    simp [checked, validated, Outcome.because, Outcome.fail]

end Script

namespace Backing

/-- No part of a write fails. -/
structure Writable (backing : Backing) : Prop where
  start : backing.attempt .startBatch = .ok ()
  blob : backing.attempt .setBlob = .ok ()
  digest : backing.attempt .setDigest = .ok ()
  commit : backing.attempt .commit = .ok ()

theorem write_script_total {backing : Backing} {kind : Name} {blob digest : ByteArray} :
    (backing.write kind (backing.noteScript kind blob digest)).1 = .ok () ↔ backing.Writable := by
  rcases backing.write_cases kind (backing.noteScript kind blob digest) with
    ⟨batch, start, filled, commit, made⟩ | ⟨prevented, error, made⟩
  · obtain ⟨set, noted, _⟩ := noteScript_eq_ok.mp filled
    exact iff_of_true (by rw [made]) ⟨start, set, noted, commit⟩
  · refine iff_of_false (by simp [made]) fun writable => ?_
    exact prevented writable.start _ (noteScript_eq_ok.mpr ⟨writable.blob, writable.digest, rfl⟩) writable.commit

end Backing

theorem Cache.get_invalidate_other (cache : Cache) {kind name : Name} (apart : kind ≠ name) (now : Instant) :
    (cache.invalidate name).get now kind = cache.get now kind := by
  have same : (cache.invalidate name).entries.find? (·.kind == kind) = cache.entries.find? (·.kind == kind) := by
    rw [invalidate, List.find?_filter]
    congr 1
    funext entry
    by_cases here : entry.kind = kind
    · simp [here, apart]
    · simp [here]
  rw [get, same]
  rfl

namespace Store

variable {store changed : Store} {notice : Notice} {script : Script}

/-- The store with a blob and its digest under a signal type, for which nothing is cached any more. -/
def holding (store : Store) (kind : Name) (blob : ByteArray) : Store where
  backing := { store.backing with
    table := (store.backing.table.set (Piece.blob.key kind) blob).set (Piece.digest.key kind) (Digest.ofBytes blob) }
  cache := store.cache.invalidate kind

theorem get_holding_self (readable : store.backing.Readable) (kind : Name) (blob : ByteArray) (moment : Moment) :
    ((store.holding kind blob).get moment kind).1 = Script.decode kind blob := by
  have uncached : (store.holding kind blob).Uncached kind := by
    intro entry member
    exact (Cache.mem_invalidate.mp member).2
  have readable : (store.holding kind blob).backing.Readable := ⟨readable.blob, readable.digest⟩
  rw [get_fst uncached]
  exact fetch_fitting readable (Piece.get_written_blob _ _) ByteTable.get_set_self

theorem fetch_holding_other {kind name : Name} (apart : name ≠ kind) (blob : ByteArray) :
    (store.holding kind blob).fetch name = store.fetch name := by
  have attempt (operation : BackingOperation) :
    (store.holding kind blob).backing.attempt operation = store.backing.attempt operation := rfl
  have table (piece : Piece) : (store.holding kind blob).backing.table.get (piece.key name) =
      store.backing.table.get (piece.key name) := Piece.get_written_other piece apart _ _
  simp only [fetch, Backing.fetchBlob, Backing.fetchDigest, attempt, table]

theorem get_holding_other {kind name : Name} (apart : name ≠ kind) (blob : ByteArray) (moment : Moment) :
    ((store.holding kind blob).get moment name).1 = (store.get moment name).1 := by
  have cached : (store.holding kind blob).cache.get moment.asked name = store.cache.get moment.asked name :=
    store.cache.get_invalidate_other apart moment.asked
  simp only [get, cached, fetch_holding_other apart]
  cases store.cache.get moment.asked name with
  | some script => rfl
  | none => cases store.fetch name <;> rfl

theorem put_some_eq_ok (done : store.put (some script) = (.ok notice, changed)) :
    Script.validate (some script) = .ok none ∧ store.backing.Writable ∧
      ∃ blob, script.encode = .ok blob ∧ changed = store.holding script.name blob := by
  obtain ⟨entire, blob, same, passed, encoded, made⟩ := put_eq_ok done
  obtain rfl := Option.some.inj same
  obtain ⟨_, checked, _⟩ := bind_eq_ok.mp passed
  obtain rfl := Option.some.inj (Script.checked_eq_ok checked)
  obtain ⟨batch, start, filled, commit, rfl⟩ := write_eq_ok made
  obtain ⟨set, noted, rfl⟩ := Backing.noteScript_eq_ok.mp filled
  exact ⟨Script.checked_some.mp checked, ⟨start, set, noted, commit⟩, blob, encoded, rfl⟩

theorem put_total (expressible : ∀ node ∈ script.nodes, node.Expressible) :
    (∃ changed notice, store.put (some script) = (.ok notice, changed)) ↔
      Script.validate (some script) = .ok none ∧ store.backing.Writable := by
  constructor
  · rintro ⟨changed, notice, done⟩
    obtain ⟨valid, writable, _⟩ := put_some_eq_ok done
    exact ⟨valid, writable⟩
  · rintro ⟨valid, writable⟩
    obtain ⟨blob, encoded⟩ := Script.encode_total expressible
    have passed : Script.sealed (some script) = .ok (script, blob) := by
      rw [Script.sealed, Script.checked_some.mpr valid, ok_bind, encoded]
      rfl
    have made : (store.backing.write script.name
        (store.backing.noteScript script.name blob (Digest.ofBytes blob))).1 = .ok () :=
      Backing.write_script_total.mpr writable
    rcases written : store.backing.write script.name
      (store.backing.noteScript script.name blob (Digest.ofBytes blob)) with ⟨error | _, backing⟩
    · rw [written] at made
      cases made
    · exact ⟨_, _, by simp only [put, passed, write, written]; rfl⟩

/-- A put is not seen under another name. -/
theorem get_put_other (done : store.put (some script) = (.ok notice, changed)) {kind : Name}
    (apart : script.name ≠ kind) (moment : Moment) : (changed.get moment kind).1 = (store.get moment kind).1 := by
  obtain ⟨_, _, blob, _, rfl⟩ := put_some_eq_ok done
  exact get_holding_other apart.symm blob moment

/-- The store after scripts were put one after the other. One that is refused changes nothing. -/
def putting (store : Store) (scripts : List Script) : Store :=
  scripts.foldl (fun store script => store.after (.put (some script))) store

theorem putting_cons (done : store.put (some script) = (.ok notice, changed)) (scripts : List Script) :
    store.putting (script :: scripts) = changed.putting scripts := by
  simp only [putting, List.foldl_cons, after, done]

theorem putting_backing (store : Store) (scripts : List Script) :
    (store.putting scripts).backing = { store.backing with table := (store.putting scripts).backing.table } := by
  induction scripts generalizing store with
  | nil => rfl
  | cons script scripts ih =>
    have first : (store.after (.put (some script))).backing = _ := store.after_backing nofun
    have rest := ih (store.after (.put (some script)))
    rw [first] at rest
    exact rest

theorem putting_readable (scripts : List Script) (readable : store.backing.Readable) :
    (store.putting scripts).backing.Readable := by
  rw [putting_backing]
  exact ⟨readable.blob, readable.digest⟩

theorem putting_writable (scripts : List Script) (writable : store.backing.Writable) :
    (store.putting scripts).backing.Writable := by
  rw [putting_backing]
  exact ⟨writable.start, writable.blob, writable.digest, writable.commit⟩

/-- A name that no script has is not affected. -/
theorem get_putting_other {scripts : List Script} {kind : Name} (apart : ∀ script ∈ scripts, script.name ≠ kind)
    (moment : Moment) : ((store.putting scripts).get moment kind).1 = (store.get moment kind).1 := by
  induction scripts generalizing store with
  | nil => rfl
  | cons script scripts ih =>
    obtain ⟨first, others⟩ := List.forall_mem_cons.mp apart
    have step : ((store.after (.put (some script))).get moment kind).1 = (store.get moment kind).1 := by
      rw [after]
      rcases done : store.put (some script) with ⟨error | notice, changed⟩
      · rw [put_eq_error done]
      · exact get_put_other done first moment
    exact (ih others).trans step

/-- The last script of a name is the one that counts. -/
theorem get_putting_last {front back : List Script} (expressible : ∀ node ∈ script.nodes, node.Expressible)
    (valid : Script.validate (some script) = .ok none) (writable : store.backing.Writable)
    (readable : store.backing.Readable) (apart : ∀ other ∈ back, other.name ≠ script.name) :
    ∃ blob, script.encode = .ok blob ∧ ∀ moment,
      ((store.putting (front ++ script :: back)).get moment script.name).1 = Script.decode script.name blob := by
  obtain ⟨changed, notice, done⟩ := (put_total expressible).mpr ⟨valid, putting_writable front writable⟩
  have split : store.putting (front ++ script :: back) = changed.putting back := by
    rw [putting, List.foldl_append]
    exact putting_cons done back
  obtain ⟨_, _, blob, encoded, rfl⟩ := put_some_eq_ok done
  refine ⟨blob, encoded, fun moment => ?_⟩
  rw [split, get_putting_other apart]
  exact get_holding_self (putting_readable front readable) script.name blob moment

/-- All scripts of a list are stored, or those before the first one that is refused. -/
theorem putAll_cases (scripts : List Script) (store : Store) :
    (∃ notices, putAll scripts store = (.ok (), store.putting scripts, notices)) ∨
      ∃ stored refused rest error notices, scripts = stored ++ refused :: rest ∧
        (putAll stored store).1 = .ok () ∧
        (store.putting stored).put (some refused) = (.error error, store.putting stored) ∧
        putAll scripts store = (.error error, store.putting stored, notices) := by
  induction scripts generalizing store with
  | nil => exact .inl ⟨[], rfl⟩
  | cons script scripts ih =>
    rcases done : store.put (some script) with ⟨error | notice, changed⟩
    · obtain rfl := put_eq_error done
      refine .inr ⟨[], script, scripts, error, [], rfl, rfl, done, ?_⟩
      rw [putAll, done]
      rfl
    · rcases ih changed with ⟨notices, whole⟩ | ⟨stored, refused, rest, error, notices, rfl, before, failed, part⟩
      · refine .inl ⟨notice :: notices, ?_⟩
        simp only [putAll, done, whole, putting_cons done]
      · refine .inr ⟨script :: stored, refused, rest, error, notice :: notices, rfl, ?_, ?_, ?_⟩
        · simpa only [putAll, done] using before
        · rw [putting_cons done]
          exact failed
        · simp only [putAll, done, part, putting_cons done]

/-- All of them are stored exactly if each is valid and the backing can be written, should there be any. -/
theorem putAll_eq_ok {scripts : List Script}
    (expressible : ∀ script ∈ scripts, ∀ node ∈ script.nodes, node.Expressible) :
    (putAll scripts store).1 = .ok () ↔
      (∀ script ∈ scripts, Script.validate (some script) = .ok none) ∧ (store.backing.Writable ∨ scripts = []) := by
  induction scripts generalizing store with
  | nil => simp [putAll]
  | cons script scripts ih =>
    obtain ⟨first, others⟩ := List.forall_mem_cons.mp expressible
    simp only [List.forall_mem_cons, reduceCtorEq, or_false]
    rcases done : store.put (some script) with ⟨error | notice, changed⟩
    · have refused : ¬(Script.validate (some script) = .ok none ∧ store.backing.Writable) := by
        rw [← put_total first]
        simp [done]
      simp only [putAll, done, reduceCtorEq, false_iff]
      rintro ⟨⟨valid, _⟩, writable⟩
      exact refused ⟨valid, writable⟩
    · obtain ⟨valid, before, blob, _, rfl⟩ := put_some_eq_ok done
      have still : (store.holding script.name blob).backing.Writable :=
        ⟨before.start, before.blob, before.digest, before.commit⟩
      simp only [putAll, done, ih others, valid, before, still, true_or, and_true, true_and]

end Store

end Lineside
