import Lineside.Proofs.BackingTable
import Lineside.Store.Basic

/-! A store is a finite map from signal types to scripts, whatever its cache does. What was put last and not
deleted since is what every reading gives, and every entry of the cache, expired or not, is what a reading
without cache would give. -/

namespace Lineside

namespace Cache

variable {cache : Cache} {entries : List CacheEntry} {entry : CacheEntry} {kind : Name}

theorem dropOldest_subset (choice : Nat) : dropOldest choice entries ⊆ entries := by
  unfold dropOldest
  split
  · exact List.filter_sublist.subset
  · exact List.Subset.refl _

theorem dropMany_subset (choices : Nat → Nat) (count : Nat) : dropMany choices count entries ⊆ entries := by
  induction count generalizing entries with
  | zero => exact List.Subset.refl _
  | succ count ih => exact List.Subset.trans ih (dropOldest_subset _)

theorem evict_subset (now : Instant) (choices : Nat → Nat) : (cache.evict now choices).entries ⊆ cache.entries := by
  unfold evict
  split
  · exact List.Subset.refl _
  · exact List.Subset.trans (dropMany_subset _ _) List.filter_sublist.subset

theorem mem_invalidate : entry ∈ (cache.invalidate kind).entries ↔ entry ∈ cache.entries ∧ entry.kind ≠ kind := by
  simp [invalidate]

/-- What is in a cache after a put was there before, or was put. -/
theorem mem_put {moment : Moment} {script : Script} (member : entry ∈ (cache.put moment kind script).entries) :
    entry ∈ cache.entries ∨ entry = ⟨kind, script, moment.stamped⟩ := by
  rcases List.mem_append.mp (evict_subset _ _ member) with kept | added
  · exact .inl (mem_invalidate.mp kept).1
  · exact .inr (List.mem_singleton.mp added)

theorem get_eq_some {now : Instant} {script : Script} (found : cache.get now kind = some script) :
    ∃ entry ∈ cache.entries, entry.kind = kind ∧ entry.script = script := by
  simp only [get, Option.bind_eq_some_iff] at found
  obtain ⟨entry, here, young⟩ := found
  refine ⟨entry, List.mem_of_find?_eq_some here, by simpa using List.find?_some here, ?_⟩
  split at young
  · cases young
  · exact Option.some.inj young

end Cache

namespace Backing

variable {backing : Backing} {kind : Name}

theorem note_eq_ok {operation : BackingOperation} {activity : Activity} {key : List UInt8} {bytes : Option ByteArray}
    {batch filled : Batch} : backing.note operation activity key bytes batch = .ok filled ↔
      backing.attempt operation = .ok () ∧ filled = batch ++ [(key, bytes)] := by
  simp only [note, bind_eq_ok, Outcome.during_eq_ok, pure_eq_ok, Except.ok.injEq]
  constructor
  · rintro ⟨_, attempted, same⟩
    exact ⟨attempted, same.symm⟩
  · rintro ⟨attempted, same⟩
    exact ⟨(), attempted, same.symm⟩

/-- Two writes are taken up one after the other. -/
theorem notes_eq_ok {first second : BackingOperation} {here there : Activity} {key other : List UInt8}
    {bytes others : Option ByteArray} {batch : Batch} :
    (backing.note first here key bytes [] >>= backing.note second there other others) = .ok batch ↔
      backing.attempt first = .ok () ∧ backing.attempt second = .ok () ∧ batch = [(key, bytes), (other, others)] := by
  simp only [bind_eq_ok, note_eq_ok]
  constructor
  · rintro ⟨_, ⟨former, rfl⟩, latter, rfl⟩
    exact ⟨former, latter, rfl⟩
  · rintro ⟨former, latter, same⟩
    exact ⟨_, ⟨former, rfl⟩, latter, same⟩

theorem noteScript_eq_ok {blob digest : ByteArray} {batch : Batch} :
    backing.noteScript kind blob digest [] = .ok batch ↔
      backing.attempt .setBlob = .ok () ∧ backing.attempt .setDigest = .ok () ∧
        batch = [(Piece.blob.key kind, some blob), (Piece.digest.key kind, some digest)] :=
  notes_eq_ok

theorem noteRemoval_eq_ok {batch : Batch} : backing.noteRemoval kind [] = .ok batch ↔
    backing.attempt .deleteBlob = .ok () ∧ backing.attempt .deleteDigest = .ok () ∧
      batch = [(Piece.blob.key kind, none), (Piece.digest.key kind, none)] :=
  notes_eq_ok

/-- A batch that is committed is applied whole. Otherwise nothing of it is, however far it was filled. -/
theorem write_cases (backing : Backing) (kind : Name) (fill : Batch → Outcome Batch) :
    (∃ batch, backing.attempt .startBatch = .ok () ∧ fill [] = .ok batch ∧ backing.attempt .commit = .ok () ∧
      backing.write kind fill = (.ok (), { backing with table := batch.apply backing.table })) ∨
    ((backing.attempt .startBatch = .ok () → ∀ batch, fill [] = .ok batch → backing.attempt .commit ≠ .ok ()) ∧
      ∃ error, backing.write kind fill = (.error error, backing)) := by
  unfold write
  cases started : backing.attempt .startBatch with
  | error reason => exact .inr ⟨nofun, _, rfl⟩
  | ok _ =>
    cases filled : fill [] with
    | error reason => exact .inr ⟨fun _ => nofun, _, rfl⟩
    | ok batch =>
      cases committed : backing.attempt .commit with
      | error reason => exact .inr ⟨fun _ _ _ => nofun, _, by simp only [commit, committed, Outcome.during]; rfl⟩
      | ok _ => exact .inl ⟨batch, rfl, rfl, rfl, by simp [commit, committed]⟩

/-- Neither reading of a backing fails. -/
structure Readable (backing : Backing) : Prop where
  blob : backing.attempt .fetchBlob = .ok ()
  digest : backing.attempt .fetchDigest = .ok ()

end Backing

theorem Script.checked_eq_ok {entry : Option Script} {script : Script} (passed : checked entry = .ok script) :
    entry = some script := by
  simp only [checked, bind_eq_ok] at passed
  obtain ⟨reason, _, passed⟩ := passed
  split at passed
  · cases passed
  · cases passed
    rfl
  · cases passed

namespace Store

variable {store changed : Store} {notice : Notice} {error : Error}

/-- What the writes of a batch make of a store. -/
def written (store : Store) (kind : Name) (batch : Batch) : Store where
  backing := { store.backing with table := batch.apply store.backing.table }
  cache := store.cache.invalidate kind

theorem write_eq_ok {kind : Name} {fill : Batch → Outcome Batch} (done : store.write kind fill = (.ok (), changed)) :
    ∃ batch, store.backing.attempt .startBatch = .ok () ∧ fill [] = .ok batch ∧
      store.backing.attempt .commit = .ok () ∧ changed = store.written kind batch := by
  unfold write at done
  rcases store.backing.write_cases kind fill with ⟨batch, started, filled, committed, made⟩ | ⟨_, _, made⟩
  · rw [made] at done
    exact ⟨batch, started, filled, committed, (Prod.mk.inj done).2.symm⟩
  · rw [made] at done
    cases done

theorem write_eq_error {kind : Name} {fill : Batch → Outcome Batch}
    (failed : store.write kind fill = (.error error, changed)) : changed = store := by
  unfold write at failed
  rcases store.backing.write_cases kind fill with ⟨batch, _, _, _, made⟩ | ⟨_, _, made⟩
  · rw [made] at failed
    cases failed
  · rw [made] at failed
    exact (Prod.mk.inj failed).2.symm

theorem put_eq_ok {entry : Option Script} (done : store.put entry = (.ok notice, changed)) :
    ∃ script blob, entry = some script ∧ Script.sealed entry = .ok (script, blob) ∧ script.encode = .ok blob ∧
      store.write script.name (store.backing.noteScript script.name blob (Digest.ofBytes blob)) = (.ok (), changed) := by
  unfold put at done
  split at done
  next => cases done
  next script blob passed =>
    split at done
    next => cases done
    next made =>
      cases done
      obtain ⟨entire, checked, left⟩ := bind_eq_ok.mp passed
      obtain ⟨bytes, encoded, same⟩ := bind_eq_ok.mp left
      cases same
      exact ⟨script, blob, Script.checked_eq_ok checked, passed, Outcome.because_eq_ok.mp encoded, made⟩

theorem put_changed {entry : Option Script} (done : store.put entry = (.ok notice, changed)) :
    ∃ script blob, entry = some script ∧ script.encode = .ok blob ∧
      changed = {
        backing := { store.backing with
          table := (store.backing.table.set (Piece.blob.key script.name) blob).set
            (Piece.digest.key script.name) (Digest.ofBytes blob) }
        cache := store.cache.invalidate script.name } := by
  obtain ⟨script, blob, same, _, encoded, made⟩ := put_eq_ok done
  obtain ⟨batch, _, filled, _, rfl⟩ := write_eq_ok made
  obtain ⟨_, _, rfl⟩ := Backing.noteScript_eq_ok.mp filled
  exact ⟨script, blob, same, encoded, rfl⟩

theorem delete_changed {kind : Name} (done : store.delete kind = (.ok notice, changed)) :
    changed = {
      backing := { store.backing with
        table := (store.backing.table.erase (Piece.blob.key kind)).erase (Piece.digest.key kind) }
      cache := store.cache.invalidate kind } := by
  unfold delete at done
  split at done
  next => cases done
  next made =>
    cases done
    obtain ⟨batch, _, filled, _, rfl⟩ := write_eq_ok made
    obtain ⟨_, _, rfl⟩ := Backing.noteRemoval_eq_ok.mp filled
    rfl

/-- A script that is not stored leaves the store alone, wherever the attempt ended. -/
theorem put_eq_error {entry : Option Script} (failed : store.put entry = (.error error, changed)) : changed = store := by
  unfold put at failed
  split at failed
  next => exact (Prod.mk.inj failed).2.symm
  next =>
    split at failed
    next made =>
      cases failed
      exact write_eq_error made
    next => cases failed

theorem delete_eq_error {kind : Name} (failed : store.delete kind = (.error error, changed)) : changed = store := by
  unfold delete at failed
  split at failed
  next made =>
    cases failed
    exact write_eq_error made
  next => cases failed

/-- A reading leaves the store as it was, or caches what it fetched. -/
theorem get_store (store : Store) (moment : Moment) (kind : Name) :
    (store.get moment kind).2 = store ∨ ∃ script, store.fetch kind = .ok script ∧
      (store.get moment kind).2 = { store with cache := store.cache.put moment kind script } := by
  unfold get
  split
  · exact .inl rfl
  · split
    next script fetched => exact .inr ⟨script, fetched, rfl⟩
    next => exact .inl rfl

theorem lookup_store (store : Store) (moment : Moment) (kind : Name) :
    (store.lookup moment kind).2.1 = (store.get moment kind).2 := by
  unfold lookup
  split
  next found => rw [found]
  next failed =>
    rw [failed]
    split <;> rfl

theorem lookup_answer (store : Store) (moment : Moment) (kind : Name) :
    (store.lookup moment kind).1 = (store.get moment kind).1.toOption := by
  unfold lookup
  split
  next found =>
    rw [found]
    rfl
  next failed =>
    rw [failed]
    split <;> rfl

theorem fetch_readable {kind : Name} {script : Script} (fetched : store.fetch kind = .ok script) :
    store.backing.Readable := by
  simp only [fetch, Backing.fetchBlob, Backing.fetchDigest, bind_eq_ok, Outcome.during_eq_ok] at fetched
  obtain ⟨_, ⟨_, blob, _⟩, _, _, _, ⟨_, digest, _⟩, _⟩ := fetched
  exact ⟨blob, digest⟩

end Store

/-- What a successful call does to the bindings of a store. -/
inductive Change where
  | stored (script : Script)
  | removed (kind : Name)

namespace Change

def kind : Change → Name
  | .stored script => script.name
  | .removed kind => kind

def script? : Change → Option Script
  | .stored script => some script
  | .removed _ => none

end Change

/-- The script that was stored last under a name and not removed since. -/
def bound (history : List Change) (kind : Name) : Option Script :=
  (history.reverse.find? (·.kind == kind)).bind Change.script?

theorem bound_append (history : List Change) (change : Change) (kind : Name) :
    bound (history ++ [change]) kind = if change.kind = kind then change.script? else bound history kind := by
  by_cases same : change.kind = kind <;> simp [bound, same]

/-- What a reading has to give. -/
def answer (history : List Change) (kind : Name) : Outcome Script :=
  match bound history kind with
  | none => Outcome.fail (.scriptNotFound kind)
  | some script => do Script.decode kind (← Outcome.because .incomplete script.encode)

theorem answer_append_other {history : List Change} {change : Change} {kind : Name} (apart : change.kind ≠ kind) :
    answer (history ++ [change]) kind = answer history kind := by
  rw [answer, bound_append, if_neg apart]
  rfl

/-- Something that happens to a store: a call, or that its backing starts or ceases to fail. -/
inductive StoreEvent where
  | put (script : Option Script)
  | delete (kind : Name)
  | get (moment : Moment) (kind : Name)
  | lookup (moment : Moment) (kind : Name)
  | kinds
  | trouble (closed : Bool) (failing : Option BackingOperation)

namespace Store

/-- The store after an event. -/
def after (store : Store) : StoreEvent → Store
  | .put script => (store.put script).2
  | .delete kind => (store.delete kind).2
  | .get moment kind => (store.get moment kind).2
  | .lookup moment kind => (store.lookup moment kind).2.1
  | .kinds => store
  | .trouble closed failing => { store with backing := { store.backing with closed, failing } }

/-- What an event changes, by what the call returns. -/
def change? (store : Store) : StoreEvent → Option Change
  | .put (some script) =>
    match (store.put (some script)).1 with
    | .ok _ => some (.stored script)
    | .error _ => none
  | .delete kind =>
    match (store.delete kind).1 with
    | .ok _ => some (.removed kind)
    | .error _ => none
  | _ => none

end Store

/-- A store and what was changed in it so far. -/
structure StoreRun where
  store : Store
  history : List Change := []

namespace StoreRun

def step (run : StoreRun) (event : StoreEvent) : StoreRun where
  store := run.store.after event
  history := run.history ++ (run.store.change? event).toList

def steps (run : StoreRun) (events : List StoreEvent) : StoreRun := events.foldl step run

theorem step_put_error {run : StoreRun} {entry : Option Script} {error : Error}
    (failed : (run.store.put entry).1 = .error error) : run.step (.put entry) = run := by
  have same : (run.store.put entry).2 = run.store := Store.put_eq_error (Prod.ext failed rfl)
  cases entry <;> simp [step, Store.after, Store.change?, failed, same]

theorem step_delete_error {run : StoreRun} {kind : Name} {error : Error}
    (failed : (run.store.delete kind).1 = .error error) : run.step (.delete kind) = run := by
  have same : (run.store.delete kind).2 = run.store := Store.delete_eq_error (Prod.ext failed rfl)
  simp [step, Store.after, Store.change?, failed, same]

/-- An empty store with a cache of some size and lifetime. -/
def start (size : Int64) (lifetime : Duration) : StoreRun where
  store := { cache := Cache.new size lifetime }

/-- The table holds the bytes and digests of the scripts that are bound, and the cache nothing else. -/
structure Faithful (run : StoreRun) : Prop where
  orderly : Backing.Orderly run.store.backing.table
  encoded : ∀ kind script, bound run.history kind = some script → ∃ blob, script.encode = .ok blob
  blobs : ∀ kind, run.store.backing.table.get (Piece.blob.key kind) =
    (bound run.history kind).bind fun script => script.encode.toOption
  digests : ∀ kind, run.store.backing.table.get (Piece.digest.key kind) =
    (run.store.backing.table.get (Piece.blob.key kind)).map Digest.ofBytes
  cached : ∀ entry ∈ run.store.cache.entries, answer run.history entry.kind = .ok entry.script

namespace Faithful

variable {run : StoreRun}

theorem fetch_eq_answer (faithful : run.Faithful) (readable : run.store.backing.Readable) (kind : Name) :
    run.store.fetch kind = answer run.history kind := by
  have blobs := faithful.blobs kind
  have digests := faithful.digests kind
  cases binding : bound run.history kind with
  | none =>
    rw [binding] at blobs
    simp only [Option.bind_none] at blobs
    simp [Store.fetch, Backing.fetchBlob, readable.blob, blobs, answer, binding, Outcome.require, Outcome.fail]
  | some script =>
    obtain ⟨blob, encoded⟩ := faithful.encoded kind script binding
    have blobs : run.store.backing.table.get (Piece.blob.key kind) = some blob := by
      rw [blobs, binding, Option.bind_some, encoded]
      rfl
    rw [blobs] at digests
    simp [Store.fetch, Backing.fetchBlob, Backing.fetchDigest, readable.blob, readable.digest, blobs, digests, answer,
      binding, encoded, Digest.fits]

theorem answer_of_cached (faithful : run.Faithful) {now : Instant} {kind : Name} {script : Script}
    (found : run.store.cache.get now kind = some script) : answer run.history kind = .ok script := by
  obtain ⟨entry, member, rfl, rfl⟩ := Cache.get_eq_some found
  exact faithful.cached entry member

/-- A reading does not depend on what is cached. -/
theorem get_eq_answer (faithful : run.Faithful) (readable : run.store.backing.Readable) (moment : Moment)
    (kind : Name) : (run.store.get moment kind).1 = answer run.history kind := by
  unfold Store.get
  split
  next found => exact (faithful.answer_of_cached found).symm
  next =>
    rw [faithful.fetch_eq_answer readable]
    split
    next answered => exact answered.symm
    next answered => exact answered.symm

theorem start (size : Int64) (lifetime : Duration) : (StoreRun.start size lifetime).Faithful := by
  refine ⟨⟨List.nodup_nil, by simp [StoreRun.start, ByteTable.keys]⟩, ?_, ?_, ?_, ?_⟩
  · simp [StoreRun.start, bound]
  · simp [StoreRun.start, bound, ByteTable.get]
  · simp [StoreRun.start, ByteTable.get]
  · simp [StoreRun.start, Cache.new]

/-- A name other than that of a change keeps its entries in the cache. -/
theorem cached_invalidate (faithful : run.Faithful) (change : Change) :
    ∀ entry ∈ (run.store.cache.invalidate change.kind).entries,
      answer (run.history ++ [change]) entry.kind = .ok entry.script := by
  intro entry member
  obtain ⟨kept, apart⟩ := Cache.mem_invalidate.mp member
  rw [answer_append_other apart.symm]
  exact faithful.cached entry kept

theorem put (faithful : run.Faithful) {script : Script} {blob : ByteArray} (encoded : script.encode = .ok blob) :
    Faithful {
      store := {
        backing := { run.store.backing with
          table := (run.store.backing.table.set (Piece.blob.key script.name) blob).set
            (Piece.digest.key script.name) (Digest.ofBytes blob) }
        cache := run.store.cache.invalidate script.name }
      history := run.history ++ [.stored script] } where
  orderly := (faithful.orderly.set .blob script.name blob).set .digest script.name (Digest.ofBytes blob)
  encoded := by
    intro kind other binding
    rw [bound_append] at binding
    split at binding
    · cases binding
      exact ⟨blob, encoded⟩
    · exact faithful.encoded kind other binding
  blobs := by
    intro kind
    rw [bound_append]
    by_cases same : kind = script.name
    · subst same
      rw [Piece.get_written_blob, Change.kind, if_pos rfl, Change.script?, Option.bind_some, encoded]
      rfl
    · rw [Piece.get_written_other .blob same, Change.kind, if_neg (Ne.symm same)]
      exact faithful.blobs kind
  digests := by
    intro kind
    by_cases same : kind = script.name
    · subst same
      rw [Piece.get_written_blob, ByteTable.get_set_self]
      rfl
    · rw [Piece.get_written_other .blob same, Piece.get_written_other .digest same]
      exact faithful.digests kind
  cached := faithful.cached_invalidate (.stored script)

theorem delete (faithful : run.Faithful) (kind : Name) :
    Faithful {
      store := {
        backing := { run.store.backing with
          table := (run.store.backing.table.erase (Piece.blob.key kind)).erase (Piece.digest.key kind) }
        cache := run.store.cache.invalidate kind }
      history := run.history ++ [.removed kind] } where
  orderly := (faithful.orderly.erase _).erase _
  encoded := by
    intro name script binding
    rw [bound_append] at binding
    split at binding
    · cases binding
    · exact faithful.encoded name script binding
  blobs := by
    intro name
    rw [bound_append]
    by_cases same : name = kind
    · subst same
      rw [Piece.get_removed, Change.kind, if_pos rfl]
      rfl
    · rw [Piece.get_removed_other .blob same, Change.kind, if_neg (Ne.symm same)]
      exact faithful.blobs name
  digests := by
    intro name
    by_cases same : name = kind
    · subst same
      rw [Piece.get_removed, Piece.get_removed]
      rfl
    · rw [Piece.get_removed_other .blob same, Piece.get_removed_other .digest same]
      exact faithful.digests name
  cached := faithful.cached_invalidate (.removed kind)

theorem get (faithful : run.Faithful) (moment : Moment) (kind : Name) :
    Faithful { run with store := (run.store.get moment kind).2 } := by
  rcases run.store.get_store moment kind with same | ⟨script, fetched, filled⟩
  · rw [same]
    exact faithful
  · rw [filled]
    refine ⟨faithful.orderly, faithful.encoded, faithful.blobs, faithful.digests, fun entry member => ?_⟩
    rcases Cache.mem_put member with kept | rfl
    · exact faithful.cached entry kept
    · -- What is added was fetched, so both pieces could be read and fitted.
      rw [← fetched]
      exact (faithful.fetch_eq_answer (Store.fetch_readable fetched) kind).symm

theorem step (faithful : run.Faithful) (event : StoreEvent) : (run.step event).Faithful := by
  cases event with
  | put entry =>
    rcases done : run.store.put entry with ⟨error | notice, changed⟩
    · rw [step_put_error (by rw [done])]
      exact faithful
    · obtain ⟨script, blob, rfl, encoded, same⟩ := Store.put_changed done
      have next := faithful.put encoded
      rw [← same] at next
      simpa [StoreRun.step, Store.after, Store.change?, done] using next
  | delete kind =>
    rcases done : run.store.delete kind with ⟨error | notice, changed⟩
    · rw [step_delete_error (by rw [done])]
      exact faithful
    · have same := faithful.delete kind
      rw [← Store.delete_changed done] at same
      simpa [StoreRun.step, Store.after, Store.change?, done] using same
  | get moment kind => simpa [StoreRun.step, Store.after, Store.change?] using faithful.get moment kind
  | lookup moment kind =>
    simpa [StoreRun.step, Store.after, Store.change?, Store.lookup_store] using faithful.get moment kind
  | kinds => simpa [StoreRun.step, Store.after, Store.change?] using faithful
  | trouble closed failing =>
    refine ⟨faithful.orderly, ?_, ?_, faithful.digests, ?_⟩
    · simpa [StoreRun.step, Store.change?] using faithful.encoded
    · simpa [StoreRun.step, Store.after, Store.change?] using faithful.blobs
    · simpa [StoreRun.step, Store.after, Store.change?] using faithful.cached

theorem steps (faithful : run.Faithful) (events : List StoreEvent) : (run.steps events).Faithful := by
  induction events generalizing run with
  | nil => exact faithful
  | cons event events ih => exact ih (faithful.step event)

end Faithful

/-- What the calls on a store come to, given what was changed so far. -/
structure Refines (run : StoreRun) : Prop where
  reads : run.store.backing.Readable → ∀ moment kind, (run.store.get moment kind).1 = answer run.history kind
  looksUp : run.store.backing.Readable → ∀ moment kind,
    (run.store.lookup moment kind).1 = (answer run.history kind).toOption
  /-- The cache makes no difference. -/
  fetches : run.store.backing.Readable → ∀ kind, run.store.fetch kind = answer run.history kind
  lists : run.store.backing.available = .ok () → ∃ names, run.store.kinds = .ok names ∧ names.Pairwise (· < ·) ∧
    ∀ name, name ∈ names ↔ (bound run.history name).isSome
  putApart : run.store.backing.Readable → ∀ script other, script.name ≠ other → ∀ moment later,
    ((run.store.after (.put (some script))).get later other).1 = (run.store.get moment other).1
  deleteApart : run.store.backing.Readable → ∀ kind other, kind ≠ other → ∀ moment later,
    ((run.store.after (.delete kind)).get later other).1 = (run.store.get moment other).1
  putFailed : ∀ entry error, (run.store.put entry).1 = .error error → run.step (.put entry) = run
  deleteFailed : ∀ kind error, (run.store.delete kind).1 = .error error → run.step (.delete kind) = run

namespace Faithful

variable {run : StoreRun}

theorem lists (faithful : run.Faithful) (available : run.store.backing.available = .ok ()) :
    ∃ names, run.store.kinds = .ok names ∧ names.Pairwise (· < ·) ∧
      ∀ name, name ∈ names ↔ (bound run.history name).isSome := by
  obtain ⟨names, listed, ascending, members⟩ := Backing.kinds_eq_ok faithful.orderly available
  refine ⟨names, by rw [Store.kinds, listed, Outcome.during_ok], ascending, fun name => ?_⟩
  rw [members, faithful.blobs]
  cases binding : bound run.history name with
  | none => simp
  | some script =>
    obtain ⟨blob, encoded⟩ := faithful.encoded name script binding
    simp [encoded, Except.toOption]

/-- An event that changes nothing under a name does not change what a reading of that name gives. -/
theorem apart (faithful : run.Faithful) {event : StoreEvent} {other : Name}
    (readable : run.store.backing.Readable) (still : (run.store.after event).backing.Readable)
    (elsewhere : ∀ change, run.store.change? event = some change → change.kind ≠ other) (moment later : Moment) :
    ((run.store.after event).get later other).1 = (run.store.get moment other).1 := by
  have before := faithful.get_eq_answer readable moment other
  have after := (faithful.step event).get_eq_answer still later other
  have same : answer (run.step event).history other = answer run.history other := by
    cases changed : run.store.change? event with
    | none => simp [StoreRun.step, changed]
    | some change =>
      simp only [StoreRun.step, changed, Option.toList_some]
      exact answer_append_other (elsewhere change changed)
  exact after.trans (same.trans before.symm)

end Faithful

end StoreRun

namespace Store

/-- No call opens or closes the backing, or makes it fail. -/
theorem after_backing (store : Store) {event : StoreEvent} (call : ∀ closed failing, event ≠ .trouble closed failing) :
    (store.after event).backing = { store.backing with table := (store.after event).backing.table } := by
  cases event with
  | put entry =>
    rcases done : store.put entry with ⟨error | notice, changed⟩
    · simp [after, done, put_eq_error done]
    · obtain ⟨script, blob, rfl, _, same⟩ := put_changed done
      simp [after, done, same]
  | delete kind =>
    rcases done : store.delete kind with ⟨error | notice, changed⟩
    · simp [after, done, delete_eq_error done]
    · simp [after, done, delete_changed done]
  | get moment kind =>
    rcases store.get_store moment kind with same | ⟨script, _, filled⟩
    · simp [after, same]
    · simp [after, filled]
  | lookup moment kind =>
    rcases store.get_store moment kind with same | ⟨script, _, filled⟩
    · simp [after, lookup_store, same]
    · simp [after, lookup_store, filled]
  | kinds => rfl
  | trouble closed failing => exact absurd rfl (call closed failing)

theorem after_readable {store : Store} {event : StoreEvent} (call : ∀ closed failing, event ≠ .trouble closed failing)
    (readable : store.backing.Readable) : (store.after event).backing.Readable := by
  rw [store.after_backing call]
  exact ⟨readable.blob, readable.digest⟩

end Store

namespace StoreRun

theorem steps_backing (run : StoreRun) {events : List StoreEvent}
    (calls : ∀ event ∈ events, ∀ closed failing, event ≠ .trouble closed failing) :
    (run.steps events).store.backing =
      { run.store.backing with table := (run.steps events).store.backing.table } := by
  induction events generalizing run with
  | nil => rfl
  | cons event events ih =>
    obtain ⟨here, others⟩ := List.forall_mem_cons.mp calls
    have first : (run.step event).store.backing = _ := run.store.after_backing here
    have rest := ih (run.step event) others
    rw [first] at rest
    exact rest

/-- Whatever happens to a store that starts empty, with a cache of any size and lifetime, it answers as the
finite map of what was put and not deleted since. As long as only calls happen, it can be read and listed. -/
theorem steps_refine (size : Int64) (lifetime : Duration) (events : List StoreEvent) :
    ((start size lifetime).steps events).Refines ∧
      ((∀ event ∈ events, ∀ closed failing, event ≠ .trouble closed failing) →
        ((start size lifetime).steps events).store.backing.Readable ∧
          ((start size lifetime).steps events).store.backing.available = .ok ()) := by
  have faithful := (Faithful.start size lifetime).steps events
  refine ⟨?_, fun calls => ?_⟩
  case refine_2 =>
    rw [steps_backing _ calls]
    exact ⟨⟨rfl, rfl⟩, rfl⟩
  generalize (start size lifetime).steps events = run at faithful
  exact {
    reads := faithful.get_eq_answer
    looksUp := fun readable moment kind => by
      rw [Store.lookup_answer, faithful.get_eq_answer readable]
    fetches := faithful.fetch_eq_answer
    lists := faithful.lists
    putApart := fun readable script other apart => by
      refine faithful.apart readable (Store.after_readable (by simp) readable) fun change changed => ?_
      simp only [Store.change?] at changed
      split at changed
      · cases changed
        exact apart
      · cases changed
    deleteApart := fun readable kind other apart => by
      refine faithful.apart readable (Store.after_readable (by simp) readable) fun change changed => ?_
      simp only [Store.change?] at changed
      split at changed
      · cases changed
        exact apart
      · cases changed
    putFailed := fun _ _ => step_put_error
    deleteFailed := fun _ _ => step_delete_error }

end StoreRun

end Lineside
