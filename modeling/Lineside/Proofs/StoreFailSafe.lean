import Lineside.Proofs.DocumentRun
import Lineside.Proofs.StoreRefinement

/-! A stored script that is missing or damaged fails safe. A reading hands out a script only where the digest
fits the blob and the blob stands for a script. In all other cases the heads of that signal type fall back, and
everything else goes on as if nothing had been stored under the type. A tick gets to all its heads unless it meets
a stored script that is in order but for the number of its locals. -/

namespace Lineside

namespace Script

variable {kind : Name} {blob : ByteArray}

theorem decode_eq_ok {script : Script} :
    decode kind blob = .ok script ↔
      ∃ document, Document.Script.ofStored (Text.ofBytes blob) = some document ∧ document.resolve = .ok script := by
  simp only [decode, ofDocument, bind_eq_ok, Outcome.during_eq_ok, Outcome.require_eq_ok, Outcome.because_eq_ok]

/-- A blob that cannot be decoded is neither missing nor at odds with its digest. -/
theorem decode_cause {error : Error} (failed : decode kind blob = .error error) (name : Name) :
    error.cause ≠ .scriptNotFound name ∧ error.cause ≠ .digestMismatch name := by
  rw [decode] at failed
  cases stored : Document.Script.ofStored (Text.ofBytes blob) with
  | none =>
    rw [stored] at failed
    cases failed
    constructor <;> rintro ⟨⟩
  | some document =>
    rw [stored, Outcome.require_some, Outcome.during_ok, ok_bind, ofDocument] at failed
    cases read : document.resolve with
    | ok script => simp [read] at failed
    | error reason =>
      rw [read] at failed
      cases failed
      constructor <;> rintro ⟨⟩

end Script

namespace Store

variable {store : Store} {kind : Name}

/-- The table has a blob and its digest under a signal type, and the blob stands for a script. -/
def Holds (store : Store) (kind : Name) (script : Script) : Prop :=
  ∃ blob document, store.backing.table.get (Piece.blob.key kind) = some blob ∧
    store.backing.table.get (Piece.digest.key kind) = some (Digest.ofBytes blob) ∧
    Document.Script.ofStored (Text.ofBytes blob) = some document ∧ document.resolve = .ok script

section Fetch

variable (readable : store.backing.Readable)

include readable

theorem fetch_missing (missing : store.backing.table.get (Piece.blob.key kind) = none) :
    store.fetch kind = Outcome.fail (.scriptNotFound kind) := by
  simp [fetch, Backing.fetchBlob, readable.blob, missing, Outcome.require, Outcome.fail]

theorem fetch_fitting {blob : ByteArray} (found : store.backing.table.get (Piece.blob.key kind) = some blob)
    (fits : store.backing.table.get (Piece.digest.key kind) = some (Digest.ofBytes blob)) :
    store.fetch kind = Script.decode kind blob := by
  simp [fetch, Backing.fetchBlob, Backing.fetchDigest, readable.blob, readable.digest, found, fits, Digest.fits]

theorem fetch_differing {blob : ByteArray} (found : store.backing.table.get (Piece.blob.key kind) = some blob)
    (differs : store.backing.table.get (Piece.digest.key kind) ≠ some (Digest.ofBytes blob)) :
    store.fetch kind = Outcome.fail (.digestMismatch kind) := by
  have unfit : (store.backing.table.get (Piece.digest.key kind)).any (Digest.fits blob) = false := by
    cases stored : store.backing.table.get (Piece.digest.key kind) with
    | none => rfl
    | some digest => simpa [stored, Digest.fits, ByteArray.ext_iff] using differs
  simp [fetch, Backing.fetchBlob, Backing.fetchDigest, readable.blob, readable.digest, found, unfit]

end Fetch

theorem fetch_eq_ok {script : Script} :
    store.fetch kind = .ok script ↔ store.backing.Readable ∧ store.Holds kind script := by
  constructor
  · intro fetched
    have readable := fetch_readable fetched
    refine ⟨readable, ?_⟩
    cases found : store.backing.table.get (Piece.blob.key kind) with
    | none =>
      rw [fetch_missing readable found] at fetched
      cases fetched
    | some blob =>
      by_cases fits : store.backing.table.get (Piece.digest.key kind) = some (Digest.ofBytes blob)
      · rw [fetch_fitting readable found fits] at fetched
        obtain ⟨document, decoded, resolved⟩ := Script.decode_eq_ok.mp fetched
        exact ⟨blob, document, found, fits, decoded, resolved⟩
      · rw [fetch_differing readable found fits] at fetched
        cases fetched
  · rintro ⟨readable, blob, document, found, fits, decoded, resolved⟩
    rw [fetch_fitting readable found fits]
    exact Script.decode_eq_ok.mpr ⟨document, decoded, resolved⟩

theorem fetch_notFound (readable : store.backing.Readable) :
    (∃ error name, store.fetch kind = .error error ∧ error.cause = .scriptNotFound name) ↔
      store.backing.table.get (Piece.blob.key kind) = none := by
  constructor
  · rintro ⟨error, name, failed, cause⟩
    cases found : store.backing.table.get (Piece.blob.key kind) with
    | none => rfl
    | some blob =>
      by_cases fits : store.backing.table.get (Piece.digest.key kind) = some (Digest.ofBytes blob)
      · rw [fetch_fitting readable found fits] at failed
        exact absurd cause (Script.decode_cause failed name).1
      · rw [fetch_differing readable found fits] at failed
        cases failed
        cases cause
  · intro missing
    exact ⟨_, kind, fetch_missing readable missing, rfl⟩

theorem fetch_mismatch (readable : store.backing.Readable) :
    (∃ error name, store.fetch kind = .error error ∧ error.cause = .digestMismatch name) ↔
      ∃ blob, store.backing.table.get (Piece.blob.key kind) = some blob ∧
        store.backing.table.get (Piece.digest.key kind) ≠ some (Digest.ofBytes blob) := by
  constructor
  · rintro ⟨error, name, failed, cause⟩
    cases found : store.backing.table.get (Piece.blob.key kind) with
    | none =>
      rw [fetch_missing readable found] at failed
      cases failed
      cases cause
    | some blob =>
      refine ⟨blob, rfl, fun fits => ?_⟩
      rw [fetch_fitting readable found fits] at failed
      exact (Script.decode_cause failed name).2 cause
  · rintro ⟨blob, found, differs⟩
    exact ⟨_, kind, fetch_differing readable found differs, rfl⟩

/-- A store over a backing in which nothing is cached but what would be fetched. -/
structure Steady (backing : Backing) (store : Store) : Prop where
  backed : store.backing = backing
  cached : ∀ entry ∈ store.cache.entries, store.fetch entry.kind = .ok entry.script

theorem fetch_of_backing {one two : Store} (same : one.backing = two.backing) (kind : Name) :
    one.fetch kind = two.fetch kind := by
  simp only [fetch, same]

namespace Steady

variable {backing : Backing}

theorem of_empty (empty : store.cache.entries = []) : store.Steady store.backing :=
  ⟨rfl, fun entry member => by simp [empty] at member⟩

theorem get_fst (steady : store.Steady backing) (moment : Moment) (kind : Name) :
    (store.get moment kind).1 = store.fetch kind := by
  unfold Store.get
  split
  next script found =>
    obtain ⟨entry, member, rfl, rfl⟩ := Cache.get_eq_some found
    exact (steady.cached entry member).symm
  next => split <;> simp [*]

theorem get (steady : store.Steady backing) (moment : Moment) (kind : Name) :
    (store.get moment kind).2.Steady backing := by
  rcases store.get_store moment kind with same | ⟨script, fetched, filled⟩
  · rw [same]
    exact steady
  · rw [filled]
    refine ⟨steady.backed, fun entry member => ?_⟩
    rcases Cache.mem_put member with kept | rfl
    · exact steady.cached entry kept
    · exact fetched

end Steady

/-- Nothing is cached for a signal type. -/
def Uncached (store : Store) (kind : Name) : Prop := ∀ entry ∈ store.cache.entries, entry.kind ≠ kind

theorem get_uncached (uncached : store.Uncached kind) (moment : Moment) :
    store.get moment kind = match store.fetch kind with
      | .ok script => (.ok script, { store with cache := store.cache.put moment kind script })
      | .error error => (.error error, store) := by
  unfold get
  cases cached : store.cache.get moment.asked kind with
  | none => rfl
  | some script =>
    obtain ⟨entry, member, same, _⟩ := Cache.get_eq_some cached
    exact absurd same (uncached entry member)

theorem get_fst (uncached : store.Uncached kind) (moment : Moment) : (store.get moment kind).1 = store.fetch kind := by
  rw [get_uncached uncached]
  split
  next fetched => exact fetched.symm
  next failed => exact failed.symm

/-- A signal type that is not cached and cannot be fetched. -/
structure Unusable (store : Store) (kind : Name) : Prop where
  uncached : store.Uncached kind
  broken : ∃ error, store.fetch kind = .error error

namespace Unusable

theorem get (unusable : store.Unusable kind) (moment : Moment) :
    ∃ error, store.get moment kind = (.error error, store) := by
  obtain ⟨error, failed⟩ := unusable.broken
  exact ⟨error, by rw [get_uncached unusable.uncached, failed]⟩

theorem lookup (unusable : store.Unusable kind) (moment : Moment) :
    ∃ notices, store.lookup moment kind = (none, store, notices) := by
  obtain ⟨error, failed⟩ := unusable.get moment
  rw [Store.lookup, failed]
  dsimp only
  split <;> exact ⟨_, rfl⟩

/-- Readings of other types cache nothing for this one. -/
theorem read (unusable : store.Unusable kind) (moment : Moment) (name : Name) :
    (store.get moment name).2.Unusable kind := by
  rcases store.get_store moment name with same | ⟨script, fetched, filled⟩
  · rw [same]
    exact unusable
  · rw [filled]
    refine ⟨fun entry member => ?_, unusable.broken⟩
    rcases Cache.mem_put member with kept | rfl
    · exact unusable.uncached entry kept
    · rintro rfl
      obtain ⟨error, failed⟩ := unusable.broken
      rw [failed] at fetched
      cases fetched

end Unusable

/-- The store with nothing stored under a signal type. -/
def without (store : Store) (kind : Name) : Store :=
  { store with backing := { store.backing with
      table := (store.backing.table.erase (Piece.blob.key kind)).erase (Piece.digest.key kind) } }

theorem table_without_self (store : Store) (kind : Name) (piece : Piece) :
    (store.without kind).backing.table.get (piece.key kind) = none :=
  Piece.get_removed piece

theorem table_without_other (store : Store) {kind name : Name} (apart : name ≠ kind) (piece : Piece) :
    (store.without kind).backing.table.get (piece.key name) = store.backing.table.get (piece.key name) :=
  Piece.get_removed_other piece apart

theorem fetch_without_self (store : Store) (kind : Name) : ∃ error, (store.without kind).fetch kind = .error error := by
  cases fetched : (store.without kind).fetch kind with
  | error error => exact ⟨error, rfl⟩
  | ok script =>
    obtain ⟨_, blob, _, found, _⟩ := fetch_eq_ok.mp fetched
    rw [table_without_self] at found
    cases found

theorem fetch_without_other (store : Store) {kind name : Name} (apart : name ≠ kind) :
    (store.without kind).fetch name = store.fetch name := by
  have attempt (operation : BackingOperation) :
    (store.without kind).backing.attempt operation = store.backing.attempt operation := rfl
  simp only [fetch, Backing.fetchBlob, Backing.fetchDigest, attempt, table_without_other store apart]

theorem get_without_other (store : Store) {kind name : Name} (apart : name ≠ kind) (moment : Moment) :
    (store.without kind).get moment name =
      ((store.get moment name).1, (store.get moment name).2.without kind) := by
  have cache : (store.without kind).cache = store.cache := rfl
  simp only [Store.get, fetch_without_other store apart, cache]
  cases store.cache.get moment.asked name with
  | some script => rfl
  | none => cases store.fetch name <;> rfl

theorem lookup_without_other (store : Store) {kind name : Name} (apart : name ≠ kind) (moment : Moment) :
    (store.without kind).lookup moment name =
      ((store.lookup moment name).1, (store.lookup moment name).2.1.without kind, (store.lookup moment name).2.2) := by
  rw [lookup, get_without_other store apart, lookup]
  rcases store.get moment name with ⟨error | script, changed⟩
  · dsimp only
    split <;> rfl
  · rfl

end Store

/-- What comes of reading a signal type while nothing is cached. -/
structure Store.ReadsIntact (store : Store) (kind : Name) : Prop where
  ok : ∀ moment script,
    (store.get moment kind).1 = .ok script ↔ store.backing.Readable ∧ store.Holds kind script
  notFound : store.backing.Readable → ∀ moment,
    ((∃ error name, (store.get moment kind).1 = .error error ∧ error.cause = .scriptNotFound name) ↔
      store.backing.table.get (Piece.blob.key kind) = none)
  mismatch : store.backing.Readable → ∀ moment,
    ((∃ error name, (store.get moment kind).1 = .error error ∧ error.cause = .digestMismatch name) ↔
      ∃ blob, store.backing.table.get (Piece.blob.key kind) = some blob ∧
        store.backing.table.get (Piece.digest.key kind) ≠ some (Digest.ofBytes blob))

theorem Store.Steady.readsIntact {store : Store} (steady : store.Steady store.backing) (kind : Name) :
    store.ReadsIntact kind where
  ok := fun moment script => by rw [steady.get_fst, fetch_eq_ok]
  notFound := fun readable moment => by rw [steady.get_fst, fetch_notFound readable]
  mismatch := fun readable moment => by rw [steady.get_fst, fetch_mismatch readable]

/-- A head with its fallback aspect, which depends on the block of its signal. -/
def Head.fallenBack (head : Head) (block : Block) : Head :=
  { head with state := if block = .clear then head.leastRestrictive else head.mostRestrictive }

namespace Network

/-- A head is mounted at a place, and refers to a signal whose block is in a state. -/
structure Stands (network : Network) (ref : HeadRef) (block : Block) (head : Head) : Prop where
  block : (head.owner.bind network.signalAt).map (·.block) = some block
  head : network.head? ref = some head

namespace Stands

variable {network changed : Network} {ref : HeadRef} {block : Block} {head : Head}

/-- That it does not stand at another place is all that a change elsewhere leaves open. -/
theorem moved (stands : network.Stands ref block head) {places : HeadRef → Prop}
    (same : network.SameBesides places changed) {other : Head} (there : changed.head? ref = some other)
    (owner : other.owner = head.owner) : changed.Stands ref block other where
  block := by
    rw [owner, ← stands.block]
    cases head.owner with
    | none => rfl
    | some address =>
      have bare := congrArg (Option.map (·.block)) (same.signals address)
      rw [Option.map_map, Option.map_map] at bare
      exact bare
  head := there

theorem elsewhere (stands : network.Stands ref block head) {places : HeadRef → Prop}
    (same : network.SameBesides places changed) (outside : ¬ places ref) : changed.Stands ref block head :=
  stands.moved same ((same.heads ref outside).trans stands.head) rfl

theorem own? (stands : network.Stands ref block head) :
    ∃ signal, Scene.own? ⟨network, .mounted ref⟩ = some (signal, head) ∧ signal.block = block := by
  obtain ⟨signal, found, here⟩ := Option.map_eq_some_iff.mp stands.block
  have mounted : Scene.head? ⟨network, .mounted ref⟩ = some head := stands.head
  exact ⟨signal, by rw [Scene.own?, mounted, Option.bind_some, found, Option.map_some], here⟩

theorem fallback (stands : network.Stands ref block head) :
    { head with state := Scene.fallback ⟨network, .mounted ref⟩ } = head.fallenBack block := by
  obtain ⟨signal, own, here⟩ := stands.own?
  simp [Scene.fallback, Scene.block, own, here, Scene.leastRestrictive, Scene.mostRestrictive, Scene.head?, stands.head,
    Head.fallenBack]

end Stands

end Network

/-- The script under a signal type is in order, but its locals cannot be had: their number is negative, or there is no
room for so many. -/
def Store.Spoils (store : Store) (kind : Name) : Prop :=
  store.backing.Readable ∧ ∃ script, store.Holds kind script ∧
    (script.localCount < 0 ∨ Locals.capacity < script.localCount)

namespace Engine

variable {engine : Engine} {kind : Name}

/-- The engine with nothing stored under a signal type. -/
def without (engine : Engine) (kind : Name) : Engine :=
  { engine with store := engine.store.map (·.without kind) }

def Unusable (engine : Engine) (kind : Name) : Prop := ∀ store, engine.store = some store → store.Unusable kind

theorem lookup_stored {store : Store} (stored : engine.store = some store) (moment : Moment) (name : Name) :
    engine.lookup moment name =
      ((store.lookup moment name).1, { engine with store := some (store.lookup moment name).2.1 },
        Notice.lines (store.lookup moment name).2.2) := by
  rw [lookup, stored]

theorem lookup_unstored (bare : engine.store = none) (moment : Moment) (name : Name) :
    engine.lookup moment name = (none, engine, []) := by
  rw [lookup, bare]

theorem evaluate_without (engine : Engine) (kind : Name) (subject : Subject) (script : Option Script) :
    (engine.without kind).evaluate subject script =
      { engine.evaluate subject script with engine := (engine.evaluate subject script).engine.without kind } := by
  rw [without, evaluate_withStore, without, evaluate_store]

namespace Unusable

theorem lookup (unusable : engine.Unusable kind) (moment : Moment) :
    ∃ lines, engine.lookup moment kind = (none, engine, lines) := by
  cases stored : engine.store with
  | none => exact ⟨[], lookup_unstored stored moment kind⟩
  | some store =>
    obtain ⟨notices, found⟩ := (unusable store stored).lookup moment
    exact ⟨Notice.lines notices, by rw [lookup_stored stored, found, ← stored]⟩

theorem lookup_keeps (unusable : engine.Unusable kind) (moment : Moment) (name : Name) :
    (engine.lookup moment name).2.1.Unusable kind := by
  cases stored : engine.store with
  | none =>
    rw [lookup_unstored stored]
    exact unusable
  | some store =>
    rw [lookup_stored stored, Store.lookup_store]
    intro changed same
    cases same
    exact (unusable store stored).read moment name

theorem visit_keeps (unusable : engine.Unusable kind) (moment : Moment) (subject : Subject) :
    (engine.visit moment subject).engine.Unusable kind := by
  have kept := unusable.lookup_keeps moment (Scene.kind ⟨engine.network, subject⟩)
  obtain ⟨_, _, same, _⟩ := evaluate_driven (engine.lookup moment (Scene.kind ⟨engine.network, subject⟩)).2.1 subject
    (engine.lookup moment (Scene.kind ⟨engine.network, subject⟩)).1
  intro store stored
  simp only [visit] at stored
  rw [same] at stored
  exact kept store stored

theorem without (unusable : engine.Unusable kind) : (engine.without kind).Unusable kind := by
  intro store stored
  obtain ⟨store, present, rfl⟩ := Option.map_eq_some_iff.mp stored
  exact ⟨(unusable store present).uncached, store.fetch_without_self kind⟩

theorem lookup_without (unusable : engine.Unusable kind) (moment : Moment) (name : Name) :
    ((engine.without kind).lookup moment name).1 = (engine.lookup moment name).1 ∧
      ((engine.without kind).lookup moment name).2.1 = (engine.lookup moment name).2.1.without kind := by
  by_cases same : name = kind
  · subst same
    obtain ⟨_, found⟩ := unusable.lookup moment
    obtain ⟨_, found'⟩ := unusable.without.lookup moment
    rw [found, found']
    exact ⟨rfl, rfl⟩
  · cases stored : engine.store with
    | none =>
      have bare : (engine.without kind).store = none := by rw [Engine.without, stored, Option.map_none]
      rw [lookup_unstored stored, lookup_unstored bare]
      exact ⟨rfl, rfl⟩
    | some store =>
      have kept : (engine.without kind).store = some (store.without kind) := by
        rw [Engine.without, stored, Option.map_some]
      rw [lookup_stored stored, lookup_stored kept, store.lookup_without_other same]
      exact ⟨rfl, rfl⟩

theorem visit_without (unusable : engine.Unusable kind) (moment : Moment) (subject : Subject) :
    ∃ log, (engine.without kind).visit moment subject =
      { engine.visit moment subject with engine := (engine.visit moment subject).engine.without kind, log } := by
  obtain ⟨found, changed⟩ := unusable.lookup_without moment (Scene.kind ⟨engine.network, subject⟩)
  have network : (engine.without kind).network = engine.network := rfl
  simp only [visit, network, found, changed, evaluate_without]
  exact ⟨_, rfl⟩

/-- A whole tick goes as if nothing had been stored under the signal type. -/
theorem updateAll_without (unusable : engine.Unusable kind) (turns : List Turn) :
    ∃ log, updateAll turns (engine.without kind) =
      { updateAll turns engine with engine := (updateAll turns engine).engine.without kind, log } := by
  induction turns generalizing engine with
  | nil => exact ⟨_, rfl⟩
  | cons turn rest ih =>
    obtain ⟨log, visited⟩ := unusable.visit_without turn.moment turn.subject
    obtain ⟨later, others⟩ := ih (unusable.visit_keeps turn.moment turn.subject)
    rw [updateAll, updateAll, visited]
    cases (engine.visit turn.moment turn.subject).fault with
    | some fault => exact ⟨_, rfl⟩
    | none =>
      simp only [others]
      exact ⟨_, rfl⟩

section Aspect

variable {ref : HeadRef} {block : Block} {head : Head}

/-- A head without usable script gets its fallback aspect and nothing else. -/
theorem visit_stands (unusable : engine.Unusable kind) (stands : engine.network.Stands ref block head)
    (typed : head.kind = kind) (moment : Moment) :
    (engine.visit moment (.mounted ref)).fault = none ∧
      (engine.visit moment (.mounted ref)).engine.network.Stands ref block (head.fallenBack block) := by
  have named : Scene.kind ⟨engine.network, .mounted ref⟩ = kind := by
    simp [Scene.kind, Scene.head?, stands.head, typed]
  have same := (engine.visit_driven moment (.mounted ref)).sameBesides
  obtain ⟨lines, found⟩ := unusable.lookup moment
  have fallen : (engine.visit moment (.mounted ref)).engine.network.head? ref = some (head.fallenBack block) := by
    rw [← stands.fallback]
    simp only [visit, named, found, evaluate, applyFallback, count, settle, Scene.setState, Scene.modifyHead]
    rw [Network.head?_modifyHead_self, stands.head, Option.map_some]
  refine ⟨?_, stands.moved same fallen rfl⟩
  simp only [visit, named, found, evaluate]
  rfl

/-- From its own turn on the head shows the fallback aspect, and falls back to the same one again. -/
theorem updateAll_stands (unusable : engine.Unusable kind) (stands : engine.network.Stands ref block head)
    (typed : head.kind = kind) (turns : List Turn) :
    (updateAll turns engine).engine.network.head? ref = some (head.fallenBack block) ∨
      (updateAll turns engine).engine.network.head? ref = some head := by
  induction turns generalizing engine head with
  | nil => exact .inr stands.head
  | cons turn rest ih =>
    have kept := unusable.visit_keeps turn.moment turn.subject
    by_cases here : turn.subject = .mounted ref
    · rw [here] at kept
      obtain ⟨done, fallen⟩ := unusable.visit_stands stands typed turn.moment
      rw [updateAll, here, done]
      exact .inl ((ih kept fallen typed).elim id id)
    · have same := (engine.visit_driven turn.moment turn.subject).sameBesides
      have stands := stands.elsewhere same (Ne.symm here)
      rw [updateAll]
      cases (engine.visit turn.moment turn.subject).fault with
      | some fault => exact .inr stands.head
      | none => exact ih kept stands typed

/-- A head has its turn unless a fault comes before it. -/
theorem updateAll_falls (unusable : engine.Unusable kind) (stands : engine.network.Stands ref block head)
    (typed : head.kind = kind) {front : List Turn} (calm : (updateAll front engine).fault = none) (moment : Moment)
    (back : List Turn) :
    (updateAll (front ++ ⟨.mounted ref, moment⟩ :: back) engine).engine.network.head? ref =
      some (head.fallenBack block) := by
  induction front generalizing engine head with
  | nil =>
    have kept := unusable.visit_keeps moment (.mounted ref)
    obtain ⟨done, fallen⟩ := unusable.visit_stands stands typed moment
    rw [List.nil_append, updateAll, done]
    exact (kept.updateAll_stands fallen typed back).elim id id
  | cons turn rest ih =>
    have kept := unusable.visit_keeps turn.moment turn.subject
    have same := (engine.visit_driven turn.moment turn.subject).sameBesides
    rw [updateAll] at calm
    rw [List.cons_append, updateAll]
    cases done : (engine.visit turn.moment turn.subject).fault with
    | some fault => simp [done] at calm
    | none =>
      simp only [done] at calm
      by_cases here : turn.subject = .mounted ref
      · obtain ⟨_, fallen⟩ := unusable.visit_stands stands typed turn.moment
        rw [here] at kept calm ⊢
        have again := ih kept fallen typed calm
        exact again
      · exact ih kept (stands.elsewhere same (Ne.symm here)) typed calm

end Aspect

end Unusable

/-- A fault leaves the turns behind it alone. -/
theorem updateAll_faulted {front : List Turn} (faulted : (updateAll front engine).fault.isSome) (back : List Turn) :
    (updateAll (front ++ back) engine).engine = (updateAll front engine).engine := by
  induction front generalizing engine with
  | nil => cases faulted
  | cons turn rest ih =>
    rw [updateAll] at faulted
    rw [List.cons_append, updateAll, updateAll]
    cases done : (engine.visit turn.moment turn.subject).fault with
    | some fault => rfl
    | none =>
      simp only [done] at faulted
      exact ih faulted

/-- What the engine looks up is what can be fetched from a store. -/
def DrawsOn (engine : Engine) (store : Store) : Prop :=
  ∃ current, engine.store = some current ∧ current.Steady store.backing

namespace DrawsOn

variable {store : Store}

theorem lookup (draws : engine.DrawsOn store) (moment : Moment) (name : Name) :
    (engine.lookup moment name).1 = (store.fetch name).toOption ∧ (engine.lookup moment name).2.1.DrawsOn store := by
  obtain ⟨current, stored, steady⟩ := draws
  rw [lookup_stored stored, Store.lookup_answer, Store.lookup_store, steady.get_fst, Store.fetch_of_backing steady.backed]
  exact ⟨rfl, _, rfl, steady.get moment name⟩

theorem visit (draws : engine.DrawsOn store) (moment : Moment) (subject : Subject) :
    (engine.visit moment subject).engine.DrawsOn store := by
  obtain ⟨_, current, stored, steady⟩ := draws.lookup moment (Scene.kind ⟨engine.network, subject⟩)
  refine ⟨current, ?_, steady⟩
  simp only [Engine.visit]
  rw [evaluate_store]
  exact stored

/-- The evaluation of an attached head faults only for want of locals. -/
theorem visit_fault (draws : engine.DrawsOn store) {subject : Subject}
    (attached : Scene.Attached ⟨engine.network, subject⟩) (moment : Moment) :
    (engine.visit moment subject).fault.isSome ↔ store.Spoils (Scene.kind ⟨engine.network, subject⟩) := by
  obtain ⟨found, _⟩ := draws.lookup moment (Scene.kind ⟨engine.network, subject⟩)
  obtain ⟨other, same⟩ := engine.lookup_engine moment (Scene.kind ⟨engine.network, subject⟩)
  simp only [Engine.visit, found, same]
  cases fetched : store.fetch (Scene.kind ⟨engine.network, subject⟩) with
  | error error =>
    refine iff_of_false (fun faulted => by cases faulted) ?_
    rintro ⟨readable, script, holds, _⟩
    cases fetched.symm.trans (Store.fetch_eq_ok.mpr ⟨readable, holds⟩)
  | ok script =>
    obtain ⟨readable, holds⟩ := Store.fetch_eq_ok.mp fetched
    obtain ⟨_, document, _, _, _, resolved⟩ := id holds
    have faulted := evaluate_fault_fresh { engine with store := other } resolved attached
    rw [Option.isSome_iff_exists, Except.toOption, faulted, Locals.fresh]
    constructor
    · rintro ⟨fault, failed⟩
      refine ⟨readable, script, holds, ?_⟩
      by_contra room
      rw [if_neg room] at failed
      cases failed
    · rintro ⟨_, other, held, unobtainable⟩
      cases fetched.symm.trans (Store.fetch_eq_ok.mpr ⟨readable, held⟩)
      exact ⟨_, if_pos unobtainable⟩

theorem updateAll_fault (draws : engine.DrawsOn store) {turns : List Turn}
    (attached : ∀ turn ∈ turns, Scene.Attached ⟨engine.network, turn.subject⟩) :
    (updateAll turns engine).fault.isSome ↔
      ∃ turn ∈ turns, store.Spoils (Scene.kind ⟨engine.network, turn.subject⟩) := by
  induction turns generalizing engine with
  | nil => simp [updateAll]
  | cons turn rest ih =>
    obtain ⟨here, others⟩ := List.forall_mem_cons.mp attached
    have first := draws.visit_fault here turn.moment
    have same := (engine.visit_driven turn.moment turn.subject).sameBesides
    have later := ih (draws.visit turn.moment turn.subject) fun other member => same.attached (others other member)
    rw [List.exists_mem_cons_iff, ← first, updateAll]
    simp only [same.kind] at later
    cases (engine.visit turn.moment turn.subject).fault with
    | some fault => simp
    | none => simpa using later

end DrawsOn

/-- What comes of a signal type that cannot be read: nothing is kept of the attempt, its heads fall back, and
everything else goes as if nothing were stored under it. A head keeps its aspect only where the evaluation of one
before it faults, and for attached heads that comes of a stored script whose locals cannot be had. -/
structure FallsBack (engine : Engine) (store : Store) (kind : Name) : Prop where
  get : ∀ moment, ∃ error, store.get moment kind = (.error error, store)
  lookup : ∀ moment, ∃ notices, store.lookup moment kind = (none, store, notices)
  aspect : ∀ front moment back ref block head, engine.network.Stands ref block head → head.kind = kind →
    (updateAll front engine).fault = none →
      (updateAll (front ++ ⟨.mounted ref, moment⟩ :: back) engine).engine.network.head? ref =
        some (head.fallenBack block)
  kept : ∀ front back ref head, engine.network.head? ref = some head → (updateAll front engine).fault.isSome →
    (∀ turn ∈ front, turn.subject ≠ .mounted ref) →
      (updateAll (front ++ back) engine).engine.network.head? ref = some head
  faults : ∀ turns : List Turn, (∀ turn ∈ turns, Scene.Attached ⟨engine.network, turn.subject⟩) →
    ((updateAll turns engine).fault.isSome ↔
      ∃ turn ∈ turns, store.Spoils (Scene.kind ⟨engine.network, turn.subject⟩))
  others : ∀ turns, ∃ log, updateAll turns (engine.without kind) =
    { updateAll turns engine with engine := (updateAll turns engine).engine.without kind, log }

/-- A script is handed out exactly if its digest fits and its blob can be read as a script. In every other case
the signal type falls back. -/
theorem fallsBack_unless_intact (engine : Engine) {store : Store} (kind : Name) (stored : engine.store = some store)
    (empty : store.cache.entries = []) :
    store.ReadsIntact kind ∧
      (¬ (store.backing.Readable ∧ ∃ script, store.Holds kind script) → engine.FallsBack store kind) := by
  have steady := Store.Steady.of_empty empty
  refine ⟨steady.readsIntact kind, fun damaged => ?_⟩
  have broken : store.Unusable kind := by
    refine ⟨fun entry member => by simp [empty] at member, ?_⟩
    cases fetched : store.fetch kind with
    | error error => exact ⟨error, rfl⟩
    | ok script =>
      obtain ⟨readable, holds⟩ := Store.fetch_eq_ok.mp fetched
      exact absurd ⟨readable, script, holds⟩ damaged
  have unusable : engine.Unusable kind := by
    intro other same
    cases stored.symm.trans same
    exact broken
  have draws : engine.DrawsOn store := ⟨store, stored, steady⟩
  refine ⟨broken.get, broken.lookup, fun front moment back ref block head stands typed calm =>
    unusable.updateAll_falls stands typed calm moment back, fun front back ref head there faulted apart => ?_,
    fun turns attached => draws.updateAll_fault attached, unusable.updateAll_without⟩
  rw [updateAll_faulted faulted, (updateAll_sameBesides front engine).heads ref ?_, there]
  rintro ⟨turn, member, here⟩
  exact apart turn member here

end Engine

/-- A blob without digest, and a head of its signal type beside one of another. -/
private def undigested : Engine where
  network := .holding [
    { id := "H", heads := [{ kind := "main", aspects := [.stop, .clear2] }, { kind := "shunt" }] }] none
  store := some { backing := { table := [(Piece.blob.key "main", ⟨#[0x7b]⟩)] } }

theorem fallsBack_undigested :
    ∃ store, undigested.store = some store ∧ store.ReadsIntact "main" ∧ undigested.FallsBack store "main" := by
  refine ⟨_, rfl, ?_⟩
  obtain ⟨reads, falls⟩ := undigested.fallsBack_unless_intact "main" rfl rfl
  refine ⟨reads, falls ?_⟩
  rintro ⟨_, script, blob, document, _, digest, _⟩
  cases digest

/-- A valid script that asks for more locals than there can be. -/
private def greedy : Document.Script where
  name := "big"
  localCount := 9223372036854775807

/-- The script is stored as it should be, and nothing is stored for the head behind the one that runs it. -/
private def crowded : Store where
  backing := {
    table := [
      (Piece.digest.key "big", Digest.ofBytes greedy.text.toUTF8), (Piece.blob.key "big", greedy.text.toUTF8)] }

private def behind : Head where
  number := 2
  kind := "main"
  aspects := [.stop, .clear2]
  owner := some 0

private def halted : Engine where
  network := .holding [{ id := "S", heads := [{ number := 1, kind := "big" }, behind] }] none
  store := some crowded

theorem update_halted :
    crowded.cache.entries = [] ∧ crowded.backing.Readable ∧
      (∃ script, crowded.Holds "big" script ∧ Script.validate (some script) = .ok none) ∧
      (¬ ∃ script, crowded.Holds "main" script) ∧
      halted.network.Stands ⟨0, 1⟩ .clear behind ∧ behind.kind = "main" ∧
      (halted.update 0).engine.network.head? ⟨0, 1⟩ = some behind ∧
      (behind.fallenBack .clear).state ≠ behind.state := by
  have readable : crowded.backing.Readable := ⟨rfl, rfl⟩
  have read : Document.Script.ofStored (Text.ofBytes greedy.text.toUTF8) = some greedy.filled := by
    rw [Text.ofBytes_toUTF8]
    exact Document.Script.ofStored_text (by decide)
  have holds : crowded.Holds "big" { name := "big", localCount := 9223372036854775807, nodes := [] } :=
    ⟨_, _, rfl, rfl, read, rfl⟩
  have draws : halted.DrawsOn crowded := ⟨crowded, rfl, .of_empty rfl⟩
  have faulted : (Engine.updateAll [⟨.mounted ⟨0, 0⟩, .instant 0⟩] halted).fault.isSome := by
    rw [draws.updateAll_fault (by simp [Scene.Attached]; rfl)]
    exact ⟨_, List.mem_singleton_self _, readable, _, holds, .inr (by decide)⟩
  refine ⟨rfl, readable, ⟨_, holds, Script.validate_eq_none_iff.mpr ⟨by simp, by decide, rfl⟩⟩, ?_, ⟨rfl, rfl⟩, rfl, ?_, by decide⟩
  · rintro ⟨script, blob, document, found, _⟩
    cases found
  · have turns : halted.update 0 =
        Engine.updateAll ([⟨.mounted ⟨0, 0⟩, .instant 0⟩] ++ [⟨.mounted ⟨0, 1⟩, .instant 0⟩]) halted := rfl
    rw [turns, Engine.updateAll_faulted faulted, (Engine.updateAll_sameBesides _ _).heads ⟨0, 1⟩ (by simp)]
    rfl

end Lineside
