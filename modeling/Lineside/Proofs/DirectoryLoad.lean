import Lineside.Command.Basic
import Lineside.Proofs.ByteOrder
import Lineside.Proofs.ScriptFiles

/-! Loading a directory. It goes well exactly if the scripts in it are found valid and the backing can be written.
Then a name that occurs in the files is bound to the script of the last one that carries it, in the order of bytes,
and no other name is affected. The first script that is refused ends it, and those in front of it stay stored. -/

namespace Lineside

/-- A file with one of three extensions, in either case. -/
def DirectoryEntry.HoldsScript (entry : DirectoryEntry) : Prop :=
  entry.isDirectory = false ∧
    (Path.extension entry.name).toList.map Char.toLower ∈ [".yaml".toList, ".yml".toList, ".json".toList]

instance : DecidablePred DirectoryEntry.HoldsScript := fun _ => inferInstanceAs (Decidable (_ ∧ _))

namespace Files

/-- A file of a directory holds a script. -/
structure HasScript (files : Files) (directory name : String) (script : Script) : Prop where
  listed : ∃ entries, files.list directory = .ok entries ∧ ∃ entry ∈ entries, entry.HoldsScript ∧ entry.name = name
  read : Script.fromFile files (Path.join directory name) = .ok script

/-- The directory can be listed, and every script file in it holds a valid script. -/
def Loadable (files : Files) (directory : String) : Prop :=
  ∃ entries, files.list directory = .ok entries ∧ ∀ entry ∈ entries, entry.HoldsScript →
    ∃ script, Script.fromFile files (Path.join directory entry.name) = .ok script ∧
      Script.validate (some script) = .ok none

end Files

namespace Script

theorem holdsScript_iff (entry : DirectoryEntry) :
    (!entry.isDirectory && isFileName entry.name) = true ↔ entry.HoldsScript := by
  simp [isFileName, DirectoryEntry.HoldsScript, ← String.toList_inj]

theorem mem_fileNames {entries : List DirectoryEntry} {name : String} :
    name ∈ fileNames entries ↔ ∃ entry ∈ entries, entry.HoldsScript ∧ entry.name = name := by
  simp only [fileNames, List.mem_mergeSort, List.mem_map, List.mem_filter, holdsScript_iff, and_assoc]

theorem length_fileNames (entries : List DirectoryEntry) :
    (fileNames entries).length = entries.countP fun entry => decide entry.HoldsScript := by
  rw [fileNames, List.length_mergeSort, List.length_map, List.countP_eq_length_filter]
  congr 2
  funext entry
  rw [Bool.eq_iff_iff, holdsScript_iff, decide_eq_true_iff]

theorem fileNames_sorted (entries : List DirectoryEntry) : (fileNames entries).Pairwise (· ≤ ·) := by
  have sorted : (fileNames entries).Pairwise fun a b => decide (a ≤ b) := by
    refine List.pairwise_mergeSort (fun a b c one two => ?_) (fun a b => ?_) _
    · simp only [decide_eq_true_eq] at one two ⊢
      exact String.le_trans one two
    · simpa using String.le_total a b
  exact sorted.imp of_decide_eq_true

theorem hasScript_iff {files : Files} {directory : String} {entries : List DirectoryEntry}
    (listed : files.list directory = .ok entries) {name : String} {script : Script} :
    files.HasScript directory name script ↔
      name ∈ fileNames entries ∧ fromFile files (Path.join directory name) = .ok script := by
  rw [mem_fileNames]
  constructor
  · rintro ⟨⟨others, same, holds⟩, read⟩
    rw [listed] at same
    cases same
    exact ⟨holds, read⟩
  · rintro ⟨holds, read⟩
    exact ⟨⟨entries, listed, holds⟩, read⟩

/-- The scripts of a directory are those of its files. -/
theorem mem_fromDirectory {files : Files} {directory : String} {scripts : List Script}
    (loaded : fromDirectory files directory = .ok scripts) {script : Script} :
    script ∈ scripts ↔ ∃ name, files.HasScript directory name script := by
  obtain ⟨entries, listed, _, rfl⟩ := fromDirectory_eq_ok.mp loaded
  simp only [List.mem_filterMap, toOption_eq_some, hasScript_iff listed]

theorem loadable_iff {files : Files} {directory : String} :
    files.Loadable directory ↔ ∃ scripts, fromDirectory files directory = .ok scripts ∧
      ∀ script ∈ scripts, validate (some script) = .ok none := by
  constructor
  · rintro ⟨entries, listed, valid⟩
    have all : ∀ name ∈ fileNames entries, ∃ script,
        fromFile files (Path.join directory name) = .ok script ∧ validate (some script) = .ok none := by
      intro name member
      obtain ⟨entry, present, holds, rfl⟩ := mem_fileNames.mp member
      exact valid entry present holds
    refine ⟨_, fromDirectory_eq_ok.mpr ⟨entries, listed, fun name member => ?_, rfl⟩, fun script member => ?_⟩
    · obtain ⟨script, read, _⟩ := all name member
      exact ⟨script, read⟩
    · obtain ⟨name, present, found⟩ := List.mem_filterMap.mp member
      obtain ⟨other, read, valid⟩ := all name present
      obtain rfl : script = other := Except.ok.inj ((toOption_eq_some.mp found).symm.trans read)
      exact valid
  · rintro ⟨scripts, loaded, valid⟩
    obtain ⟨entries, listed, readable, _⟩ := fromDirectory_eq_ok.mp loaded
    refine ⟨entries, listed, fun entry present holds => ?_⟩
    have named := mem_fileNames.mpr ⟨entry, present, holds, rfl⟩
    obtain ⟨script, read⟩ := readable entry.name named
    exact ⟨script, read, valid script ((mem_fromDirectory loaded).mpr ⟨_, (hasScript_iff listed).mpr ⟨named, read⟩⟩)⟩

/-- There are no scripts exactly if there is no script file. -/
theorem fromDirectory_nil {files : Files} {directory : String} {scripts : List Script}
    (loaded : fromDirectory files directory = .ok scripts) :
    scripts = [] ↔ ∀ entries, files.list directory = .ok entries → ∀ entry ∈ entries, ¬entry.HoldsScript := by
  obtain ⟨entries, listed, readable, _⟩ := fromDirectory_eq_ok.mp loaded
  rw [List.eq_nil_iff_forall_not_mem]
  constructor
  · intro none others same entry present holds
    rw [listed] at same
    cases same
    have named := mem_fileNames.mpr ⟨entry, present, holds, rfl⟩
    obtain ⟨script, read⟩ := readable entry.name named
    exact none script ((mem_fromDirectory loaded).mpr ⟨_, (hasScript_iff listed).mpr ⟨named, read⟩⟩)
  · intro none script member
    obtain ⟨name, held⟩ := (mem_fromDirectory loaded).mp member
    obtain ⟨entries, listed, entry, present, holds, _⟩ := held.listed
    exact none entries listed entry present holds

end Script

namespace Command

theorem verdict_eq_none {script : Script} : (verdict script).2 = none ↔ Script.validate (some script) = .ok none := by
  rw [← Script.checked_some, verdict]
  cases checked : Script.checked (some script) with
  | error error => simp
  | ok passed =>
    obtain rfl : script = passed := Option.some.inj (Script.checked_eq_ok checked)
    simp

/-- The scripts of a directory are found valid exactly if it can be loaded. -/
theorem validateScripts_eq_ok {files : Files} {settings : List Setting} :
    (validateScripts files settings).outcome = .ok () ↔
      files.Loadable ((Setting.text? settings "scripts").getD "scripts") := by
  rw [Script.loadable_iff, validateScripts]
  cases Script.fromDirectory files ((Setting.text? settings "scripts").getD "scripts") with
  | error error => simp
  | ok scripts =>
    have accepted : ((scripts.map verdict).filterMap (·.2)).isEmpty = true ↔
        ∀ script ∈ scripts, Script.validate (some script) = .ok none := by
      simp [List.filterMap_eq_nil_iff, verdict_eq_none]
    simp only [Except.ok.injEq, exists_eq_left', ← accepted]
    split
    next all => simp only [all]
    next => simp_all [Outcome.fail]

end Command

/-- If some item has a property, there is a last one. -/
theorem exists_last {α : Type} (property : α → Prop) {items : List α} (some : ∃ item ∈ items, property item) :
    ∃ front last back, items = front ++ last :: back ∧ property last ∧ ∀ item ∈ back, ¬property item := by
  induction items with
  | nil => simp at some
  | cons item items ih =>
    by_cases later : ∃ other ∈ items, property other
    · obtain ⟨front, last, back, rfl, has, none⟩ := ih later
      exact ⟨item :: front, last, back, rfl, has, none⟩
    · have here : property item := (List.exists_mem_cons_iff ..).mp some |>.resolve_right later
      exact ⟨[], item, items, rfl, here, fun other member has => later ⟨other, member, has⟩⟩

namespace Files

variable {files : Files} {directory name : String} {script : Script}

/-- A file is the last one in the order of bytes that carries the name of its script. -/
structure LastOfName (files : Files) (directory name : String) (script : Script) : Prop where
  holds : files.HasScript directory name script
  last : ∀ other rival, files.HasScript directory other rival → rival.name = script.name →
    Text.bytes other ≤ Text.bytes name

/-- Every name in the files has a last file, which divides the scripts of the directory. -/
theorem HasScript.exists_last (held : files.HasScript directory name script) {scripts : List Script}
    (loaded : Script.fromDirectory files directory = .ok scripts) :
    ∃ last final front back, files.LastOfName directory last final ∧ final.name = script.name ∧
      scripts = front ++ final :: back ∧ ∀ other ∈ back, other.name ≠ final.name := by
  obtain ⟨entries, listed, _, rfl⟩ := Script.fromDirectory_eq_ok.mp loaded
  simp only [Script.hasScript_iff listed] at held
  let script? (file : String) := (Script.fromFile files (Path.join directory file)).toOption
  obtain ⟨front, last, back, split, ⟨final, read, same⟩, later⟩ := Lineside.exists_last
    (fun file => ∃ rival, Script.fromFile files (Path.join directory file) = .ok rival ∧ rival.name = script.name)
    ⟨name, held.1, script, held.2, rfl⟩
  have member : last ∈ Script.fileNames entries := by simp [split]
  refine ⟨last, final, front.filterMap script?, back.filterMap script?,
    ⟨(Script.hasScript_iff listed).mpr ⟨member, read⟩, ?_⟩, same, ?_, ?_⟩
  · intro other rival carrying alike
    obtain ⟨present, found⟩ := (Script.hasScript_iff listed).mp carrying
    have sorted := Script.fileNames_sorted entries
    rw [split] at sorted present
    rw [Text.bytes_le]
    rcases List.mem_append.mp present with earlier | rest
    · exact (List.pairwise_append.mp sorted).2.2 other earlier last List.mem_cons_self
    · rcases List.mem_cons.mp rest with rfl | after
      · exact String.le_refl other
      · exact absurd ⟨rival, found, alike.trans same⟩ (later other after)
  · rw [split, List.filterMap_append, List.filterMap_cons, read]
    rfl
  · intro other member alike
    obtain ⟨file, after, found⟩ := List.mem_filterMap.mp member
    exact later file after ⟨other, toOption_eq_some.mp found, alike.trans same⟩

end Files

namespace Store

variable {store : Store} {files : Files} {directory : String} {count : Nat}

theorem loadDirectory_eq_ok :
    (store.loadDirectory files directory).1 = .ok count ↔ ∃ scripts,
      Script.fromDirectory files directory = .ok scripts ∧ (putAll scripts store).1 = .ok () ∧ count = scripts.length := by
  rw [loadDirectory]
  cases Script.fromDirectory files directory with
  | error error => simp
  | ok scripts =>
    rcases ended : putAll scripts store with ⟨_ | _, left, notices⟩
    · simp [ended]
    · simp [ended, eq_comm]

theorem loadDirectory_stored {scripts : List Script} (read : Script.fromDirectory files directory = .ok scripts)
    (stored : (putAll scripts store).1 = .ok ()) :
    (store.loadDirectory files directory).2.1 = store.putting scripts := by
  rcases putAll_cases scripts store with ⟨notices, whole⟩ | ⟨_, _, _, error, _, _, _, _, part⟩
  · simp [loadDirectory, read, whole]
  · simp [part] at stored

theorem exists_loadDirectory_eq_ok :
    (∃ count, (store.loadDirectory files directory).1 = .ok count) ↔ files.Loadable directory ∧
      (store.backing.Writable ∨
        ∀ entries, files.list directory = .ok entries → ∀ entry ∈ entries, ¬entry.HoldsScript) := by
  simp only [loadDirectory_eq_ok, Script.loadable_iff]
  constructor
  · rintro ⟨_, scripts, read, stored, _⟩
    obtain ⟨valid, able⟩ := (putAll_eq_ok (Script.fromDirectory_expressible read)).mp stored
    rw [Script.fromDirectory_nil read] at able
    exact ⟨⟨scripts, read, valid⟩, able⟩
  · rintro ⟨⟨scripts, read, valid⟩, able⟩
    rw [← Script.fromDirectory_nil read] at able
    exact ⟨_, scripts, read, (putAll_eq_ok (Script.fromDirectory_expressible read)).mpr ⟨valid, able⟩, rfl⟩

theorem loadDirectory_count (done : (store.loadDirectory files directory).1 = .ok count) :
    ∃ entries, files.list directory = .ok entries ∧ count = entries.countP fun entry => decide entry.HoldsScript := by
  obtain ⟨scripts, read, _, rfl⟩ := loadDirectory_eq_ok.mp done
  obtain ⟨entries, listed, readable, rfl⟩ := Script.fromDirectory_eq_ok.mp read
  refine ⟨entries, listed, ?_⟩
  rw [← Script.length_fileNames, List.filterMap_length_eq_length]
  intro name member
  obtain ⟨script, held⟩ := readable name member
  simp [held, Except.toOption]

theorem get_loadDirectory_last (done : (store.loadDirectory files directory).1 = .ok count) {name : String}
    {script : Script} (held : files.HasScript directory name script) (readable : store.backing.Readable) :
    ∃ last final written, files.LastOfName directory last final ∧ final.name = script.name ∧
      Document.Script.ofScript (some final) = .ok written ∧
      (∀ moment, ((store.loadDirectory files directory).2.1.get moment script.name).1 =
        Script.decode script.name written.text.toUTF8) ∧
      (written.json.depth ≤ Json.maxDepth → ∀ moment,
        ((store.loadDirectory files directory).2.1.get moment script.name).1 = .ok final.stored) := by
  obtain ⟨scripts, read, stored, _⟩ := loadDirectory_eq_ok.mp done
  have expressible := Script.fromDirectory_expressible read
  obtain ⟨valid, writable | rfl⟩ := (putAll_eq_ok expressible).mp stored
  · obtain ⟨last, final, front, back, greatest, named, rfl, apart⟩ := held.exists_last read
    have member : final ∈ front ++ final :: back := by simp
    obtain ⟨blob, encoded, gotten⟩ :=
      get_putting_last (expressible final member) (valid final member) writable readable apart
    obtain ⟨written, wrote, whole, decoded⟩ := Script.decode_encode (expressible final member)
    obtain rfl : written.text.toUTF8 = blob := Except.ok.inj (whole.symm.trans encoded)
    rw [loadDirectory_stored read stored, ← named]
    exact ⟨last, final, written, greatest, rfl, wrote, gotten,
      fun shallow moment => (gotten moment).trans (decoded shallow final.name)⟩
  · have member := (Script.mem_fromDirectory read).mpr ⟨name, held⟩
    cases member

theorem get_loadDirectory_other (done : (store.loadDirectory files directory).1 = .ok count) {kind : Name}
    (apart : ∀ name script, files.HasScript directory name script → script.name ≠ kind) (moment : Moment) :
    ((store.loadDirectory files directory).2.1.get moment kind).1 = (store.get moment kind).1 := by
  obtain ⟨scripts, read, stored, _⟩ := loadDirectory_eq_ok.mp done
  rw [loadDirectory_stored read stored]
  refine get_putting_other (fun script member => ?_) moment
  obtain ⟨name, held⟩ := (Script.mem_fromDirectory read).mp member
  exact apart name script held

/-- A directory is loaded exactly if its scripts are found valid, for which every script file must hold a valid one,
and the backing can be written, should there be any. Then they are counted, each name is bound to what is read of the
script in the last file that carries it, which is that script as far as the nesting of its text can be read, and other
names stay as they were. -/
theorem loadDirectory_iff_validated (files : Files) (store : Store) {settings : List Setting}
    (command : (Setting.text? settings "scripts").getD "scripts" = directory) :
    ((Command.validateScripts files settings).outcome = .ok () ↔ files.Loadable directory) ∧
    ((∃ count, (store.loadDirectory files directory).1 = .ok count) ↔
      (Command.validateScripts files settings).outcome = .ok () ∧ (store.backing.Writable ∨
        ∀ entries, files.list directory = .ok entries → ∀ entry ∈ entries, ¬entry.HoldsScript)) ∧
    ∀ count, (store.loadDirectory files directory).1 = .ok count →
      (∃ entries, files.list directory = .ok entries ∧ count = entries.countP fun entry => decide entry.HoldsScript) ∧
      (∀ name script, files.HasScript directory name script → store.backing.Readable →
        ∃ last final written, files.LastOfName directory last final ∧ final.name = script.name ∧
          Document.Script.ofScript (some final) = .ok written ∧
          (∀ moment, ((store.loadDirectory files directory).2.1.get moment script.name).1 =
            Script.decode script.name written.text.toUTF8) ∧
          (written.json.depth ≤ Json.maxDepth → ∀ moment,
            ((store.loadDirectory files directory).2.1.get moment script.name).1 = .ok final.stored)) ∧
      ∀ kind, (∀ name script, files.HasScript directory name script → script.name ≠ kind) →
        ∀ moment, ((store.loadDirectory files directory).2.1.get moment kind).1 = (store.get moment kind).1 := by
  subst command
  refine ⟨Command.validateScripts_eq_ok, ?_, fun count done => ⟨loadDirectory_count done, ?_, ?_⟩⟩
  · rw [Command.validateScripts_eq_ok]
    exact exists_loadDirectory_eq_ok
  · intro name script
    exact get_loadDirectory_last done
  · intro kind
    exact get_loadDirectory_other done

end Store

/-- Two files with scripts of one name, in no order, and a directory whose name ends like a script's. -/
private def yard : Files where
  read path := .ok (if path = "yard/a.yaml" then "name: main" else "name: main\nlocals: 1").toUTF8
  list _ := .ok [{ name := "b.YML" }, { name := "old.json", isDirectory := true }, { name := "a.yaml" }]

/-- What can be computed of a script to tell whether it is valid. -/
private def Script.summary (outcome : Outcome Script) : Option (Name × Option (Option InvalidScript)) :=
  outcome.toOption.map fun script => (script.name, (validate (some script)).toOption)

private theorem Script.exists_of_summary {outcome : Outcome Script} {name : Name} {verdict : Option InvalidScript}
    (computed : summary outcome = some (name, some verdict)) :
    ∃ script, outcome = .ok script ∧ script.name = name ∧ validate (some script) = .ok verdict := by
  obtain ⟨script, read, both⟩ := Option.map_eq_some_iff.mp computed
  obtain ⟨named, verdict⟩ := Prod.mk.inj both
  exact ⟨script, toOption_eq_some.mp read, named, toOption_eq_some.mp verdict⟩

private theorem yard_second : ∃ script, yard.HasScript "yard" "b.YML" script ∧ script.name = "main" ∧
    Script.validate (some script) = .ok none := by
  have computed : Script.summary (Script.fromFile yard (Path.join "yard" "b.YML")) = some (Name.ofText "main", some none) := by
    decide +kernel
  obtain ⟨script, read, named, valid⟩ := Script.exists_of_summary computed
  exact ⟨script, ⟨⟨_, rfl, _, List.mem_cons_self, by decide +kernel, rfl⟩, read⟩, named, valid⟩

private theorem yard_shallow {script : Script} {written : Document.Script}
    (read : Script.fromFile yard (Path.join "yard" "b.YML") = .ok script)
    (wrote : Document.Script.ofScript (some script) = .ok written) : written.json.depth ≤ 2 := by
  have computed : (Script.fromFile yard (Path.join "yard" "b.YML")).toOption.bind (fun script =>
      (Document.Node.ofNodes script.nodes).toOption.map
        (fun nodes => Json.itemsDepth (Document.nodesJson nodes))) = some 0 := by
    decide +kernel
  rw [read] at computed
  exact Document.Script.depth_of_measured wrote computed

private theorem yard_loadable : yard.Loadable "yard" := by
  refine ⟨_, rfl, ?_⟩
  simp only [List.forall_mem_cons, List.not_mem_nil, false_implies, implies_true, and_true]
  refine ⟨fun _ => ?_, fun holds => absurd holds (by decide +kernel), fun _ => ?_⟩
  · obtain ⟨script, held, _, valid⟩ := yard_second
    exact ⟨script, held.read, valid⟩
  · have computed : Script.summary (Script.fromFile yard (Path.join "yard" "a.yaml")) = some (Name.ofText "main", some none) := by
      decide +kernel
    obtain ⟨script, read, _, valid⟩ := Script.exists_of_summary computed
    exact ⟨script, read, valid⟩

theorem loadDirectory_yard :
    (Command.validateScripts yard [⟨"scripts", .text "yard"⟩]).outcome = .ok () ∧
      (({} : Store).loadDirectory yard "yard").1 = .ok 2 ∧
      ∃ final, yard.LastOfName "yard" "b.YML" final ∧
        ∀ moment, ((({} : Store).loadDirectory yard "yard").2.1.get moment "main").1 = .ok final.stored := by
  obtain ⟨validated, loads, bindings⟩ := Store.loadDirectory_iff_validated yard {}
    (rfl : (Setting.text? [⟨"scripts", .text "yard"⟩] "scripts").getD "scripts" = "yard")
  have accepted := validated.mpr yard_loadable
  obtain ⟨count, done⟩ := loads.mpr ⟨accepted, .inl ⟨rfl, rfl, rfl, rfl⟩⟩
  obtain ⟨⟨entries, listed, rfl⟩, bound, _⟩ := bindings count done
  cases listed
  obtain ⟨script, held, named, _⟩ := yard_second
  obtain ⟨last, final, written, greatest, alike, wrote, _, gotten⟩ := bound "b.YML" script held ⟨rfl, rfl⟩
  obtain rfl : last = "b.YML" := by
    obtain ⟨_, same, entry, present, holds, rfl⟩ := greatest.holds.listed
    cases same
    simp only [List.mem_cons, List.not_mem_nil, or_false] at present
    rcases present with rfl | rfl | rfl
    · rfl
    · exact absurd holds (by decide +kernel)
    · exact absurd (greatest.last "b.YML" script held alike.symm) (by decide +kernel)
  refine ⟨accepted, done.trans (by decide +kernel), final, greatest, fun moment => ?_⟩
  rw [← named]
  exact gotten (Nat.le_trans (yard_shallow greatest.holds.read wrote) (by decide)) moment

/-- With a closed backing, a directory whose scripts are all valid is not loaded. -/
theorem loadDirectory_closed :
    ¬∀ (store : Store) (files : Files) (directory : String),
      (∃ count, (store.loadDirectory files directory).1 = .ok count) ↔
        (Command.validateScripts files [⟨"scripts", .text directory⟩]).outcome = .ok () := by
  intro always
  have done := (always { backing := { closed := true } } yard "yard").mpr
    (Command.validateScripts_eq_ok.mpr yard_loadable)
  rcases (Store.exists_loadDirectory_eq_ok.mp done).2 with writable | none
  · cases writable.start
  · exact none _ rfl _ List.mem_cons_self (by decide +kernel)

namespace Store

variable {store : Store} {files : Files} {directory : String}

/-- Where loading fails, nothing could be read, or the first script that is refused follows those that were stored. -/
theorem loadDirectory_eq_error {error : Error} (failed : (store.loadDirectory files directory).1 = .error error) :
    Script.fromDirectory files directory = .error error ∧ (store.loadDirectory files directory).2.1 = store ∨
    ∃ stored refused rest, Script.fromDirectory files directory = .ok (stored ++ refused :: rest) ∧
      (putAll stored store).1 = .ok () ∧ ((store.putting stored).put (some refused)).1 = .error error ∧
      (store.loadDirectory files directory).2.1 = store.putting stored := by
  cases read : Script.fromDirectory files directory with
  | error reason =>
    left
    simpa [loadDirectory, read] using failed
  | ok scripts =>
    right
    rcases putAll_cases scripts store with
      ⟨notices, whole⟩ | ⟨stored, refused, rest, reason, notices, rfl, before, last, part⟩
    · simp [loadDirectory, read, whole] at failed
    · obtain rfl : reason = error := by simpa [loadDirectory, read, part] using failed
      exact ⟨stored, refused, rest, rfl, before, by rw [last], by simp [loadDirectory, read, part]⟩

/-- A directory that is refused was read in vain, which changes nothing, or was loaded in part: the scripts in front
of the one that is refused stay stored under their names, and other names stay as they were. -/
theorem loadDirectory_partial {error : Error} (failed : (store.loadDirectory files directory).1 = .error error) :
    Script.fromDirectory files directory = .error error ∧ (store.loadDirectory files directory).2.1 = store ∨
    ∃ stored refused rest, Script.fromDirectory files directory = .ok (stored ++ refused :: rest) ∧
      ((store.putting stored).put (some refused)).1 = .error error ∧
      (store.loadDirectory files directory).2.1 = store.putting stored ∧
      (∀ script ∈ stored, store.backing.Readable → ∃ final ∈ stored, final.name = script.name ∧
        ∃ blob, final.encode = .ok blob ∧
          ∀ moment, ((store.loadDirectory files directory).2.1.get moment script.name).1 =
            Script.decode script.name blob) ∧
      ∀ kind, (∀ script ∈ stored, script.name ≠ kind) → ∀ moment,
        ((store.loadDirectory files directory).2.1.get moment kind).1 = (store.get moment kind).1 := by
  rcases loadDirectory_eq_error failed with unread | ⟨stored, refused, rest, read, before, last, same⟩
  · exact .inl unread
  · right
    have expressible : ∀ script ∈ stored, ∀ node ∈ script.nodes, node.Expressible := fun script member =>
      Script.fromDirectory_expressible read script (List.mem_append_left _ member)
    obtain ⟨valid, able⟩ := (putAll_eq_ok expressible).mp before
    refine ⟨stored, refused, rest, read, last, same, fun script member readable => ?_, fun kind apart moment => ?_⟩
    · have writable : store.backing.Writable := able.resolve_right (List.ne_nil_of_mem member)
      obtain ⟨front, final, back, rfl, named, later⟩ := exists_last (·.name = script.name) ⟨script, member, rfl⟩
      have present : final ∈ front ++ final :: back := by simp
      obtain ⟨blob, encoded, gotten⟩ := get_putting_last (expressible final present) (valid final present) writable
        readable fun other member => named ▸ later other member
      refine ⟨final, present, named, blob, encoded, fun moment => ?_⟩
      rw [same, ← named]
      exact gotten moment
    · rw [same]
      exact get_putting_other apart moment

end Store

/-- A valid script in front of one that is not. -/
private def siding : Files where
  read path := .ok (if path = "yard/a.yaml" then "name: main" else "name: shunt\nlocals: -1").toUTF8
  list _ := .ok [{ name := "a.yaml" }, { name := "b.yaml" }]

private theorem siding_scripts : ∃ first second, Script.fromDirectory siding "yard" = .ok [first, second] ∧
    first.name = "main" ∧ Script.validate (some first) = .ok none ∧ Script.validate (some second) ≠ .ok none := by
  have names : Script.fileNames [{ name := "a.yaml" }, { name := "b.yaml" }] = ["a.yaml", "b.yaml"] :=
    List.mergeSort_of_pairwise (by decide +kernel)
  have front : Script.summary (Script.fromFile siding (Path.join "yard" "a.yaml")) = some (Name.ofText "main", some none) := by
    decide +kernel
  have back : Script.summary (Script.fromFile siding (Path.join "yard" "b.yaml")) =
      some (Name.ofText "shunt", some (some (.violations "shunt" [.negativeLocalCount (-1)]))) := by
    decide +kernel
  obtain ⟨first, one, named, valid⟩ := Script.exists_of_summary front
  obtain ⟨second, two, _, invalid⟩ := Script.exists_of_summary back
  refine ⟨first, second, Script.fromDirectory_eq_ok.mpr ⟨_, rfl, ?_, ?_⟩, named, valid, by simp [invalid]⟩
  · simp [names, one, two]
  · simp [names, one, two, Except.toOption]

private theorem siding_loaded : ∃ first second changed notice error,
    Script.fromDirectory siding "yard" = .ok [first, second] ∧ first.name = "main" ∧
      ({} : Store).put (some first) = (.ok notice, changed) ∧
      ({} : Store).loadDirectory siding "yard" = (.error error, changed, [notice]) := by
  obtain ⟨first, second, read, named, valid, invalid⟩ := siding_scripts
  have expressible : ∀ node ∈ first.nodes, node.Expressible := Script.fromDirectory_expressible read first (by simp)
  obtain ⟨changed, notice, done⟩ : ∃ changed notice, ({} : Store).put (some first) = (.ok notice, changed) :=
    (Store.put_total expressible).mpr ⟨valid, rfl, rfl, rfl, rfl⟩
  obtain ⟨error, refused⟩ : ∃ error, changed.put (some second) = (.error error, changed) := by
    rcases result : changed.put (some second) with ⟨error | notice, after⟩
    · exact ⟨error, by rw [Store.put_eq_error result]⟩
    · exact absurd (Store.put_some_eq_ok result).1 invalid
  refine ⟨first, second, changed, notice, error, read, named, done, ?_⟩
  simp [Store.loadDirectory, read, Store.putAll, done, refused]

theorem loadDirectory_partial_siding :
    ∃ error blob, ∃ final : Script, (({} : Store).loadDirectory siding "yard").1 = .error error ∧ final.name = "main" ∧
      final.encode = .ok blob ∧
      ∀ moment, ((({} : Store).loadDirectory siding "yard").2.1.get moment "main").1 = Script.decode "main" blob := by
  obtain ⟨first, second, changed, notice, error, read, named, done, loaded⟩ := siding_loaded
  have failed : (({} : Store).loadDirectory siding "yard").1 = .error error := by rw [loaded]
  rcases Store.loadDirectory_partial failed with ⟨unread, _⟩ | ⟨stored, refused, rest, again, last, _, bound, _⟩
  · rw [read] at unread
    cases unread
  · rw [read, Except.ok.injEq] at again
    cases stored with
    | nil =>
      cases again
      have stored : (({} : Store).put (some first)).1 = .ok notice := by rw [done]
      cases last.symm.trans stored
    | cons script stored =>
      obtain ⟨rfl, _⟩ := List.cons.inj again
      obtain ⟨final, _, same, blob, encoded, gotten⟩ := bound first List.mem_cons_self ⟨rfl, rfl⟩
      rw [named] at same gotten
      exact ⟨error, blob, final, failed, same, encoded, gotten⟩

/-- A script that is refused leaves the one in front of it stored. -/
theorem loadDirectory_siding :
    ¬∀ (store : Store) (files : Files) (directory : String) (error : Error),
      (store.loadDirectory files directory).1 = .error error → ∀ moment kind,
        ((store.loadDirectory files directory).2.1.get moment kind).1 = (store.get moment kind).1 := by
  intro always
  obtain ⟨first, second, changed, notice, error, _, named, done, loaded⟩ := siding_loaded
  have same := always {} siding "yard" error (by rw [loaded]) .start "main"
  obtain ⟨_, _, blob, _, rfl⟩ := Store.put_some_eq_ok done
  rw [loaded, named, Store.get_holding_self ⟨rfl, rfl⟩] at same
  exact (Script.decode_cause same "main").1 rfl

end Lineside
