import Lineside.Files.Tree
import Lineside.Proofs.Outcomes

/-! Files that are written. The way to a file leads through directories, and a file is put in place of none, so the same
way leads to it afterwards. -/

namespace Lineside

namespace FileTree

variable {tree : FileTree} {place other next : Place} {node : FileNode}

theorem node?_insert_other (apart : other ≠ place) : (tree.insert place node).node? other = tree.node? other := by
  have same : (tree.nodes.filter (·.1 != place)).lookup other = tree.nodes.lookup other := by
    induction tree.nodes with
    | nil => rfl
    | cons entry nodes ih =>
      obtain ⟨found, under⟩ := entry
      by_cases moved : found = place
      · have kept : (other == place) = false := by simpa using apart
        simpa [moved, List.lookup_cons, kept] using ih
      · simp [moved, List.lookup_cons, ih]
  have first : (other == place) = false := by simpa using apart
  simp [node?, insert, List.lookup_cons, first, same]

theorem node?_insert_self (inside : place.isAround = false) : (tree.insert place node).node? place = some node := by
  simp [node?, insert, inside]

/-- A step leads through a directory. -/
theorem directory_of_step {name : String} (step : tree.step other name = .ok next) :
    tree.node? other = some .directory := by
  unfold FileTree.step at step
  split at step
  next => cases step
  next directory => exact directory
  next => cases step

section Insert

variable (free : tree.node? place ≠ some .directory)
include free

/-- What is put in place of no directory changes no way through directories. -/
theorem step_insert {name : String} (step : tree.step other name = .ok next) :
    (tree.insert place node).step other name = .ok next := by
  have directory := directory_of_step step
  have apart : other ≠ place := by
    rintro rfl
    exact free directory
  rw [FileTree.step, node?_insert_other apart]
  exact step

theorem steps_insert {names : List String} (steps : names.foldlM tree.step other = .ok next) :
    names.foldlM (tree.insert place node).step other = .ok next := by
  induction names generalizing other with
  | nil => exact steps
  | cons name names ih =>
    rw [List.foldlM_cons] at steps ⊢
    obtain ⟨between, step, steps⟩ := bind_eq_ok.mp steps
    rw [step_insert free step]
    exact ih steps

end Insert

theorem step_here (step : tree.step other "." = .ok next) : next = other := by
  rw [FileTree.step, directory_of_step step] at step
  exact (Except.ok.inj step).symm

/-- A path that ends without a slash leads to its last name from the directory that the others lead to. -/
theorem steps_of_ending {path name : String} (ending : tree.ending path = .ok (other, name, false))
    (step : tree.step other name = .ok next) (free : tree.node? next ≠ some .directory) :
    ∃ first names, Path.start path = .ok (first, names) ∧ names.foldlM tree.step first = .ok next := by
  unfold FileTree.ending at ending
  obtain ⟨⟨first, names⟩, start, left⟩ := bind_eq_ok.mp ending
  obtain ⟨around, steps, directory⟩ := bind_eq_ok.mp left
  obtain ⟨here, stays, parts⟩ := bind_eq_ok.mp directory
  simp only [pure_eq_ok, Except.ok.injEq, Prod.mk.injEq, decide_eq_false_iff_not, Nat.not_lt] at parts
  obtain ⟨rfl, rfl, long⟩ := parts
  obtain rfl := step_here stays
  have whole : names.reverse.dropWhile (· == "") = names.reverse := by
    have suffix := List.dropWhile_suffix (· == "") (l := names.reverse)
    refine suffix.eq_of_length (Nat.le_antisymm suffix.length_le ?_)
    simpa using long
  rw [whole, List.reverse_reverse] at steps step
  refine ⟨first, names, start, ?_⟩
  rcases List.eq_nil_or_concat names with rfl | ⟨front, last, rfl⟩
  · obtain rfl := step_here step
    exact absurd (directory_of_step step) free
  · rw [List.concat_eq_append] at steps step ⊢
    rw [List.dropLast_concat] at steps
    rw [List.getLast?_concat, Option.getD_some] at step
    rw [List.foldlM_append, steps, ok_bind, List.foldlM_cons, step]
    rfl

/-- Where something is written, all names of its path lead, and there is no directory. -/
theorem target_eq_ok {path : String} (target : tree.target path = .ok (place, node)) :
    tree.node? place ≠ some .directory ∧
      ∃ first names, Path.start path = .ok (first, names) ∧ names.foldlM tree.step first = .ok place := by
  unfold FileTree.target at target
  obtain ⟨⟨around, name, slashed⟩, ending, written⟩ := bind_eq_ok.mp target
  cases slashed with
  | true => cases written
  | false =>
    simp only [Bool.false_eq_true, if_false] at written
    obtain ⟨next, step, given⟩ := bind_eq_ok.mp written
    have found : tree.node? next ≠ some .directory ∧ next = place := by
      split at given
      next => cases given
      next other free there =>
        exact ⟨by rw [there]; simpa using free, congrArg Prod.fst (Except.ok.inj given)⟩
      next none => exact ⟨by simp [none], congrArg Prod.fst (Except.ok.inj given)⟩
    obtain ⟨free, rfl⟩ := found
    exact ⟨free, steps_of_ending ending step free⟩

/-- A file can be written under the path, once the directory around it is created. A device is none. -/
def Writable (tree : FileTree) (path : String) : Prop :=
  ∃ around place before,
    tree.makeDirectory (Path.parent path) = .ok around ∧ around.target path = .ok (place, .file before)

/-- A text is read back from the file to which it was written. -/
theorem read_write {path : String} {before : ByteArray} (target : tree.target path = .ok (place, .file before))
    (text : String) : ∃ changed, tree.write path text = .ok changed ∧ changed.read path = .ok text.toUTF8 := by
  obtain ⟨free, first, names, start, steps⟩ := target_eq_ok target
  have inside : place.isAround = false := by
    cases around : place.isAround with
    | false => rfl
    | true => exact absurd (if_pos around) free
  have found : (tree.insert place (.file text.toUTF8)).find path = .ok (place, .file text.toUTF8) := by
    simp only [find, start, ok_bind, steps_insert free steps, node?_insert_self inside]
  exact ⟨tree.insert place (.file text.toUTF8), by rw [write, change, target], by rw [read, found]⟩

end FileTree

end Lineside
