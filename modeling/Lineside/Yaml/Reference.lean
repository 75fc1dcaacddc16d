import Lineside.Yaml.Tag

/-!
What written nodes come to. A reference stands for the node that got its anchor last, which must not be one it is part
of. A key `<<` brings in the entries of other mappings; those that are there already stay, and of the others the first of
a key counts.
-/

namespace Lineside.Yaml

/-- What the anchors so far stand for, from the latest one. -/
abbrev Anchors := List (String × Yaml)

namespace Anchors

/-- Nothing can be made of a reference to a node that has not ended. -/
def enter (anchor : Option String) (anchors : Anchors) : Anchors :=
  match anchor with
  | some name => (name, .unfit) :: anchors
  | none => anchors

def leave (anchor : Option String) (node : Yaml) (before anchors : Anchors) : Anchors :=
  match anchor with
  | some name => anchors.set (anchors.length - before.length - 1) (name, node)
  | none => anchors

end Anchors

/-- Entries, and those of another mapping whose keys are not among them. -/
def extended (entries more : List (Yaml × Yaml)) : List (Yaml × Yaml) :=
  entries ++ more.filter fun (key, _) => !entries.any fun (other, _) => other.keyText == key.keyText

def entries? : Yaml → Option (List (Yaml × Yaml))
  | .mapping entries => if keysDiffer entries then some entries else none
  | _ => none

def merged (entries : List (Yaml × Yaml)) : List (List Yaml) → Yaml
  | [] => .mapping entries
  | [sources] =>
    match sources.mapM entries? with
    | some more => if keysDiffer entries then .mapping (more.foldl extended entries) else .unfit
    | none => .unfit
  | _ => .unfit

/-- Keys are texts, whatever they stand for. -/
def key : Yaml → Yaml
  | .binary name => .scalar false name.text
  | .fraction _ text => .scalar false text
  | node => node

namespace Raw

/-- A key that brings in entries. A reference to one is none. -/
def isMerge : Raw → Yaml → Bool
  | .reference _, _ => false
  | _, .scalar true text => text == "<<"
  | _, _ => false

/-- What a key `<<` brings in: a mapping, or several in a list that is written out. -/
def sources : Raw → Yaml → List Yaml
  | .reference _, node => [node]
  | _, .sequence items => items
  | _, node => [node]

mutual

def settle (handles : Handles) : Raw → Anchors → Option (Yaml × Anchors)
  | .scalar plain text, anchors => some (.scalar plain text, anchors)
  | .sequence items, anchors =>
    (settleItems handles items anchors).map fun (items, anchors) => (.sequence items, anchors)
  | .mapping entries, anchors =>
    (settleEntries handles entries anchors).map fun (entries, merges, anchors) => (merged entries merges, anchors)
  | .reference anchor, anchors => (anchors.lookup anchor).map fun node => (node, anchors)
  | .marked anchor tag node, anchors => do
    let tag ← tag.mapM (Tag.resolve handles)
    let (node, later) ← settle handles node (Anchors.enter anchor anchors)
    let node := match tag with
      | some tag => typed tag node
      | none => node
    return (node, Anchors.leave anchor node anchors later)

def settleItems (handles : Handles) : List Raw → Anchors → Option (List Yaml × Anchors)
  | [], anchors => some ([], anchors)
  | item :: rest, anchors => do
    let (item, anchors) ← settle handles item anchors
    let (items, anchors) ← settleItems handles rest anchors
    return (item :: items, anchors)

def settleEntries (handles : Handles) :
    List (Raw × Raw) → Anchors → Option (List (Yaml × Yaml) × List (List Yaml) × Anchors)
  | [], anchors => some ([], [], anchors)
  | (name, value) :: rest, anchors => do
    let (settledName, anchors) ← settle handles name anchors
    let (settledValue, anchors) ← settle handles value anchors
    let (entries, merges, anchors) ← settleEntries handles rest anchors
    if name.isMerge settledName then return (entries, value.sources settledValue :: merges, anchors)
    else return ((settledName.key, settledValue) :: entries, merges, anchors)

end

end Raw

end Lineside.Yaml
