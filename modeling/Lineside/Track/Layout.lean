import Lineside.Document.Text
import Lineside.Files.View

/-!
Layouts: the description of a network as it is written down. Names take the place of codes, a signal is
enabled unless it is disabled, and the links between signals are checked once all of them are known.
-/

namespace Lineside

namespace Layout

structure Head where
  number : Int64 := 0
  kind : Name := ""
  role : String := ""
  aspects : List String := []
  drawStates : List (String × Int64) := []

structure Signal where
  id : String := ""
  next : String := ""
  opposite : String := ""
  length : Float32 := 0
  block : String := ""
  routeSet : Bool := false
  disabled : Bool := false
  callOn : Bool := false
  callOnRestricted : Bool := false
  features : List Int64 := []
  heads : List Head := []

structure Train where
  signal : String := ""
  distance : Float32 := 0
  speed : Float32 := 0

end Layout

structure Layout where
  signals : List Layout.Signal := []
  train : Option Layout.Train := none

namespace Layout

/-- The order in which the entries of a mapping are met, which no mapping promises: how many of the entries behind
it an entry comes after, told from the number of those. -/
abbrev Order := Nat → Nat

def Order.arrange (order : Order) : List α → List α
  | [] => []
  | entry :: rest => (order.arrange rest).insertIdx (order rest.length % (rest.length + 1)) entry

def named : Except UnknownName α → Outcome α := Outcome.because fun unknown => .unknownName unknown.name

def setDrawState (states : List (Aspect × Int64)) (aspect : Aspect) (value : Int64) : List (Aspect × Int64) :=
  (aspect, value) :: states.filter (·.1 != aspect)

/-- Draw states by aspect. Where two names stand for one aspect, the one met later counts. -/
def resolveDrawStates (entries : List (String × Int64)) : Outcome (List (Aspect × Int64)) :=
  entries.foldlM (fun states (name, value) => do
    return setDrawState states (← named (Aspect.ofName name)) value) []

namespace Head

def build (head : Head) (order : Order) : Outcome Lineside.Head := do
  if head.kind = "" then Outcome.fail .missingKind else
  let role ← if head.role = "" then pure Role.normal else named (Role.ofName head.role)
  let aspects ← head.aspects.mapM fun name => named (Aspect.ofName name)
  let drawStates ← resolveDrawStates (order.arrange head.drawStates)
  return { number := head.number, kind := head.kind, role, aspects, drawStates }

end Head

namespace Signal

def buildHead (head : Head) (order : Order) : Outcome Lineside.Head :=
  Outcome.during (.placingHead head.number) (head.build order)

def build (signal : Signal) (orders : Nat → Order) : Outcome Lineside.Signal := do
  if signal.id = "" then Outcome.fail .missingId else
  let block ← if signal.block = "" then pure Block.clear else named (Block.ofName signal.block)
  let heads ← signal.heads.zipIdx.mapM fun (head, place) => buildHead head (orders place)
  return {
    id := signal.id, next := signal.next, opposite := signal.opposite, length := signal.length
    block, routeSet := signal.routeSet, enabled := !signal.disabled
    callOn := signal.callOn, callOnRestricted := signal.callOnRestricted
    features := signal.features, heads }

end Signal

def addSignal (network : Network) (signal : Signal) (orders : Nat → Order) : Outcome Network := do
  let built ← Outcome.during (.placingSignal signal.id) (signal.build orders)
  let (added, network) := network.add built
  Outcome.because .network added
  return network

def checkLink (network : Network) (id : String) (link : Link) (other : String) : Outcome Unit :=
  if other = "" ∨ (network.signal? other).isSome then .ok () else Outcome.fail (.danglingLink id link other)

def checkLinks (network : Network) : Outcome Unit :=
  network.signals.forM fun signal => do
    checkLink network signal.id .next signal.next
    checkLink network signal.id .opposite signal.opposite

def placeTrain (network : Network) : Option Train → Outcome Network
  | none => .ok network
  | some train => do
    let (placed, network) := network.placeTrain (some ⟨train.signal, train.distance, train.speed⟩)
    Outcome.during .placingTrain (Outcome.because .network placed)
    return network

def build (layout : Layout) (orders : Nat → Nat → Order) : Outcome Network := do
  let network ← layout.signals.zipIdx.foldlM (fun network (signal, place) => addSignal network signal (orders place)) {}
  checkLinks network
  placeTrain network layout.train

open Yaml

/-- The entries of a mapping from names to numbers, where null stands for zero. -/
def namedNumbers : Yaml → Option (List (String × Int64))
  | .mapping entries => if keysDiffer entries then foldFields field entries [] else none
  | node => if node.isNullNode then some [] else none
where
  field (name : String) (node : Yaml) (sofar : List (String × Int64)) : Option (List (String × Int64)) := do
    return sofar ++ [(name, ← node.toInt 0)]

namespace Head

def yamlField (key : String) (node : Yaml) (head : Head) : Option Head :=
  match key with
  | "number" => return { head with number := ← node.toInt head.number }
  | "type" => return { head with kind := ← node.toName head.kind }
  | "function" => return { head with role := ← node.toText head.role }
  | "aspects" => return { head with aspects := ← node.toList (toText "") }
  | "draw_states" => return { head with drawStates := ← namedNumbers node }
  | _ => some head

end Head

namespace Signal

def yamlField (key : String) (node : Yaml) (signal : Signal) : Option Signal :=
  match key with
  | "id" => return { signal with id := ← node.toText signal.id }
  | "next" => return { signal with next := ← node.toText signal.next }
  | "opposite" => return { signal with opposite := ← node.toText signal.opposite }
  | "length" => return { signal with length := ← node.toFloat32 signal.length }
  | "block" => return { signal with block := ← node.toText signal.block }
  | "route_set" => return { signal with routeSet := ← node.toBool signal.routeSet }
  | "disabled" => return { signal with disabled := ← node.toBool signal.disabled }
  | "call_on" => return { signal with callOn := ← node.toBool signal.callOn }
  | "call_on_restricted" => return { signal with callOnRestricted := ← node.toBool signal.callOnRestricted }
  | "features" => return { signal with features := ← node.toList (toInt 0) }
  | "heads" => return { signal with heads := ← node.toList (toRecord Head.yamlField {}) }
  | _ => some signal

end Signal

namespace Train

def yamlField (key : String) (node : Yaml) (train : Train) : Option Train :=
  match key with
  | "signal" => return { train with signal := ← node.toText train.signal }
  | "distance" => return { train with distance := ← node.toFloat32 train.distance }
  | "speed" => return { train with speed := ← node.toFloat32 train.speed }
  | _ => some train

end Train

def yamlField (key : String) (node : Yaml) (layout : Layout) : Option Layout :=
  match key with
  | "signals" => return { layout with signals := ← node.toList (toRecord Signal.yamlField {}) }
  | "train" => return { layout with train := ← node.toOptionalRecord Train.yamlField {} }
  | _ => some layout

def load (files : Files) (path : String) (orders : Nat → Nat → Order) : Outcome Network := do
  let bytes ← files.readDuring (.readingLayout path) path
  let layout ← Outcome.during (.parsingLayout path) (readInto yamlField {} bytes)
  Outcome.during (.buildingLayout path) (layout.build orders)

end Layout

end Lineside
