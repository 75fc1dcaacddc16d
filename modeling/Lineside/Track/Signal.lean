import Lineside.Text.Name
import Lineside.Vocabulary.Code

/-!
Signals, the heads mounted on them, and the train. A head refers back to the signal it is mounted on; one
that is mounted nowhere is loose.
-/

namespace Lineside

abbrev Address := Nat

structure Head where
  number : Int64 := 0
  kind : Name
  role : Role := .normal
  aspects : List Aspect := []
  /-- The draw state of an aspect; the first entry for it counts. -/
  drawStates : List (Aspect × Int64) := []
  owner : Option Address := none
  state : Aspect := .stop
  drawState : Int64 := 0
  approachPosition : Option Float32 := none
  approachSpeed : Option Float32 := none
  partialRoute : Bool := false

namespace Head

def freest : List Aspect → Option Aspect
  | [] => none
  | aspect :: rest => some (rest.foldl Aspect.freer aspect)

def strictest : List Aspect → Option Aspect
  | [] => none
  | aspect :: rest => some (rest.foldl Aspect.stricter aspect)

def leastRestrictive (head : Head) : Aspect := (freest head.aspects).getD .clear2

def mostRestrictive (head : Head) : Aspect := (strictest head.aspects).getD .stop

/-- The draw state of an aspect, `-1` where the head has none. -/
def drawStateOf (head : Head) (aspect : Aspect) : Int64 := (head.drawStates.lookup aspect).getD (-1)

/-- The head as it stands on a signal before anything was evaluated. -/
def mount (head : Head) (signal : Address) : Head :=
  { head with owner := some signal, state := head.mostRestrictive }

end Head

structure Signal where
  id : String
  next : String := ""
  opposite : String := ""
  /-- Metres from this signal to the next one. -/
  length : Float32 := 0
  block : Block := .clear
  routeSet : Bool := false
  enabled : Bool := false
  callOn : Bool := false
  callOnRestricted : Bool := false
  features : List Int64 := []
  heads : List Head := []

namespace Signal

def headsOf (signal : Signal) (role : Role) : List Head := signal.heads.filter (·.role == role)

def shown (signal : Signal) (role : Role) : List Aspect := (signal.headsOf role).map (·.state)

def assembled (signal : Signal) (address : Address) : Signal :=
  { signal with heads := signal.heads.map (·.mount address) }

def released (signal : Signal) : Signal :=
  if signal.block = .occupied then { signal with block := .clear } else signal

end Signal

structure Train where
  signal : String
  /-- Metres before that signal. -/
  distance : Float32
  /-- Metres per second. -/
  speed : Float32

end Lineside
