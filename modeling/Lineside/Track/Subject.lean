import Lineside.Number.Binary
import Lineside.Script.Basic
import Lineside.Track.Network

/-!
The head a script drives. It is usually mounted in the network; it may also be a loose head, or a head
of another kind that only answers for itself and keeps a list of what was written to it.
-/

namespace Lineside

structure ForeignHead where
  kind : Name := ""
  state : Aspect := .stop
  drawState : Int64 := 0
  enabled : Bool := false
  block : Block := .clear
  approachPosition : Option Float32 := none
  approachSpeed : Option Float32 := none
  leastRestrictive : Aspect := .stop
  mostRestrictive : Aspect := .stop
  /-- Every write so far, in order. -/
  writes : List (Slot × Int64) := []

namespace ForeignHead

def setState (head : ForeignHead) (aspect : Aspect) : ForeignHead :=
  { head with state := aspect, writes := head.writes ++ [(.state, aspect.code)] }

def setDrawState (head : ForeignHead) (value : Int64) : ForeignHead :=
  { head with drawState := value, writes := head.writes ++ [(.drawState, value)] }

end ForeignHead

inductive Subject where
  | mounted (ref : HeadRef)
  | loose (head : Head)
  | foreign (head : ForeignHead)

structure Scene where
  network : Network
  subject : Subject

namespace Scene

def head? (scene : Scene) : Option Head :=
  match scene.subject with
  | .mounted ref => scene.network.head? ref
  | .loose head => some head
  | .foreign _ => none

def own? (scene : Scene) : Option (Signal × Head) :=
  scene.head?.bind fun head => (head.owner.bind scene.network.signalAt).map fun signal => (signal, head)

def kind (scene : Scene) : Name :=
  match scene.subject with
  | .foreign head => head.kind
  | _ => (scene.head?.map (·.kind)).getD ""

def state (scene : Scene) : Aspect :=
  match scene.subject with
  | .foreign head => head.state
  | _ => (scene.head?.map (·.state)).getD .stop

def drawState (scene : Scene) : Int64 :=
  match scene.subject with
  | .foreign head => head.drawState
  | _ => (scene.head?.map (·.drawState)).getD 0

def leastRestrictive (scene : Scene) : Aspect :=
  match scene.subject with
  | .foreign head => head.leastRestrictive
  | _ => (scene.head?.map (·.leastRestrictive)).getD .stop

def mostRestrictive (scene : Scene) : Aspect :=
  match scene.subject with
  | .foreign head => head.mostRestrictive
  | _ => (scene.head?.map (·.mostRestrictive)).getD .stop

def approachPosition (scene : Scene) : Option Float32 :=
  match scene.subject with
  | .foreign head => head.approachPosition
  | _ => scene.head?.bind (·.approachPosition)

def approachSpeed (scene : Scene) : Option Float32 :=
  match scene.subject with
  | .foreign head => head.approachSpeed
  | _ => scene.head?.bind (·.approachSpeed)

/-- A loose head has no signal to be enabled with. -/
def enabled (scene : Scene) : Except Fault Bool :=
  match scene.subject with
  | .foreign head => .ok head.enabled
  | _ => match scene.own? with
    | some (signal, _) => .ok signal.enabled
    | none => .error .looseHead

def headBlock (scene : Scene) : Except Fault Block :=
  match scene.subject with
  | .foreign head => .ok head.block
  | _ => match scene.own? with
    | some (signal, _) => .ok signal.block
    | none => .error .looseHead

def modifyHead (scene : Scene) (change : Head → Head) : Scene :=
  match scene.subject with
  | .mounted ref => { scene with network := scene.network.modifyHead ref change }
  | .loose head => { scene with subject := .loose (change head) }
  | .foreign _ => scene

def setState (scene : Scene) (aspect : Aspect) : Scene :=
  match scene.subject with
  | .foreign head => { scene with subject := .foreign (head.setState aspect) }
  | _ => scene.modifyHead fun head => { head with state := aspect }

def setDrawState (scene : Scene) (value : Int64) : Scene :=
  match scene.subject with
  | .foreign head => { scene with subject := .foreign (head.setDrawState value) }
  | _ => scene.modifyHead fun head => { head with drawState := value }

/-- The value of a slot. An approach limit that was never requested reads as `-1`. -/
def slotValue (scene : Scene) : Slot → Except Fault Int64
  | .state => .ok scene.state.code
  | .drawState => .ok scene.drawState
  | .enabled => scene.enabled.map fun enabled => if enabled then 1 else 0
  | .blockState => scene.headBlock.map (·.code)
  | .approachPosition => .ok (limit scene.approachPosition)
  | .approachSpeed => .ok (limit scene.approachSpeed)
where
  limit : Option Float32 → Int64
    | some value => (Binary.ofFloat32 value).toInt64
    | none => -1

end Scene

end Lineside
