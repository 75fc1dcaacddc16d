import Lineside.Track.Subject

/-!
What the functions of the script language ask of the network. Every question is asked for one head, and
a head that is not mounted gets the safe answer: an occupied block, `STOP`, no.
-/

namespace Lineside

namespace Network

/-- The signals reached by following `next` from a name, without entering one that was seen. -/
def follow (network : Network) : Nat → List String → String → List Signal
  | 0, _, _ => []
  | steps + 1, seen, id =>
    match network.signal? id with
    | none => []
    | some signal =>
      if signal.id ∈ seen then []
      else signal :: network.follow steps (signal.id :: seen) signal.next

/-- The signals ahead of a signal, each of them once and never the signal itself. -/
def ahead (network : Network) (signal : Signal) : List Signal :=
  network.follow network.cells.length [signal.id] signal.next

def trainBefore (network : Network) (signal : Signal) : Option Train :=
  network.train.filter (·.signal == signal.id)

end Network

namespace Scene

def block (scene : Scene) : Block :=
  match scene.own? with
  | some (signal, _) => signal.block
  | none => .occupied

def routeSet (scene : Scene) : Bool :=
  match scene.own? with
  | some (signal, _) => signal.routeSet
  | none => false

def ahead (scene : Scene) : List Signal :=
  match scene.own? with
  | some (signal, _) => scene.network.ahead signal
  | none => []

/-- The aspects of a role on the `count`-th signal ahead that has heads of that role. -/
def nthAspects (scene : Scene) (role : Role) (count : Int64) : List Aspect :=
  let carrying := scene.ahead.filter fun signal => !(signal.headsOf role).isEmpty
  match carrying[(count.toInt - 1).toNat]? with
  | some signal => signal.shown role
  | none => []

def nextLeast (scene : Scene) (role : Role) (count : Int64) : Aspect :=
  (Head.freest (scene.nthAspects role count)).getD .stop

def nextMost (scene : Scene) (role : Role) : Aspect :=
  (Head.strictest (scene.nthAspects role 1)).getD .stop

def thisAspects (scene : Scene) (role : Role) : List Aspect :=
  match scene.own? with
  | some (signal, _) => signal.shown role
  | none => []

def thisLeast (scene : Scene) (role : Role) : Option Aspect := Head.freest (scene.thisAspects role)

def thisMost (scene : Scene) (role : Role) : Option Aspect := Head.strictest (scene.thisAspects role)

def oppositeAspects (scene : Scene) (role : Role) : List Aspect :=
  match scene.own? with
  | some (signal, _) =>
    match scene.network.signal? signal.opposite with
    | some opposite => opposite.shown role
    | none => []
  | none => []

def oppositeLeast (scene : Scene) (role : Role) : Aspect :=
  (Head.freest (scene.oppositeAspects role)).getD .stop

def oppositeMost (scene : Scene) (role : Role) : Aspect :=
  (Head.strictest (scene.oppositeAspects role)).getD .stop

/-- The most restrictive aspect of one role before the first signal that has a head of another. -/
def distantMost (scene : Scene) (role stopRole : Role) : Aspect :=
  let before := scene.ahead.takeWhile fun signal => (signal.headsOf stopRole).isEmpty
  (Head.strictest (before.flatMap (·.shown role))).getD .stop

def feature (scene : Scene) (feature : Int64) : Bool :=
  match scene.own? with
  | some (signal, _) => signal.features.contains feature
  | none => false

/-- Requests release within a distance, and tells whether the train is that near. -/
def requestPosition (scene : Scene) (distance : Int64) : Bool × Scene :=
  match scene.own? with
  | none => (false, scene)
  | some (signal, _) =>
    let position := distance.toFloat32
    let near := match scene.network.trainBefore signal with
      | some train => decide (train.distance ≤ position)
      | none => false
    (near, scene.modifyHead fun head => { head with approachPosition := some position })

def requestSpeed (scene : Scene) (distance speed : Int64) : Bool × Scene :=
  match scene.own? with
  | none => (false, scene)
  | some (signal, _) =>
    let position := distance.toFloat32
    let limit := speed.toFloat32
    let near := match scene.network.trainBefore signal with
      | some train => decide (train.distance ≤ position) && decide (train.speed ≤ limit)
      | none => false
    (near, scene.modifyHead fun head =>
      { head with approachPosition := some position, approachSpeed := some limit })

def callOn (scene : Scene) (restricted : Bool) : Bool :=
  match scene.own? with
  | none => false
  | some (signal, _) =>
    (scene.network.trainBefore signal).isSome &&
      (if restricted then signal.callOnRestricted else signal.callOn)

def hasHead (scene : Scene) (number : Int64) : Bool :=
  match scene.own? with
  | some (signal, _) => signal.heads.any (·.number == number)
  | none => false

/-- The head's draw state for an aspect, `-1` where there is none. -/
def defaultDrawState (scene : Scene) (aspect : Aspect) : Int64 :=
  match scene.own? with
  | some (_, head) => head.drawStateOf aspect
  | none => -1

def allowPartialRoute (scene : Scene) (allow : Bool) : Scene :=
  match scene.own? with
  | some _ => scene.modifyHead fun head => { head with partialRoute := allow }
  | none => scene

end Scene

end Lineside
