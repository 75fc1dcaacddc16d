import Lineside.Script.Evaluation
import Lineside.Store.Basic

/-!
The engine runs the script of every head once a tick. A head without a script gets a fallback aspect: its
least restrictive one where its block is clear, and its most restrictive one otherwise. A fault ends the
evaluation it arises in; what was written before it stays.
-/

namespace Lineside

structure Counters where
  scripts : Nat := 0
  fallbacks : Nat := 0
  returns : Nat := 0
  ticks : Nat := 0
  deriving DecidableEq, Repr

namespace Counters

def evaluations (counters : Counters) : Nat := counters.scripts + counters.fallbacks

end Counters

/-- What the engine reports of a head: its signal type, and its state at that moment. -/
inductive EngineEvent where
  | fallback (kind : Name) (state : Aspect)
  | returned (kind : Name) (state : Aspect)
  deriving DecidableEq, Repr

structure Engine where
  network : Network := {}
  /-- Without a store no head has a script. -/
  store : Option Store := some {}
  counters : Counters := {}
  debug : Bool := false

structure Evaluated where
  engine : Engine
  subject : Subject
  fault : Option Fault := none
  events : List EngineEvent := []
  log : List LogLine := []
  /-- What the script did, the latest first. -/
  deeds : List Deed := []

namespace Scene

def fallback (scene : Scene) : Aspect :=
  if scene.block = .clear then scene.leastRestrictive else scene.mostRestrictive

end Scene

namespace Engine

def count (engine : Engine) (change : Counters → Counters) : Engine :=
  { engine with counters := change engine.counters }

def settle (engine : Engine) (scene : Scene) : Engine := { engine with network := scene.network }

def applyFallback (engine : Engine) (subject : Subject) : Evaluated :=
  let scene : Scene := { network := engine.network, subject }
  let scene := scene.setState scene.fallback
  { engine := (engine.settle scene).count fun counters =>
      { counters with fallbacks := counters.fallbacks + 1 }
    subject := scene.subject
    events := [.fallback scene.kind scene.state] }

def runScript (engine : Engine) (subject : Subject) (script : Script) : Evaluated :=
  match Locals.fresh script.localCount with
  | .error fault => { engine, subject, fault := some fault }
  | .ok locals =>
    let scene : Scene := { network := engine.network, subject }
    let start : Invocation := { scene, locals, debug := engine.debug }
    let (outcome, final) := (runNodes script.nodes).run.run start
    let scene := final.scene
    let engine := engine.settle scene
    let evaluated : Evaluated :=
      { engine, subject := scene.subject, log := final.log, deeds := final.deeds }
    match outcome with
    | .error fault => { evaluated with fault := some fault }
    | .ok true =>
      { evaluated with
        engine := engine.count fun counters => { counters with scripts := counters.scripts + 1 } }
    | .ok false =>
      { evaluated with
        engine := engine.count fun counters =>
          { counters with scripts := counters.scripts + 1, returns := counters.returns + 1 }
        events := [.returned scene.kind scene.state] }

def evaluate (engine : Engine) (subject : Subject) : Option Script → Evaluated
  | none => engine.applyFallback subject
  | some script => engine.runScript subject script

/-- The script of a signal type, if the engine's store has one that can be used. -/
def lookup (engine : Engine) (moment : Moment) (kind : Name) : Option Script × Engine × List LogLine :=
  match engine.store with
  | none => (none, engine, [])
  | some store =>
    let (script, store, notices) := store.lookup moment kind
    (script, { engine with store := some store }, Notice.lines notices)

def visit (engine : Engine) (moment : Moment) (subject : Subject) : Evaluated :=
  let scene : Scene := { network := engine.network, subject }
  let (script, engine, lines) := engine.lookup moment scene.kind
  let evaluated := engine.evaluate subject script
  { evaluated with log := lines ++ evaluated.log }

def tick (engine : Engine) : Engine :=
  engine.count fun counters => { counters with ticks := counters.ticks + 1 }

/-- A head whose turn comes in a tick, and the moment at which its script is looked up. -/
structure Turn where
  subject : Subject
  moment : Moment

structure Updated where
  engine : Engine
  subjects : List Subject := []
  fault : Option Fault := none
  events : List EngineEvent := []
  log : List LogLine := []

/-- Evaluates heads in order. A fault leaves the remaining heads and the tick count alone. -/
def updateAll : List Turn → Engine → Updated
  | [], engine => { engine := engine.tick }
  | turn :: rest, engine =>
    let evaluated := engine.visit turn.moment turn.subject
    match evaluated.fault with
    | some fault =>
      { engine := evaluated.engine, subjects := evaluated.subject :: rest.map (·.subject), fault := some fault
        events := evaluated.events, log := evaluated.log }
    | none =>
      let updated := updateAll rest evaluated.engine
      { updated with
        subjects := evaluated.subject :: updated.subjects
        events := evaluated.events ++ updated.events
        log := evaluated.log ++ updated.log }

/-- Evaluates every head of the network, each at the moment of its turn. -/
def updateAt (engine : Engine) (moments : Nat → Moment) : Updated :=
  updateAll (engine.network.heads.mapIdx fun turn ref => ⟨.mounted ref, moments turn⟩) engine

def update (engine : Engine) (now : Instant) : Updated := engine.updateAt fun _ => .instant now

def advance (engine : Engine) (seconds : Float32) : Engine × List LogLine × Option Fault :=
  let moved := engine.network.advance seconds
  ({ engine with network := moved.network }, moved.log, moved.fault)

end Engine

end Lineside
