import Lineside.Config.Basic
import Lineside.Engine
import Lineside.Store.Directory
import Lineside.Text.Columns
import Lineside.Track.Layout

/-!
A simulation loads scripts and a layout, and then goes through rounds: every head is evaluated, the
aspects are reported, and the train moves on for one interval.
-/

namespace Lineside

structure Simulation where
  engine : Engine
  interval : Duration
  watched : Option String := none

/-- What happens around a run: at the start of which rounds it is found cancelled, which reports cannot be
written, and at which moments the scripts of a round are looked up, head by head. -/
structure Circumstances where
  cancelled : Nat → Bool := fun _ => false
  unwritable : Nat → Bool := fun _ => false
  moments : Nat → Nat → Moment := fun _ _ => .start

namespace Simulation

def headLine (signal : Signal) (head : Head) : String :=
  "  " ++ signal.id ++ "/" ++ head.number.toInt.repr ++ "\t" ++ head.kind.text ++ "\t" ++
    signal.block.name ++ "\t" ++
    head.state.name ++ "\tdraw=" ++ head.drawState.toInt.repr ++ "\n"

def tickLine (tick : Nat) (train : Option Train) : String :=
  "tick " ++ tick.repr ++
    (match train with
      | some train => "\ttrain " ++ (Binary.ofFloat32 train.distance).text ++ "m before " ++ train.signal
      | none => "") ++ "\n"

def report (network : Network) (tick : Nat) : String :=
  Text.align (tickLine tick network.train ++
    String.join (network.signals.flatMap fun signal => signal.heads.map (headLine signal)))

def loadScripts (files : Files) (config : Config) : Outcome (Store × List Notice) := do
  let store ← Store.opened {} (Cache.new config.scripts.cacheSize config.cacheLifetime)
  let (count, store, notices) := store.loadDirectory files config.scripts.directory
  let _ ← Outcome.during .loadingScripts count
  return (store, notices)

def ofStore (files : Files) (config : Config) (orders : Nat → Nat → Layout.Order) (store : Store) :
    Outcome Simulation := do
  let network ← Layout.load files config.layout orders
  return {
    engine := { network, store := some store, debug := config.engine.scriptDebug }
    interval := config.tickInterval
    watched := if config.scripts.watch then some config.scripts.directory else none }

structure Ran where
  simulation : Simulation
  outcome : Outcome Unit := .ok ()
  reports : List String := []
  events : List EngineEvent := []

def round (simulation : Simulation) (circumstances : Circumstances) (tick : Nat) : Ran :=
  let updated := simulation.engine.updateAt (circumstances.moments tick)
  let simulation := { simulation with engine := updated.engine }
  let events := updated.events
  match updated.fault with
  | some fault => { simulation, events, outcome := Outcome.fail (.incomplete fault) }
  | none =>
    if circumstances.unwritable tick then { simulation, events, outcome := Outcome.fail .writeFailed }
    else
      let (engine, _, fault) := updated.engine.advance simulation.interval.seconds.toFloat32
      { simulation := { simulation with engine }, events, reports := [report updated.engine.network tick]
        outcome := match fault with
          | some fault => Outcome.fail (.incomplete fault)
          | none => .ok () }

/-- Goes through a number of rounds from a tick on, until the run is cancelled or fails. -/
def rounds (circumstances : Circumstances) : Nat → Nat → Simulation → Ran
  | 0, _, simulation => { simulation }
  | count + 1, tick, simulation =>
    if circumstances.cancelled tick then { simulation, outcome := Outcome.fail .canceled }
    else
      let ran := simulation.round circumstances tick
      match ran.outcome with
      | .error error => { ran with outcome := .error error }
      | .ok () =>
        let rest := rounds circumstances count (tick + 1) ran.simulation
        { rest with reports := ran.reports ++ rest.reports, events := ran.events ++ rest.events }

/-- Runs a number of ticks; none where it is not positive. -/
def run (simulation : Simulation) (files : Files) (circumstances : Circumstances) (ticks : Int64) : Ran :=
  match simulation.watched.mapM (Store.watch files) with
  | .error error => { simulation, outcome := .error error }
  | .ok _ => rounds circumstances ticks.toInt.toNat 1 simulation

end Simulation

end Lineside
