import Lineside.Log
import Lineside.Script.Basic
import Lineside.Track.Signal

/-!
The network. It keeps every signal once; a table leads from an id to its signal, an order lists the signals
as they were added, and each head refers back to its own. The train stands before a signal by its id, and
moves along the `next` links.
-/

namespace Lineside

structure Network where
  cells : List Signal := []
  table : List (String × Address) := []
  order : List Address := []
  train : Option Train := none

/-- A head, by the signal that carries it and its place there. -/
structure HeadRef where
  signal : Address
  index : Nat
  deriving DecidableEq, Repr

inductive NetworkError where
  | duplicateSignal (id : String)
  | unknownSignal (id : String)
  deriving DecidableEq, Repr

namespace NetworkError

def message : NetworkError → String
  | .duplicateSignal id => id ++ ": duplicate signal"
  | .unknownSignal id => id ++ ": unknown signal"

end NetworkError

namespace Network

def signalAt (network : Network) (address : Address) : Option Signal := network.cells[address]?

def locate? (network : Network) (id : String) : Option (Address × Signal) :=
  (network.table.lookup id).bind fun address => (network.signalAt address).map fun signal => (address, signal)

def signal? (network : Network) (id : String) : Option Signal := (network.locate? id).map (·.2)

def signals (network : Network) : List Signal := network.order.filterMap network.signalAt

def head? (network : Network) (ref : HeadRef) : Option Head :=
  (network.signalAt ref.signal).bind fun signal => signal.heads[ref.index]?

def heads (network : Network) : List HeadRef :=
  network.order.flatMap fun address =>
    match network.signalAt address with
    | some signal => (List.range signal.heads.length).map fun index => ⟨address, index⟩
    | none => []

def modifySignal (network : Network) (address : Address) (change : Signal → Signal) : Network :=
  { network with cells := network.cells.modify address change }

def modifyHead (network : Network) (ref : HeadRef) (change : Head → Head) : Network :=
  network.modifySignal ref.signal fun signal =>
    { signal with heads := signal.heads.modify ref.index change }

def extended (network : Network) (signal : Signal) : Network :=
  let address := network.cells.length
  { network with
    cells := network.cells ++ [signal.assembled address]
    table := network.table ++ [(signal.id, address)]
    order := network.order ++ [address] }

def add (network : Network) (signal : Signal) : Except NetworkError Unit × Network :=
  match network.table.lookup signal.id with
  | some _ => (.error (.duplicateSignal signal.id), network)
  | none => (.ok (), network.extended signal)

def placeTrain (network : Network) (train : Option Train) : Except NetworkError Unit × Network :=
  match train with
  | none => (.ok (), { network with train := none })
  | some train =>
    match network.signal? train.signal with
    | none => (.error (.unknownSignal train.signal), network)
    | some _ => (.ok (), { network with train := some train })

def releaseBlocks (network : Network) : Network :=
  network.order.foldl (fun network address => network.modifySignal address Signal.released) network

/-- The block behind a signal the train passes is occupied, and no other one is any more. -/
def occupy (network : Network) (address : Address) : Network :=
  network.releaseBlocks.modifySignal address fun signal => { signal with block := .occupied }

structure Moved where
  network : Network
  log : List LogLine := []
  fault : Option Fault := none

/-- Moves the train past the signals it has reached, at most `passes` of them. A train before a signal that
does not exist cannot go on. -/
def pass : Nat → Network → Moved
  | 0, network => { network }
  | passes + 1, network =>
    match network.train with
    | none => { network }
    | some train =>
      if train.distance ≤ 0 then
        match network.locate? train.signal with
        | none => { network := network.releaseBlocks, fault := some .lostTrain }
        | some (address, passed) =>
          let network := network.occupy address
          let line : LogLine := ⟨.debug, "train passed signal " ++ passed.id⟩
          match network.signal? passed.next with
          | none =>
            { network := { network with train := none }
              log := [line, ⟨.debug, "train left the network after signal " ++ passed.id⟩] }
          | some next =>
            let train := { train with signal := next.id, distance := train.distance + passed.length }
            let moved := pass passes { network with train := some train }
            { moved with log := line :: moved.log }
      else { network }

/-- Moves the train for a time in seconds. It passes at most as many signals as there are. -/
def advance (network : Network) (seconds : Float32) : Moved :=
  match network.train with
  | none => { network }
  | some train =>
    let train := { train with distance := train.distance - train.speed * seconds }
    pass network.order.length { network with train := some train }

end Network

end Lineside
