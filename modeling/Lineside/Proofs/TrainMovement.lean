import Lineside.Proofs.SignalsAhead

/-! Where a train goes when it is moved, and what it leaves behind. The signals it passes follow one another by
their links, and which they are does not depend on any block. Behind the train the last of them holds its block
occupied, and no other block stays so. -/

namespace Lineside

namespace Signal

/-- The block of a signal after a train has passed some signals, the latest one last. -/
def blockBehind (signal : Signal) (passed : List String) : Block :=
  match passed.getLast? with
  | none => signal.block
  | some latest =>
    if signal.id = latest then .occupied
    else if signal.id ∈ passed ∨ signal.block = .occupied then .clear
    else signal.block

def behind (signal : Signal) (passed : List String) : Signal := { signal with block := signal.blockBehind passed }

@[simp] theorem behind_nil (signal : Signal) : signal.behind [] = signal := rfl

@[simp] theorem id_behind (signal : Signal) (passed : List String) : (signal.behind passed).id = signal.id := rfl

@[simp] theorem next_behind (signal : Signal) (passed : List String) : (signal.behind passed).next = signal.next := rfl

@[simp] theorem block_behind (signal : Signal) (passed : List String) :
    (signal.behind passed).block = signal.blockBehind passed := rfl

@[simp] theorem length_behind (signal : Signal) (passed : List String) :
    (signal.behind passed).length = signal.length := rfl

@[simp] theorem heads_behind (signal : Signal) (passed : List String) : (signal.behind passed).heads = signal.heads := rfl

theorem blockBehind_concat (signal : Signal) (passed : List String) (latest : String) :
    signal.blockBehind (passed ++ [latest]) =
      if signal.id = latest then .occupied
      else if signal.id ∈ passed ∨ signal.block = .occupied then .clear
      else signal.block := by
  by_cases here : signal.id = latest <;> simp [blockBehind, here]

/-- Behind a train that has passed a signal only the last one it has passed is occupied. -/
theorem blockBehind_eq_occupied (signal : Signal) (passed : List String) (latest : String) :
    signal.blockBehind (passed ++ [latest]) = .occupied ↔ signal.id = latest := by
  rw [blockBehind_concat]
  by_cases here : signal.id = latest
  · simp [here]
  · by_cases freed : signal.id ∈ passed ∨ signal.block = .occupied
    · have apart : Block.clear ≠ Block.occupied := by decide
      simp [here, freed, apart]
    · obtain ⟨unseen, free⟩ := not_or.mp freed
      simp [here, unseen, free]

/-- The next signal passed finds every block as those before have left it. -/
theorem blockBehind_behind (signal : Signal) (passed : List String) (latest : String) :
    (signal.behind passed).blockBehind ([] ++ [latest]) = signal.blockBehind (passed ++ [latest]) := by
  rw [blockBehind_concat, blockBehind_concat, id_behind, block_behind]
  rcases passed.eq_nil_or_concat' with rfl | ⟨front, last, rfl⟩
  · rfl
  · rw [blockBehind_concat]
    by_cases held : signal.id = last
    · simp [held]
    · by_cases freed : signal.id ∈ front ∨ signal.block = .occupied
      · have apart : Block.clear ≠ Block.occupied := by decide
        simp [held, freed, apart]
      · obtain ⟨unseen, free⟩ := not_or.mp freed
        simp [held, unseen, free]

theorem behind_behind (signal : Signal) (passed : List String) (latest : String) :
    (signal.behind passed).behind [latest] = signal.behind (passed ++ [latest]) := by
  rw [behind, ← List.nil_append [latest], blockBehind_behind]
  rfl

theorem behind_singleton (signal : Signal) (latest : String) :
    signal.behind [latest] = if signal.id = latest then { signal.released with block := .occupied } else signal.released := by
  have block := signal.blockBehind_concat [] latest
  rw [List.nil_append] at block
  rw [behind, block, released]
  by_cases here : signal.id = latest <;> by_cases held : signal.block = .occupied <;> simp [here, held]

end Signal

namespace Network

variable {network : Network}

/-- The signals that a train passes, at most so many of them, and how it goes on, if it has not left. -/
def course (network : Network) : Nat → Train → List Signal × Option Train
  | 0, train => ([], some train)
  | passes + 1, train =>
    if train.distance ≤ 0 then
      match network.signal? train.signal with
      | none => ([], some train)
      | some passed =>
        match network.signal? passed.next with
        | none => ([passed], none)
        | some next =>
          let (later, going) :=
            network.course passes { train with signal := next.id, distance := train.distance + passed.length }
          (passed :: later, going)
    else ([], some train)

/-- The signals that a train has passed, and where it is now if it has not left. -/
structure Trip (network : Network) (passes : Nat) (train : Train) (passed : List Signal) (going : Option Train) :
    Prop where
  short : passed.length ≤ passes
  along : network.Linked train.signal passed
  left : going = none → ∃ front last, passed = front ++ [last] ∧ network.signal? last.next = none
  before : ∀ now, going = some now → ∃ next, now.signal = next.id ∧ network.Linked train.signal (passed ++ [next])
  stopped : ∀ now, going = some now → now.distance ≤ 0 → passed.length = passes

/-- One more signal in front of a trip. -/
theorem Trip.cons {passes : Nat} {train onward : Train} {passed : Signal} {later : List Signal} {going : Option Train}
    (here : network.signal? train.signal = some passed) (leads : passed.next = onward.signal)
    (trip : network.Trip passes onward later going) : network.Trip (passes + 1) train (passed :: later) going where
  short := Nat.succ_le_succ trip.short
  along := ⟨here, leads ▸ trip.along⟩
  left := by
    intro gone
    obtain ⟨front, last, rfl, ends⟩ := trip.left gone
    exact ⟨passed :: front, last, rfl, ends⟩
  before := by
    intro now standing
    obtain ⟨next, same, linked⟩ := trip.before now standing
    exact ⟨next, same, here, leads ▸ linked⟩
  stopped := fun now standing reached => congrArg (· + 1) (trip.stopped now standing reached)

/-- A train that stays where it is: it has not reached its signal, or may pass no more. -/
theorem Trip.stay (coherent : network.Coherent) {passes : Nat} {train : Train} (standing : train.signal ∈ network.ids)
    (stopped : train.distance ≤ 0 → passes = 0) : network.Trip passes train [] (some train) where
  short := Nat.zero_le passes
  along := trivial
  left := fun gone => by cases gone
  before := by
    intro now same
    cases same
    obtain ⟨next, here⟩ := coherent.exists_signal?.mpr standing
    exact ⟨next, (coherent.signal?_id here).symm, here, trivial⟩
  stopped := by
    intro now same reached
    cases same
    exact (stopped reached).symm

/-- A train that passes the last signal of its line. -/
theorem Trip.leave {passes : Nat} {train : Train} {passed : Signal} (here : network.signal? train.signal = some passed)
    (ends : network.signal? passed.next = none) : network.Trip (passes + 1) train [passed] none where
  short := Nat.succ_le_succ (Nat.zero_le passes)
  along := ⟨here, trivial⟩
  left := fun _ => ⟨[], passed, rfl, ends⟩
  before := fun now going => by cases going
  stopped := fun now going => by cases going

theorem Coherent.trip_course (coherent : network.Coherent) {train : Train} (standing : train.signal ∈ network.ids)
    (passes : Nat) : network.Trip passes train (network.course passes train).1 (network.course passes train).2 := by
  induction passes generalizing train with
  | zero => exact .stay coherent standing fun _ => rfl
  | succ passes ih =>
    obtain ⟨passed, here⟩ := coherent.exists_signal?.mpr standing
    rw [course]
    by_cases reached : train.distance ≤ 0
    · simp only [reached, if_true, here]
      cases leads : network.signal? passed.next with
      | none => exact .leave here leads
      | some next =>
        have onward : next.id ∈ network.ids := coherent.mem_ids_of_signal? leads
        exact .cons here (coherent.signal?_id leads).symm (ih onward)
    · simp only [reached, if_false]
      exact .stay coherent standing fun far => absurd far reached

/-! Releasing blocks. -/

theorem releaseBlocks_eq (network : Network) : network.releaseBlocks = { network with cells := network.releaseBlocks.cells } := by
  have along (addresses : List Address) (network : Network) :
      (addresses.foldl (fun network address => network.modifySignal address Signal.released) network) =
        { network with cells :=
            (addresses.foldl (fun network address => network.modifySignal address Signal.released) network).cells } := by
    induction addresses generalizing network with
    | nil => rfl
    | cons first rest ih =>
      rw [List.foldl_cons, ih]
      rfl
  exact along network.order network

theorem signalAt_releaseBlocks (network : Network) (address : Address) :
    network.releaseBlocks.signalAt address = (network.signalAt address).map fun signal =>
      if address ∈ network.order then signal.released else signal := by
  have twice (signal : Signal) : signal.released.released = signal.released := by
    unfold Signal.released
    split <;> simp_all
  have along (addresses : List Address) (network : Network) :
      (addresses.foldl (fun network address => network.modifySignal address Signal.released) network).signalAt address =
        (network.signalAt address).map fun signal => if address ∈ addresses then signal.released else signal := by
    induction addresses generalizing network with
    | nil => simp
    | cons first rest ih =>
      rw [List.foldl_cons, ih, signalAt_modifySignal, Option.map_map]
      congr 1
      funext signal
      by_cases here : first = address <;> by_cases later : address ∈ rest <;>
        simp [here, later, twice, Ne.symm, List.mem_cons]
  exact along network.order network

theorem ext_signalAt {one two : Network} (table : one.table = two.table) (order : one.order = two.order)
    (train : one.train = two.train) (signals : ∀ address, one.signalAt address = two.signalAt address) : one = two := by
  obtain ⟨cells, _, _, _⟩ := one
  obtain ⟨others, _, _, _⟩ := two
  obtain rfl : cells = others := List.ext_getElem? signals
  cases table
  cases order
  cases train
  rfl

/-- The network once a train has passed some signals. -/
def trailed (network : Network) (passed : List Signal) (train : Option Train) : Network :=
  { network with cells := network.cells.map (·.behind (passed.map (·.id))), train }

theorem trailed_nil (network : Network) (train : Option Train) : network.trailed [] train = { network with train } := by
  simp [trailed]

@[simp] theorem train_trailed (network : Network) (passed : List Signal) (train : Option Train) :
    (network.trailed passed train).train = train := rfl

theorem signalAt_trailed (network : Network) (passed : List Signal) (train : Option Train) (address : Address) :
    (network.trailed passed train).signalAt address = (network.signalAt address).map (·.behind (passed.map (·.id))) :=
  List.getElem?_map

theorem locate?_trailed (network : Network) (passed : List Signal) (train : Option Train) (id : String) :
    (network.trailed passed train).locate? id =
      (network.locate? id).map fun found => (found.1, found.2.behind (passed.map (·.id))) := by
  have table : (network.trailed passed train).table = network.table := rfl
  simp only [locate?, table, signalAt_trailed]
  cases network.table.lookup id with
  | none => rfl
  | some address => simp [Function.comp_def]

theorem signal?_trailed (network : Network) (passed : List Signal) (train : Option Train) (id : String) :
    (network.trailed passed train).signal? id = (network.signal? id).map (·.behind (passed.map (·.id))) := by
  simp only [signal?, locate?_trailed, Option.map_map, Function.comp_def]

theorem signals_trailed (network : Network) (passed : List Signal) (train : Option Train) :
    (network.trailed passed train).signals = network.signals.map (·.behind (passed.map (·.id))) := by
  have order : (network.trailed passed train).order = network.order := rfl
  simp only [signals, order, signalAt_trailed, List.map_filterMap]

theorem Coherent.occupy_trailed (coherent : network.Coherent) (passed : List Signal) (train : Option Train) {latest : Signal}
    {address : Address} (there : network.signalAt address = some latest) :
    (network.trailed passed train).occupy address = network.trailed (passed ++ [latest]) train := by
  have fields := releaseBlocks_eq (network.trailed passed train)
  have table : (network.trailed passed train).releaseBlocks.table = network.table := by
    rw [fields]
    rfl
  have listed : (network.trailed passed train).releaseBlocks.order = network.order := by
    rw [fields]
    rfl
  have standing : (network.trailed passed train).releaseBlocks.train = train := by
    rw [fields]
    rfl
  refine ext_signalAt table listed standing fun other => ?_
  have order : (network.trailed passed train).order = network.order := rfl
  rw [Network.occupy, signalAt_modifySignal, signalAt_releaseBlocks, signalAt_trailed, signalAt_trailed, order]
  cases here : network.signalAt other with
  | none => rfl
  | some signal =>
    have same : address = other ↔ signal.id = latest.id := by
      constructor
      · rintro rfl
        rw [Option.some.inj (here.symm.trans there)]
      · exact fun same => (coherent.address_unique here there same).symm
    rw [Option.map_some, Option.map_some, Option.map_some, Option.map_some, if_pos (coherent.mem_order here),
      List.map_append, List.map_singleton, ← Signal.behind_behind, Signal.behind_singleton, Signal.id_behind]
    simp only [same]

/-- What the log says of the signals a train has passed, and of its leaving. -/
def passages (passed : List Signal) (going : Option Train) : List LogLine :=
  passed.map (fun signal => ⟨.debug, "train passed signal " ++ signal.id⟩) ++
    match going, passed.getLast? with
    | none, some last => [⟨.debug, "train left the network after signal " ++ last.id⟩]
    | _, _ => []

theorem passages_cons {passed : Signal} {later : List Signal} {going : Option Train}
    (left : going = none → later ≠ []) :
    passages (passed :: later) going = ⟨.debug, "train passed signal " ++ passed.id⟩ :: passages later going := by
  cases later with
  | nil =>
    cases going with
    | none => exact absurd rfl (left rfl)
    | some now => rfl
  | cons next rest => cases going <;> simp [passages]

/-- Moving a train past signals is its course, with blocks and log lines behind it. -/
theorem Coherent.pass_trailed (coherent : network.Coherent) {train : Train} (standing : train.signal ∈ network.ids)
    (passes : Nat) (before : List Signal) :
    (network.trailed before (some train)).pass passes =
      { network := network.trailed (before ++ (network.course passes train).1) (network.course passes train).2
        log := passages (network.course passes train).1 (network.course passes train).2 } := by
  -- No passage changes a link, so the course of the network as it was before all of them goes on.
  induction passes generalizing train before with
  | zero => simp [Network.pass, course, passages]
  | succ passes ih =>
    obtain ⟨passed, here⟩ := coherent.exists_signal?.mpr standing
    obtain ⟨address, located⟩ := signal?_eq_some_iff_locate?.mp here
    have there : (network.trailed before (some train)).locate? train.signal =
        some (address, passed.behind (before.map (·.id))) := by
      rw [locate?_trailed, located, Option.map_some]
    have occupied := coherent.occupy_trailed before (some train) (Network.locate?_eq_some.mp located).2
    rw [Network.pass, course]
    by_cases reached : train.distance ≤ 0
    · simp only [train_trailed, reached, if_true, there, here, Signal.id_behind, Signal.next_behind, Signal.length_behind,
        occupied, signal?_trailed]
      cases leads : network.signal? passed.next with
      | none => simp [trailed, passages]
      | some next =>
        have onward : (Train.mk next.id (train.distance + passed.length) train.speed).signal ∈ network.ids :=
          coherent.mem_ids_of_signal? leads
        have going := ih onward (before ++ [passed])
        simp only [Option.map_some, Signal.id_behind]
        rw [passages_cons]
        · rw [trailed] at going ⊢
          rw [going]
          simp
        · intro gone empty
          obtain ⟨front, last, same, _⟩ := (coherent.trip_course onward passes).left gone
          simp [same] at empty
    · simp [reached, passages, train_trailed]

/-! Moving a train for a time. -/

/-- The course of the network's train when it is moved for a time in seconds. -/
def travel (network : Network) (seconds : Float32) : List Signal × Option Train :=
  match network.train with
  | none => ([], none)
  | some train =>
    network.course network.order.length { train with distance := train.distance - train.speed * seconds }

/-- The signals that the train passes when it is moved for a time. -/
def passed (network : Network) (seconds : Float32) : List Signal := (network.travel seconds).1

theorem Coherent.advance_eq (coherent : network.Coherent) (seconds : Float32) :
    network.advance seconds =
      { network := network.trailed (network.passed seconds) (network.travel seconds).2
        log := passages (network.passed seconds) (network.travel seconds).2 } := by
  rw [Network.advance, passed, travel]
  cases standing : network.train with
  | none => simp [trailed_nil, ← standing, passages]
  | some train =>
    have before : train.signal ∈ network.ids := coherent.train_mem standing
    have nearer : (Train.mk train.signal (train.distance - train.speed * seconds) train.speed).signal ∈ network.ids :=
      before
    have moved := coherent.pass_trailed nearer network.order.length []
    rwa [trailed_nil, List.nil_append] at moved

theorem Coherent.trip (coherent : network.Coherent) {train : Train} (standing : network.train = some train)
    (seconds : Float32) :
    network.Trip network.signals.length train (network.passed seconds) (network.travel seconds).2 := by
  rw [← coherent.length_order]
  have before : train.signal ∈ network.ids := coherent.train_mem standing
  have nearer : (Train.mk train.signal (train.distance - train.speed * seconds) train.speed).signal ∈ network.ids :=
    before
  rw [passed, travel, standing]
  exact { coherent.trip_course nearer network.order.length with }

/-- Along the links from a name no signal comes twice. -/
def Unrepeating (network : Network) (id : String) : Prop :=
  ∀ path, network.Linked id path → (path.map (·.id)).Nodup

theorem Linked.behind {id : String} {front rest : List Signal} {signal : Signal}
    (linked : network.Linked id (front ++ signal :: rest)) : network.Linked signal.next rest := by
  induction front generalizing id with
  | nil => exact linked.2
  | cons first front ih => exact ih linked.2

theorem Linked.length_le {id : String} {path : List Signal} (linked : network.Linked id path)
    (distinct : (path.map (·.id)).Nodup) : path.length ≤ network.cells.length := by
  have bound := distinct.length_le_of_subset (List.map_subset Signal.id linked.subset)
  simpa only [List.length_map] using bound

/-- On a line without loops there are always enough passes left: a train that is not gone has come to a stop before
its signal. -/
theorem Trip.unhindered (coherent : network.Coherent) {train now : Train} {passed : List Signal} {going : Option Train}
    (trip : network.Trip network.signals.length train passed going) (line : network.Unrepeating train.signal)
    (standing : going = some now) : ¬ now.distance ≤ 0 := by
  intro reached
  obtain ⟨next, _, linked⟩ := trip.before now standing
  -- With all passes used up, the line would be longer than the network.
  have long := trip.stopped now standing reached
  have bound := linked.length_le (line _ linked)
  rw [List.length_append, long, coherent.signals_eq] at bound
  exact Nat.not_succ_le_self _ bound

/-- What is left once the train has been moved and has passed some signals. -/
structure Journey (network : Network) (passed : List Signal) (moved : Network) : Prop where
  bounded : passed.length ≤ network.signals.length
  /-- Nothing but blocks has changed on the signals. -/
  kept : moved.signals.map (fun signal => { signal with block := .clear }) =
    network.signals.map fun signal => { signal with block := .clear }
  unmoved : passed = [] → moved.signals = network.signals
  occupied : ∀ front last, passed = front ++ [last] →
    ∀ signal ∈ moved.signals, signal.block = .occupied ↔ signal.id = last.id
  absent : network.train = none → passed = [] ∧ moved.train = none
  along : ∀ train, network.train = some train → network.Linked train.signal passed
  before : ∀ train now, network.train = some train → moved.train = some now →
    ∃ next, now.signal = next.id ∧ network.Linked train.signal (passed ++ [next])
  left : ∀ train, network.train = some train →
    (moved.train = none ↔ ∃ front last, passed = front ++ [last] ∧ network.signal? last.next = none)
  unhindered : ∀ train now, network.train = some train → network.Unrepeating train.signal → moved.train = some now →
    ¬ now.distance ≤ 0

theorem Coherent.journey (coherent : network.Coherent) (seconds : Float32) :
    network.Journey (network.passed seconds) (network.advance seconds).network := by
  rw [coherent.advance_eq]
  have trip {train : Train} (standing : network.train = some train) := coherent.trip standing seconds
  constructor
  case bounded =>
    cases standing : network.train with
    | none => simp [passed, travel, standing]
    | some train => exact (trip standing).short
  case kept => simp [signals_trailed, Signal.behind, Function.comp_def]
  case unmoved =>
    intro none
    simp [signals_trailed, none]
  case occupied =>
    intro front last latest signal member
    rw [latest, signals_trailed, List.map_append, List.map_singleton] at member
    obtain ⟨earlier, _, rfl⟩ := List.mem_map.mp member
    exact earlier.blockBehind_eq_occupied (front.map (·.id)) last.id
  case absent =>
    intro nobody
    simp [passed, travel, nobody]
  case along => exact fun train standing => (trip standing).along
  case before => exact fun train now standing => (trip standing).before now
  case left =>
    intro train standing
    refine ⟨(trip standing).left, ?_⟩
    rintro ⟨front, last, latest, ends⟩
    -- A train that stays stands before a signal, and the last one passed leads to it.
    by_contra staying
    obtain ⟨now, going⟩ := Option.ne_none_iff_exists'.mp staying
    obtain ⟨next, _, linked⟩ := (trip standing).before now going
    rw [latest, List.append_assoc] at linked
    have leads : network.signal? last.next = some next := linked.behind.1
    rw [ends] at leads
    cases leads
  case unhindered => exact fun train now standing line going => (trip standing).unhindered coherent line going

/-- In a network that a layout describes, wherever trains have been put since and whatever has been done, a train that
is moved follows the links, passes no more signals than there are, and goes on before the next signal or leaves behind
the last. The log tells the signals it passes, of which the latest alone is occupied afterwards. Nothing is assumed of
the arithmetic on distances. -/
theorem advance_journey {layout : Layout} {orders : Nat → Nat → Layout.Order} {start : Network}
    (built : layout.build orders = .ok start) (calls : List TrackCall)
    (seconds : Float32) :
    ((start.run calls).advance seconds).fault = none ∧
    (start.run calls).Journey ((start.run calls).passed seconds) ((start.run calls).advance seconds).network ∧
    ((start.run calls).advance seconds).log =
      passages ((start.run calls).passed seconds) ((start.run calls).advance seconds).network.train := by
  have coherent : (start.run calls).Coherent := (Layout.build_coherent built).run calls
  refine ⟨(coherent.advance seconds).2, coherent.journey seconds, ?_⟩
  rw [coherent.advance_eq, train_trailed]

end Network

/-- A line into a loop, and a train that is fast enough to come back to where it has been. -/
private def balloon : Layout where
  signals := [
    { id := "entry", next := "east", length := 40, block := "JN_OBSTRUCTED" },
    { id := "east", next := "west", length := 30, heads := [{ kind := "main" }] },
    { id := "west", next := "east", length := 20 },
    { id := "siding", block := "OCCUPIED" }]
  train := some { signal := "entry", distance := 50, speed := 20 }

theorem advance_journey_balloon :
    ∃ start, balloon.build (fun _ _ _ => 0) = .ok start ∧ (start.passed 8).map (·.id) = ["entry", "east", "west", "east"] ∧
      start.Journey (start.passed 8) (start.advance 8).network ∧ (start.advance 8).fault = none := by
  have built : balloon.build (fun _ _ _ => 0) = .ok _ := rfl
  refine ⟨_, built, by decide, ?_⟩
  obtain ⟨sound, journey, _⟩ := Network.advance_journey built [] 8
  exact ⟨journey, sound⟩

end Lineside
