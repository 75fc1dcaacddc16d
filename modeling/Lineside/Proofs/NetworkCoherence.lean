import Lineside.Proofs.HeadFrame
import Lineside.Proofs.Outcomes
import Lineside.Track.Layout
import Mathlib.Data.List.Induction
import Mathlib.Data.List.Nodup

/-! A network stays in one piece. Whatever is added, moved or evaluated, its table, its order and the references of
its heads agree: every signal is found under its own id and under no other, its heads refer back to it, and the train
stands before a signal that exists. A train is therefore never lost on its way. -/

namespace Lineside

/-- The items at all places of a list. -/
theorem filterMap_getElem?_range {α : Type} (items : List α) :
    (List.range items.length).filterMap (items[·]?) = items := by
  induction items using List.reverseRecOn with
  | nil => rfl
  | append_singleton items item ih =>
    have front : (List.range items.length).filterMap ((items ++ [item])[·]?) = items := by
      conv_rhs => rw [← ih]
      apply List.filterMap_congr
      intro place inside
      exact List.getElem?_append_left (List.mem_range.mp inside)
    rw [List.length_append, List.length_singleton, List.range_succ, List.filterMap_append, front]
    simp

/-- What other parts of a network rely on in a signal: its id, and what its heads refer back to. -/
def Signal.outline (signal : Signal) : String × List (Option Address) := (signal.id, signal.heads.map (·.owner))

namespace Network

variable {network changed : Network}

/-- The ids in the order in which the signals were added. -/
def ids (network : Network) : List String := network.signals.map (·.id)

/-- The table, the order, the references of the heads and the train agree with each other. -/
structure Coherent (network : Network) : Prop where
  /-- Every signal is listed once. -/
  ordered : network.order = List.range network.cells.length
  distinct : network.ids.Nodup
  keys : network.table.map (·.1) = network.ids
  found : ∀ id address, network.table.lookup id = some address ↔
    ∃ signal, network.signalAt address = some signal ∧ signal.id = id
  mounted : ∀ address signal, network.signalAt address = some signal → ∀ head ∈ signal.heads, head.owner = some address
  placed : ∀ train, network.train = some train → ∃ signal, network.signal? train.signal = some signal

theorem signal?_eq_some_iff_locate? {id : String} {signal : Signal} :
    network.signal? id = some signal ↔ ∃ address, network.locate? id = some (address, signal) := by
  simp [signal?]

theorem mem_cells {signal : Signal} : signal ∈ network.cells ↔ ∃ address, network.signalAt address = some signal :=
  List.mem_iff_getElem?

theorem mem_cells_of_signal? {id : String} {signal : Signal} (here : network.signal? id = some signal) :
    signal ∈ network.cells := by
  obtain ⟨address, here⟩ := signal?_eq_some_iff_locate?.mp here
  exact mem_cells.mpr ⟨address, (locate?_eq_some.mp here).2⟩

theorem signals_eq_cells (ordered : network.order = List.range network.cells.length) : network.signals = network.cells := by
  rw [signals, ordered]
  exact filterMap_getElem?_range network.cells

/-! What follows from coherence for the search of a signal. -/

namespace Coherent

variable (coherent : network.Coherent)

include coherent

theorem signals_eq : network.signals = network.cells := signals_eq_cells coherent.ordered

theorem locate?_eq_some {id : String} {address : Address} {signal : Signal} :
    network.locate? id = some (address, signal) ↔ network.signalAt address = some signal ∧ signal.id = id := by
  rw [Network.locate?_eq_some, coherent.found]
  constructor
  · rintro ⟨⟨other, there, same⟩, here⟩
    cases there.symm.trans here
    exact ⟨here, same⟩
  · rintro ⟨here, same⟩
    exact ⟨⟨signal, here, same⟩, here⟩

/-- A signal is what its id leads to. -/
theorem signal?_eq_some {id : String} {signal : Signal} :
    network.signal? id = some signal ↔ signal ∈ network.signals ∧ signal.id = id := by
  simp only [signal?_eq_some_iff_locate?, coherent.locate?_eq_some, coherent.signals_eq, mem_cells, exists_and_right]

theorem signal?_id {id : String} {signal : Signal} (here : network.signal? id = some signal) : signal.id = id :=
  (coherent.signal?_eq_some.mp here).2

theorem exists_signal? {id : String} : (∃ signal, network.signal? id = some signal) ↔ id ∈ network.ids := by
  simp only [coherent.signal?_eq_some, ids, List.mem_map]

theorem signal?_isSome {id : String} : (network.signal? id).isSome ↔ id ∈ network.ids := by
  rw [← coherent.exists_signal?, Option.isSome_iff_exists]

theorem signal?_eq_none {id : String} : network.signal? id = none ↔ id ∉ network.ids := by
  rw [← coherent.signal?_isSome, Option.not_isSome_iff_eq_none]

theorem signal?_eq_find? (id : String) : network.signal? id = network.signals.find? (·.id == id) := by
  cases found : network.signals.find? (·.id == id) with
  | some signal =>
    rw [coherent.signal?_eq_some]
    exact ⟨List.mem_of_find?_eq_some found, by simpa using List.find?_some found⟩
  | none =>
    rw [coherent.signal?_eq_none, ids, List.mem_map]
    rintro ⟨signal, member, rfl⟩
    simpa using List.find?_eq_none.mp found signal member

theorem lookup_isSome {id : String} : (network.table.lookup id).isSome ↔ id ∈ network.ids := by
  simp only [Option.isSome_iff_exists, coherent.found, ids, coherent.signals_eq, List.mem_map, mem_cells]
  constructor
  · rintro ⟨address, signal, here, same⟩
    exact ⟨signal, ⟨address, here⟩, same⟩
  · rintro ⟨signal, ⟨address, here⟩, same⟩
    exact ⟨address, signal, here, same⟩

theorem train_mem {train : Train} (standing : network.train = some train) : train.signal ∈ network.ids :=
  coherent.exists_signal?.mp (coherent.placed train standing)

theorem mem_order {address : Address} {signal : Signal} (here : network.signalAt address = some signal) :
    address ∈ network.order := by
  rw [coherent.ordered, List.mem_range]
  exact (List.getElem?_eq_some_iff.mp here).1

/-- No two signals have the same id. -/
theorem address_unique {one two : Address} {first second : Signal} (here : network.signalAt one = some first)
    (there : network.signalAt two = some second) (same : first.id = second.id) : one = two := by
  have known := (coherent.found second.id one).mpr ⟨first, here, same⟩
  exact Option.some.inj (known.symm.trans ((coherent.found second.id two).mpr ⟨second, there, rfl⟩))

theorem length_order : network.order.length = network.signals.length := by
  rw [coherent.signals_eq, coherent.ordered, List.length_range]

theorem mem_ids_of_signal? {id : String} {signal : Signal} (here : network.signal? id = some signal) :
    signal.id ∈ network.ids :=
  List.mem_map_of_mem (coherent.signal?_eq_some.mp here).1

end Coherent

/-! Changes that keep a network coherent. -/

theorem outline_signal? (table : changed.table = network.table)
    (outlines : ∀ address, (changed.signalAt address).map (·.outline) = (network.signalAt address).map (·.outline))
    (id : String) : (changed.signal? id).map (·.outline) = (network.signal? id).map (·.outline) := by
  simp only [signal?, locate?, table]
  cases network.table.lookup id with
  | none => rfl
  | some address => simpa [Function.comp_def] using outlines address

section Extended

variable {signal : Signal}

theorem ordered_extended (ordered : network.order = List.range network.cells.length) (signal : Signal) :
    (network.extended signal).order = List.range (network.extended signal).cells.length := by
  simp [extended, ordered, List.range_succ]

theorem signalAt_extended {address : Address} {other : Signal} :
    (network.extended signal).signalAt address = some other ↔
      network.signalAt address = some other ∨ address = network.cells.length ∧ signal.assembled address = other := by
  simp only [extended, signalAt, List.getElem?_append]
  split
  next inside => simp [Nat.ne_of_lt inside]
  next beyond =>
    rw [List.getElem?_eq_none (Nat.le_of_not_lt beyond)]
    rcases Nat.eq_or_lt_of_le (Nat.le_of_not_lt beyond) with last | behind
    · simp [← last]
    · simp [Nat.sub_ne_zero_of_lt behind, (Nat.ne_of_lt behind).symm]

theorem lookup_extended (unknown : network.table.lookup signal.id = none) {id : String} {address : Address} :
    (network.extended signal).table.lookup id = some address ↔
      network.table.lookup id = some address ∨ id = signal.id ∧ address = network.cells.length := by
  rw [extended, List.lookup_append, Option.or_eq_some_iff]
  by_cases same : id = signal.id
  · simp [same, unknown, eq_comm]
  · have apart : (id == signal.id) = false := by simpa using same
    simp [List.lookup_cons, same, apart]

theorem Coherent.ids_extended (coherent : network.Coherent) (signal : Signal) :
    (network.extended signal).ids = network.ids ++ [signal.id] := by
  rw [ids, ids, signals_eq_cells (ordered_extended coherent.ordered signal), coherent.signals_eq]
  simp [extended, Signal.assembled]

end Extended

namespace Coherent

theorem empty : Coherent {} where
  ordered := rfl
  distinct := List.nodup_nil
  keys := rfl
  found := fun id address => by simp [signalAt]
  mounted := fun address signal here => by simp [signalAt] at here
  placed := fun train standing => by cases standing

/-- Outlines decide on coherence: a change that keeps them, and leaves the train before some id, keeps the network
coherent. -/
theorem transfer (coherent : network.Coherent) (table : changed.table = network.table)
    (order : changed.order = network.order)
    (outlines : ∀ address, (changed.signalAt address).map (·.outline) = (network.signalAt address).map (·.outline))
    (train : ∀ train, changed.train = some train → train.signal ∈ network.ids) : changed.Coherent := by
  have cells : changed.cells.map (·.outline) = network.cells.map (·.outline) := by
    apply List.ext_getElem?
    intro address
    rw [List.getElem?_map, List.getElem?_map]
    exact outlines address
  have ordered : changed.order = List.range changed.cells.length := by
    have count := congrArg List.length cells
    simp only [List.length_map] at count
    rw [order, coherent.ordered, count]
  have ids : changed.ids = network.ids := by
    rw [Network.ids, Network.ids, signals_eq_cells ordered, coherent.signals_eq]
    simpa [Function.comp_def, Signal.outline] using congrArg (List.map Prod.fst) cells
  refine ⟨ordered, ids ▸ coherent.distinct, by rw [table, ids, coherent.keys], ?_, ?_, ?_⟩
  · intro id address
    have named := congrArg (Option.map Prod.fst) (outlines address)
    simp only [Option.map_map, Function.comp_def, Signal.outline] at named
    simp only [table, coherent.found, ← Option.map_eq_some_iff, named]
  · intro address signal here head mounted
    have same := outlines address
    rw [here] at same
    obtain ⟨other, there, outline⟩ := Option.map_eq_some_iff.mp same.symm
    have owner : head.owner ∈ other.outline.2 := by
      rw [outline]
      exact List.mem_map_of_mem mounted
    obtain ⟨earlier, carried, same⟩ := List.mem_map.mp owner
    rw [← same]
    exact coherent.mounted address other there earlier carried
  · intro moved standing
    obtain ⟨signal, here⟩ := coherent.exists_signal?.mpr (train moved standing)
    have same := outline_signal? table outlines moved.signal
    rw [here] at same
    obtain ⟨other, there, _⟩ := Option.map_eq_some_iff.mp same
    exact ⟨other, there⟩

theorem modifySignal (coherent : network.Coherent) {change : Signal → Signal}
    (outline : ∀ signal, (change signal).outline = signal.outline) (address : Address) :
    (network.modifySignal address change).Coherent := by
  apply coherent.transfer
  · rfl
  · rfl
  · intro other
    rw [signalAt_modifySignal, Option.map_map]
    congr 1
    funext signal
    by_cases here : address = other <;> simp [here, outline]
  · intro train standing
    exact coherent.train_mem standing

theorem releaseBlocks (coherent : network.Coherent) : network.releaseBlocks.Coherent := by
  unfold Network.releaseBlocks
  generalize network.order = addresses
  induction addresses generalizing network with
  | nil => exact coherent
  | cons address rest ih =>
    apply ih (coherent.modifySignal ?_ address)
    intro signal
    unfold Signal.released
    split <;> rfl

theorem occupy (coherent : network.Coherent) (address : Address) : (network.occupy address).Coherent := by
  apply coherent.releaseBlocks.modifySignal
  intro signal
  rfl

theorem withTrain (coherent : network.Coherent) {train : Option Train}
    (standing : ∀ moved, train = some moved → moved.signal ∈ network.ids) :
    Coherent { network with train } :=
  coherent.transfer rfl rfl (fun _ => rfl) standing

theorem extended (coherent : network.Coherent) {signal : Signal} (fresh : signal.id ∉ network.ids) :
    (network.extended signal).Coherent := by
  refine ⟨ordered_extended coherent.ordered signal, ?_, ?_, ?_, ?_, ?_⟩
  · rw [coherent.ids_extended]
    exact List.nodup_append.mpr ⟨coherent.distinct, by simp,
      fun one first two last same => fresh (List.mem_singleton.mp last ▸ same ▸ first)⟩
  · rw [coherent.ids_extended, ← coherent.keys]
    simp [Network.extended]
  · intro id address
    have unknown : network.table.lookup signal.id = none := by
      rw [← Option.not_isSome_iff_eq_none, coherent.lookup_isSome]
      exact fresh
    simp only [lookup_extended unknown, signalAt_extended, coherent.found]
    constructor
    · rintro (⟨other, here, same⟩ | ⟨rfl, rfl⟩)
      · exact ⟨other, .inl here, same⟩
      · exact ⟨_, .inr ⟨rfl, rfl⟩, rfl⟩
    · rintro ⟨other, here | ⟨rfl, rfl⟩, same⟩
      · exact .inl ⟨other, here, same⟩
      · exact .inr ⟨same.symm, rfl⟩
  · intro address other here head mounted
    rcases signalAt_extended.mp here with there | ⟨rfl, rfl⟩
    · exact coherent.mounted address other there head mounted
    · obtain ⟨loose, _, rfl⟩ := List.mem_map.mp mounted
      rfl
  · intro train standing
    obtain ⟨before, here⟩ := coherent.placed train standing
    obtain ⟨address, located⟩ := signal?_eq_some_iff_locate?.mp here
    obtain ⟨known, there⟩ := Network.locate?_eq_some.mp located
    refine ⟨before, signal?_eq_some_iff_locate?.mpr ⟨address, Network.locate?_eq_some.mpr ⟨?_, ?_⟩⟩⟩
    · rw [Network.extended, List.lookup_append, known, Option.some_or]
    · exact signalAt_extended.mpr (.inl there)

theorem add (coherent : network.Coherent) (signal : Signal) : (network.add signal).2.Coherent := by
  unfold Network.add
  split
  · exact coherent
  next unknown =>
    apply coherent.extended
    rw [← coherent.lookup_isSome, unknown]
    simp

theorem placeTrain (coherent : network.Coherent) (train : Option Train) : (network.placeTrain train).2.Coherent := by
  unfold Network.placeTrain
  split
  · apply coherent.withTrain
    intro moved standing
    cases standing
  next train =>
    split
    · exact coherent
    next signal here =>
      apply coherent.withTrain
      intro moved standing
      cases standing
      exact coherent.exists_signal?.mp ⟨signal, here⟩

/-- The train goes from signal to signal and finds each of them. -/
theorem pass (coherent : network.Coherent) (passes : Nat) :
    (network.pass passes).network.Coherent ∧ (network.pass passes).fault = none := by
  induction passes generalizing network with
  | zero => exact ⟨coherent, rfl⟩
  | succ passes ih =>
    rw [Network.pass]
    split
    next => exact ⟨coherent, rfl⟩
    next train standing =>
      split
      next reached =>
        obtain ⟨passed, here⟩ := coherent.placed train standing
        obtain ⟨address, located⟩ := signal?_eq_some_iff_locate?.mp here
        have occupied := coherent.occupy address
        rw [located]
        dsimp only
        split
        next =>
          refine ⟨occupied.withTrain ?_, rfl⟩
          intro moved gone
          cases gone
        next next leads =>
          have placed : next.id ∈ (network.occupy address).ids := occupied.mem_ids_of_signal? leads
          apply ih (occupied.withTrain ?_)
          intro moved goes
          cases goes
          exact placed
      next => exact ⟨coherent, rfl⟩

theorem advance (coherent : network.Coherent) (seconds : Float32) :
    (network.advance seconds).network.Coherent ∧ (network.advance seconds).fault = none := by
  unfold Network.advance
  split
  next => exact ⟨coherent, rfl⟩
  next train standing =>
    apply pass (coherent.withTrain ?_)
    intro moved goes
    cases goes
    have before : train.signal ∈ network.ids := coherent.train_mem standing
    exact before

/-- What a script can write of a head does not include what the head refers to. -/
theorem sameBesides (coherent : network.Coherent) {places : HeadRef → Prop}
    (same : network.SameBesides places changed) : changed.Coherent := by
  apply coherent.transfer same.table same.order
  · intro address
    have bare := same.signals address
    cases before : network.signalAt address with
    | none => simpa [before] using bare
    | some signal =>
      rw [before, Option.map_some] at bare
      obtain ⟨after, there, bare⟩ := Option.map_eq_some_iff.mp bare
      have owners : after.heads.map (·.owner) = signal.heads.map (·.owner) := by
        apply List.ext_getElem?
        intro index
        have kept := same.rewritten ⟨address, index⟩
        simp only [head?, before, there, Option.bind_some] at kept
        rw [List.getElem?_map, List.getElem?_map]
        generalize signal.heads[index]? = earlier, after.heads[index]? = later at kept
        cases kept with
        | none => rfl
        | some rewritten => rw [Option.map_some, Option.map_some, rewritten.owner]
      have id : after.id = signal.id := (Signal.mk.inj bare).1
      simp only [there, Option.map_some, Signal.outline, owners, id]
  · intro train standing
    rw [same.train] at standing
    exact coherent.train_mem standing

theorem updateAll {engine : Engine} (coherent : engine.network.Coherent) (turns : List Engine.Turn) :
    (Engine.updateAll turns engine).engine.network.Coherent :=
  coherent.sameBesides (Engine.updateAll_sameBesides turns engine)

end Coherent

end Network

namespace Layout

theorem addSignal_coherent {network changed : Network} (coherent : network.Coherent) {signal : Signal}
    {orders : Nat → Order} (added : addSignal network signal orders = .ok changed) : changed.Coherent := by
  simp only [addSignal, bind_eq_ok, pure_eq_ok, Except.ok.injEq] at added
  obtain ⟨built, _, _, _, rfl⟩ := added
  exact coherent.add built

theorem addSignals_coherent {network changed : Network} (coherent : network.Coherent) {signals : List (Signal × Nat)}
    {orders : Nat → Nat → Order}
    (added : signals.foldlM (fun network (signal, place) => addSignal network signal (orders place)) network = .ok changed) :
    changed.Coherent := by
  induction signals generalizing network with
  | nil =>
    cases added
    exact coherent
  | cons signal signals ih =>
    rw [List.foldlM_cons] at added
    obtain ⟨next, first, rest⟩ := bind_eq_ok.mp added
    exact ih (addSignal_coherent coherent first) rest

theorem build_coherent {layout : Layout} {orders : Nat → Nat → Order} {network : Network}
    (built : layout.build orders = .ok network) : network.Coherent := by
  simp only [build, bind_eq_ok] at built
  obtain ⟨bare, added, _, _, placed⟩ := built
  have coherent := addSignals_coherent .empty added
  cases train : layout.train with
  | none =>
    rw [train] at placed
    cases placed
    exact coherent
  | some train =>
    simp only [placeTrain, *, bind_eq_ok, pure_eq_ok, Except.ok.injEq] at placed
    obtain ⟨_, _, rfl⟩ := placed
    exact coherent.placeTrain _

end Layout

/-- A call that can change a network. The engine that evaluates heads may hold any scripts. -/
inductive TrackCall where
  | add (signal : Signal)
  | placeTrain (train : Option Train)
  | advance (seconds : Float32)
  | update (engine : Engine) (turns : List Engine.Turn)

namespace Network

variable {network : Network}

/-- What a call answers, and the network it leaves behind. -/
def answer (network : Network) : TrackCall → Except NetworkError Unit × Network
  | .add signal => network.add signal
  | .placeTrain train => network.placeTrain train
  | .advance seconds => (.ok (), (network.advance seconds).network)
  | .update engine turns => (.ok (), (Engine.updateAll turns { engine with network }).engine.network)

/-- The network after a call. -/
def after (network : Network) (call : TrackCall) : Network := (network.answer call).2

def run (network : Network) (calls : List TrackCall) : Network := calls.foldl after network

theorem Coherent.after (coherent : network.Coherent) (call : TrackCall) : (network.after call).Coherent := by
  cases call with
  | add signal => exact coherent.add signal
  | placeTrain train => exact coherent.placeTrain train
  | advance seconds => exact (coherent.advance seconds).1
  | update engine turns => exact Coherent.updateAll coherent turns

theorem Coherent.run (coherent : network.Coherent) (calls : List TrackCall) : (network.run calls).Coherent := by
  induction calls generalizing network with
  | nil => exact coherent
  | cons call calls ih => exact ih (coherent.after call)

theorem Coherent.add_refused (coherent : network.Coherent) {signal : Signal} :
    (∃ error, (network.add signal).1 = .error error) ↔ signal.id ∈ network.ids := by
  rw [← coherent.lookup_isSome, Network.add]
  cases network.table.lookup signal.id <;> simp

theorem Coherent.placeTrain_refused (coherent : network.Coherent) {train : Option Train} :
    (∃ error, (network.placeTrain train).1 = .error error) ↔
      ∃ moved, train = some moved ∧ moved.signal ∉ network.ids := by
  cases train with
  | none => simp [Network.placeTrain]
  | some train =>
    simp only [Network.placeTrain, Option.some.injEq, exists_eq_left', ← coherent.signal?_isSome]
    cases network.signal? train.signal <;> simp

theorem answer_error {call : TrackCall} {error : NetworkError} (refused : (network.answer call).1 = .error error) :
    (network.answer call).2 = network := by
  cases call with
  | add signal =>
    simp only [answer, add] at refused ⊢
    split
    next => rfl
    next unknown => simp [unknown] at refused
  | placeTrain train =>
    cases train with
    | none => cases refused
    | some train =>
      simp only [answer, placeTrain] at refused ⊢
      split
      next => rfl
      next signal here => simp [here] at refused
  | advance seconds => cases refused
  | update engine turns => cases refused

/-- From an empty network, or one that a layout describes, every run of calls leads to a coherent one, in which
no train that moves is lost. A signal is refused exactly if its id is taken and a train exactly if it is to stand
before no signal, and a call that is refused leaves the network as it was. -/
theorem run_coherent {network : Network}
    (origin : network = {} ∨ ∃ (layout : Layout) (orders : Nat → Nat → Layout.Order), layout.build orders = .ok network)
    (calls : List TrackCall) :
    (network.run calls).Coherent ∧
    (∀ seconds, ((network.run calls).advance seconds).fault = none) ∧
    (∀ signal, (∃ error, ((network.run calls).answer (.add signal)).1 = .error error) ↔
      signal.id ∈ (network.run calls).ids) ∧
    (∀ train, (∃ error, ((network.run calls).answer (.placeTrain train)).1 = .error error) ↔
      ∃ moved, train = some moved ∧ moved.signal ∉ (network.run calls).ids) ∧
    ∀ call error, ((network.run calls).answer call).1 = .error error →
      (network.run calls).after call = network.run calls := by
  have start : network.Coherent := by
    rcases origin with rfl | ⟨layout, orders, built⟩
    · exact .empty
    · exact Layout.build_coherent built
  have coherent := start.run calls
  exact ⟨coherent, fun seconds => (coherent.advance seconds).2, fun signal => coherent.add_refused,
    fun train => coherent.placeTrain_refused, fun call error refused => answer_error refused⟩

end Network

/-- Two signals in a loop, and a train before the second one. -/
private def shuttle : Layout where
  signals := [
    { id := "up", next := "down", heads := [{ kind := "main", aspects := ["STOP", "CLEAR_2"] }] },
    { id := "down", next := "up", opposite := "up", length := 200, heads := [{ kind := "shunt" }, { kind := "main" }] }]
  train := some { signal := "down", distance := 50, speed := 20 }

theorem run_coherent_shuttle :
    ∃ network, shuttle.build (fun _ _ _ => 0) = .ok network ∧ network.ids = ["up", "down"] ∧
      ∀ seconds moment, (network.run [.advance seconds, .add { id := "up" }, .update {} [⟨.mounted ⟨0, 0⟩, moment⟩],
        .placeTrain none]).Coherent := by
  refine ⟨_, rfl, rfl, fun seconds moment => ?_⟩
  exact (Network.run_coherent (.inr ⟨shuttle, fun _ _ _ => 0, rfl⟩) _).1

end Lineside
