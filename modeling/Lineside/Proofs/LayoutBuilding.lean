import Lineside.Proofs.BlockRelease
import Lineside.Proofs.DrawStates

/-! Which layouts describe a network, and which network that is. All that is asked of a layout is that its names mean
something: those of blocks, roles and aspects in their tables, those of links and of the train among its own signals,
before or behind. A network that was built never meets a name without a signal, however long it is used. -/

namespace Lineside

/-- There is a list of partners exactly if each item has one. -/
theorem exists_forall₂ {α β : Type} {related : α → β → Prop} {items : List α} :
    (∃ others, List.Forall₂ related items others) ↔ ∀ item ∈ items, ∃ other, related item other := by
  induction items with
  | nil => simp
  | cons item items ih =>
    rw [List.forall_mem_cons, ← ih]
    constructor
    · rintro ⟨_, _ | ⟨one, rest⟩⟩
      exact ⟨⟨_, one⟩, _, rest⟩
    · rintro ⟨⟨other, one⟩, others, rest⟩
      exact ⟨other :: others, .cons one rest⟩

namespace Network

variable {network : Network}

/-- The names that the signals of a network give each other. -/
def links (network : Network) : List (String × String × String) :=
  network.signals.map fun signal => (signal.id, signal.next, signal.opposite)

theorem mem_links {signal : Signal} (member : signal ∈ network.signals) :
    (signal.id, signal.next, signal.opposite) ∈ network.links :=
  List.mem_map_of_mem member

theorem ids_eq_links (network : Network) : network.ids = network.links.map (·.1) := by
  rw [links, List.map_map]
  rfl

/-- No name without a signal: a link that is there leads to a signal, and so does the name that the train has. -/
structure Closed (network : Network) : Prop where
  next : ∀ signal ∈ network.signals, network.signal? signal.next = none ↔ signal.next = ""
  opposite : ∀ signal ∈ network.signals, network.signal? signal.opposite = none ↔ signal.opposite = ""
  train : ∀ train, network.train = some train → ∃ signal, network.signal? train.signal = some signal
  heads : ∀ ref ∈ network.heads, network.Mounted ref

/-- A path has come to its end: at a signal without a next one, or at one that leads back to the path. -/
def Ends (path : List Signal) : Prop :=
  ∀ last, path.getLast? = some last → last.next = "" ∨ ∃ signal ∈ path, signal.id = last.next

/-- The heads of a network are those that its signals carry, and refer back to them. -/
theorem Coherent.mounted_of_mem (coherent : network.Coherent) {ref : HeadRef} (member : ref ∈ network.heads) :
    network.Mounted ref := by
  obtain ⟨address, _, member⟩ := List.mem_flatMap.mp member
  cases here : network.signalAt address with
  | none => simp [here] at member
  | some signal =>
    simp only [here, List.mem_map, List.mem_range] at member
    obtain ⟨index, inside, rfl⟩ := member
    refine ⟨signal.heads[index], ?_, coherent.mounted address signal here _ (List.getElem_mem inside)⟩
    rw [head?, here]
    exact List.getElem?_eq_getElem inside

end Network

namespace Layout

/-! What is asked of a layout. -/

structure Head.Sound (head : Head) : Prop where
  kind : head.kind ≠ ""
  role : ∃ code, Role.table.MeansOr Role.normal.code head.role code
  aspects : ∀ name ∈ head.aspects, ∃ code, Aspect.table.Means name code
  drawStates : ∀ entry ∈ head.drawStates, ∃ code, Aspect.table.Means entry.1 code

structure Signal.Sound (signal : Signal) : Prop where
  id : signal.id ≠ ""
  block : ∃ code, Block.table.MeansOr Block.clear.code signal.block code
  heads : ∀ head ∈ signal.heads, head.Sound

/-- A name is left out or is the id of a signal. -/
def Leads (signals : List Signal) (name : String) : Prop := name = "" ∨ ∃ signal ∈ signals, signal.id = name

structure Sound (layout : Layout) : Prop where
  signals : ∀ signal ∈ layout.signals, signal.Sound
  distinct : (layout.signals.map (·.id)).Nodup
  next : ∀ signal ∈ layout.signals, Leads layout.signals signal.next
  opposite : ∀ signal ∈ layout.signals, Leads layout.signals signal.opposite
  train : ∀ train, layout.train = some train → ∃ signal ∈ layout.signals, signal.id = train.signal

/-! What a network shows of its layout. -/

/-- The minimum of the aspects that a head can show, or `STOP` if there are none. -/
def Strictest (aspects : List Aspect) (state : Aspect) : Prop :=
  aspects = [] ∧ state = .stop ∨ state ∈ aspects ∧ ∀ aspect ∈ aspects, state.code ≤ aspect.code

/-- A head that was built and mounted. Its draw states are those that its entries settle in some order. -/
structure Head.Describes (head : Head) (built : Lineside.Head) : Prop where
  number : built.number = head.number
  kind : built.kind = head.kind
  role : Role.table.MeansOr Role.normal.code head.role built.role.code
  aspects : List.Forall₂ (fun name aspect => Aspect.table.Means name aspect.code) head.aspects built.aspects
  drawStates : ∃ entries, entries.Perm head.drawStates ∧
    ∀ aspect value, built.drawStates.lookup aspect = some value ↔ Settles entries aspect value
  state : Strictest built.aspects built.state
  drawState : built.drawState = 0
  unlimited : built.approachPosition = none ∧ built.approachSpeed = none
  partialRoute : built.partialRoute = false

structure Signal.Describes (signal : Signal) (built : Lineside.Signal) : Prop where
  id : built.id = signal.id
  next : built.next = signal.next
  opposite : built.opposite = signal.opposite
  length : built.length = signal.length
  block : Block.table.MeansOr Block.clear.code signal.block built.block.code
  routeSet : built.routeSet = signal.routeSet
  enabled : built.enabled = !signal.disabled
  callOn : built.callOn = signal.callOn
  callOnRestricted : built.callOnRestricted = signal.callOnRestricted
  features : built.features = signal.features
  heads : List.Forall₂ Head.Describes signal.heads built.heads

/-- A network that holds what a layout says, everything in the same order. -/
structure Describes (layout : Layout) (network : Network) : Prop where
  signals : List.Forall₂ Signal.Describes layout.signals network.signals
  mounted : ∀ ref ∈ network.heads, network.Mounted ref
  train : network.train = layout.train.map fun train => ⟨train.signal, train.distance, train.speed⟩

namespace Head

variable {head : Head} {order : Order} {built : Lineside.Head}

theorem sound_iff : (∃ built, head.build order = .ok built) ↔ head.Sound := by
  have arranged := order.arrange_perm head.drawStates
  constructor
  · rintro ⟨built, ok⟩
    obtain ⟨kind, role, aspects, drawStates, named, listed, resolved, _⟩ := build_eq_ok.mp ok
    have drawn := exists_resolveDrawStates.mp ⟨drawStates, resolved⟩
    refine ⟨kind, ⟨role.code, named⟩, ?_, fun entry inside => drawn entry (arranged.symm.subset inside)⟩
    intro name inside
    obtain ⟨aspect, means⟩ := exists_forall₂.mp ⟨aspects, listed⟩ name inside
    exact ⟨aspect.code, means⟩
  · rintro ⟨kind, ⟨code, named⟩, means, drawn⟩
    obtain ⟨aspects, listed⟩ : ∃ aspects : List Aspect,
        List.Forall₂ (fun name aspect => Aspect.table.Means name aspect.code) head.aspects aspects := by
      rw [exists_forall₂]
      intro name inside
      obtain ⟨code, means⟩ := means name inside
      exact ⟨⟨code⟩, means⟩
    obtain ⟨drawStates, resolved⟩ :=
      exists_resolveDrawStates.mpr fun entry inside => drawn entry (arranged.subset inside)
    exact ⟨_, build_eq_ok.mpr ⟨kind, ⟨code⟩, aspects, drawStates, named, listed, resolved, rfl⟩⟩

theorem strictest_mostRestrictive (head : Lineside.Head) : Strictest head.aspects head.mostRestrictive := by
  rw [Lineside.Head.mostRestrictive]
  cases listed : head.aspects with
  | nil => exact .inl ⟨rfl, rfl⟩
  | cons first rest =>
    obtain ⟨answer, chosen, member, bound⟩ := Lineside.Head.strictest_cons first rest
    rw [chosen]
    exact .inr ⟨member, bound⟩

theorem describes_of_build (ok : head.build order = .ok built) (address : Address) :
    head.Describes (built.mount address) := by
  have states := resolve_of_build ok
  obtain ⟨_, role, aspects, drawStates, named, listed, _, rfl⟩ := build_eq_ok.mp ok
  exact {
    number := rfl
    kind := rfl
    role := named
    aspects := listed
    drawStates := ⟨_, order.arrange_perm head.drawStates, fun aspect value => lookup_resolveDrawStates states⟩
    state := strictest_mostRestrictive _
    drawState := rfl
    unlimited := ⟨rfl, rfl⟩
    partialRoute := rfl }

end Head

/-- Each item was built from its description, in the order that its place has. -/
theorem forall₂_zipIdx {α β γ ε : Type} {build : α → γ → Except ε β} {orders : Nat → γ} {related : α → β → Prop}
    {items : List α} {results : List β}
    (built : List.Forall₂ (fun entry result => build entry.1 (orders entry.2) = .ok result) items.zipIdx results)
    (describes : ∀ item order result, build item order = .ok result → related item result) :
    List.Forall₂ related items results := by
  have pairs := built.imp fun entry result ok => describes entry.1 (orders entry.2) result ok
  rwa [← List.forall₂_map_left_iff, List.zipIdx_map_fst] at pairs

theorem mem_zipIdx_fst {α : Type} {items : List α} {item : α} (inside : item ∈ items) :
    ∃ place, (item, place) ∈ items.zipIdx := by
  rw [← List.zipIdx_map_fst 0 items] at inside
  obtain ⟨⟨_, place⟩, member, rfl⟩ := List.mem_map.mp inside
  exact ⟨place, member⟩

namespace Signal

variable {signal : Signal} {orders : Nat → Order} {built : Lineside.Signal}

theorem block_eq_ok {name : String} {block : Block} :
    (if name = "" then .ok Block.clear else named (Block.ofName name)) = .ok block ↔
      Block.table.MeansOr Block.clear.code name block.code := by
  obtain ⟨code⟩ := block
  simp [optional_eq_ok, Block.ofName_eq_ok, NameTable.MeansOr, Block.clear]

theorem build_eq_ok :
    signal.build orders = .ok built ↔ signal.id ≠ "" ∧ ∃ block heads,
      Block.table.MeansOr Block.clear.code signal.block block.code ∧
      List.Forall₂ (fun entry built => entry.1.build (orders entry.2) = .ok built) signal.heads.zipIdx heads ∧
      { id := signal.id, next := signal.next, opposite := signal.opposite, length := signal.length, block,
        routeSet := signal.routeSet, enabled := !signal.disabled, callOn := signal.callOn,
        callOnRestricted := signal.callOnRestricted, features := signal.features, heads } = built := by
  have steps : signal.build orders = if signal.id = "" then Outcome.fail .missingId else do
      let block ← (if signal.block = "" then .ok Block.clear else named (Block.ofName signal.block) : Outcome Block)
      let heads ← signal.heads.zipIdx.mapM fun entry => buildHead entry.1 (orders entry.2)
      return {
        id := signal.id, next := signal.next, opposite := signal.opposite, length := signal.length, block,
        routeSet := signal.routeSet, enabled := !signal.disabled, callOn := signal.callOn,
        callOnRestricted := signal.callOnRestricted, features := signal.features, heads } := by
    unfold build
    split
    · rfl
    · split <;> rfl
  rw [steps]
  by_cases unnamed : signal.id = ""
  · simp [unnamed, Outcome.fail]
  · simp only [unnamed, if_false, bind_eq_ok, block_eq_ok, mapM_eq_ok_forall₂, buildHead, Outcome.during_eq_ok, pure_eq_ok,
      Except.ok.injEq, ne_eq, not_false_eq_true, true_and, exists_and_left]

theorem sound_iff : (∃ built, signal.build orders = .ok built) ↔ signal.Sound := by
  constructor
  · rintro ⟨built, ok⟩
    obtain ⟨id, block, heads, named, listed, _⟩ := build_eq_ok.mp ok
    refine ⟨id, ⟨block.code, named⟩, ?_⟩
    intro head inside
    obtain ⟨place, member⟩ := mem_zipIdx_fst inside
    exact Head.sound_iff.mp (exists_forall₂.mp ⟨heads, listed⟩ (head, place) member)
  · rintro ⟨id, ⟨code, named⟩, sound⟩
    obtain ⟨heads, listed⟩ := exists_forall₂.mpr fun entry member =>
      Head.sound_iff.mpr (sound entry.1 (List.fst_mem_of_mem_zipIdx member))
    exact ⟨_, build_eq_ok.mpr ⟨id, ⟨code⟩, heads, named, listed, rfl⟩⟩

theorem describes_of_build (ok : signal.build orders = .ok built) (address : Address) :
    signal.Describes (built.assembled address) := by
  obtain ⟨_, block, heads, named, listed, rfl⟩ := build_eq_ok.mp ok
  refine ⟨rfl, rfl, rfl, rfl, named, rfl, rfl, rfl, rfl, rfl, ?_⟩
  rw [Lineside.Signal.assembled, List.forall₂_map_right_iff]
  exact forall₂_zipIdx listed fun head order built ok => Head.describes_of_build ok address

end Signal

section Build

variable {layout : Layout} {orders : Nat → Nat → Order} {network changed : Network}

/-- What the signals of a layout are built into. -/
def Built (orders : Nat → Nat → Order) : List (Signal × Nat) → List Lineside.Signal → Prop :=
  List.Forall₂ fun entry built => entry.1.build (orders entry.2) = .ok built

theorem addSignal_eq_ok (coherent : network.Coherent) {signal : Signal} {orders : Nat → Order} :
    addSignal network signal orders = .ok changed ↔ signal.id ∉ network.ids ∧ ∃ built, signal.build orders = .ok built ∧
      network.extended built = changed := by
  have same_id {built : Lineside.Signal} (ok : signal.build orders = .ok built) : built.id = signal.id :=
    (Signal.describes_of_build ok 0).id
  simp only [addSignal, bind_eq_ok, Outcome.during_eq_ok, Outcome.because_eq_ok, pure_eq_ok, Except.ok.injEq,
    ← coherent.lookup_isSome]
  constructor
  · rintro ⟨built, ok, _, added, rfl⟩
    rw [Network.add, same_id ok] at added ⊢
    cases known : network.table.lookup signal.id with
    | some address => simp [known] at added
    | none => exact ⟨by simp, built, ok, rfl⟩
  · rintro ⟨fresh, built, ok, rfl⟩
    rw [Option.not_isSome_iff_eq_none] at fresh
    exact ⟨built, ok, (), by simp [Network.add, same_id ok, fresh]⟩

theorem addSignals_eq_ok (coherent : network.Coherent) {signals : List (Signal × Nat)} :
    signals.foldlM (fun network (signal, place) => addSignal network signal (orders place)) network = .ok changed ↔
      (network.ids ++ signals.map (·.1.id)).Nodup ∧
        ∃ built, Built orders signals built ∧ built.foldl Network.extended network = changed := by
  induction signals generalizing network with
  | nil => simp [coherent.distinct, Built]
  | cons entry signals ih =>
    obtain ⟨signal, place⟩ := entry
    have grown {built : Lineside.Signal} (ok : signal.build (orders place) = .ok built) :
        (network.extended built).ids = network.ids ++ [signal.id] := by
      have same_id : built.id = signal.id := (Signal.describes_of_build ok 0).id
      rw [coherent.ids_extended, same_id]
    have extended {built : Lineside.Signal} (ok : signal.build (orders place) = .ok built)
        (fresh : signal.id ∉ network.ids) : (network.extended built).Coherent := by
      have same_id : built.id = signal.id := (Signal.describes_of_build ok 0).id
      exact coherent.extended (same_id ▸ fresh)
    rw [List.foldlM_cons, bind_eq_ok]
    simp only [addSignal_eq_ok coherent]
    constructor
    · rintro ⟨_, ⟨fresh, built, ok, rfl⟩, rest⟩
      rw [ih (extended ok fresh), grown ok] at rest
      obtain ⟨distinct, others, oks, rfl⟩ := rest
      exact ⟨by simpa using distinct, built :: others, .cons ok oks, rfl⟩
    · rintro ⟨nodup, _, _ | ⟨ok, oks⟩, rfl⟩
      have nodup : (network.ids ++ [signal.id] ++ signals.map (·.1.id)).Nodup := by simpa using nodup
      have fresh : signal.id ∉ network.ids := by
        have distinct := nodup.of_append_left
        rw [List.nodup_append_comm] at distinct
        exact (List.nodup_cons.mp distinct).1
      refine ⟨_, ⟨fresh, _, ok, rfl⟩, ?_⟩
      rw [ih (extended ok fresh), grown ok]
      exact ⟨nodup, _, oks, rfl⟩

theorem then_eq_ok {ε β : Type} {first : Except ε Unit} {next : Except ε β} {result : β} :
    (do first; next) = .ok result ↔ first = .ok () ∧ next = .ok result := by
  rw [bind_eq_ok]
  exact ⟨fun ⟨_, one, rest⟩ => ⟨one, rest⟩, fun ⟨one, rest⟩ => ⟨(), one, rest⟩⟩

theorem forM_eq_ok {α ε : Type} {f : α → Except ε Unit} {items : List α} :
    items.forM f = .ok () ↔ ∀ item ∈ items, f item = .ok () := by
  induction items with
  | nil => exact iff_of_true rfl (by simp)
  | cons item items ih =>
    rw [List.forall_mem_cons, ← ih, ← then_eq_ok]
    rfl

theorem checkLink_eq_ok (coherent : network.Coherent) {id other : String} {link : Link} :
    checkLink network id link other = .ok () ↔ other = "" ∨ other ∈ network.ids := by
  unfold checkLink
  rw [← coherent.signal?_isSome]
  split
  next leads => simpa using leads
  next dangling => simpa [Outcome.fail] using dangling

theorem placeTrain_eq_ok (coherent : network.Coherent) {train : Option Train} (empty : network.train = none) :
    placeTrain network train = .ok changed ↔ (∀ placed, train = some placed → placed.signal ∈ network.ids) ∧
      { network with train := train.map fun train => ⟨train.signal, train.distance, train.speed⟩ } = changed := by
  cases train with
  | none =>
    obtain ⟨cells, table, order, _⟩ := network
    cases empty
    simp [placeTrain]
  | some train =>
    simp only [placeTrain, bind_eq_ok, Outcome.during_eq_ok, Outcome.because_eq_ok, pure_eq_ok, Network.placeTrain,
      ← coherent.exists_signal?]
    cases here : network.signal? train.signal <;> simp [here]

section Described

variable {signals : List Signal} (described : List.Forall₂ Signal.Describes signals network.signals)

include described

theorem links_of_describes : network.links = signals.map fun signal => (signal.id, signal.next, signal.opposite) := by
  unfold Network.links
  generalize network.signals = built at described
  induction described with
  | nil => rfl
  | cons first _ ih => rw [List.map_cons, List.map_cons, ih, first.id, first.next, first.opposite]

theorem mem_ids_of_describes {name : String} : name ∈ network.ids ↔ ∃ signal ∈ signals, signal.id = name := by
  rw [Network.ids_eq_links, links_of_describes described, List.map_map, List.mem_map]
  rfl

theorem checkLinks_eq_ok (coherent : network.Coherent) : checkLinks network = .ok () ↔
    ∀ signal ∈ signals, Leads signals signal.next ∧ Leads signals signal.opposite := by
  have links : checkLinks network = .ok () ↔
      ∀ link ∈ network.links, (link.2.1 = "" ∨ link.2.1 ∈ network.ids) ∧ (link.2.2 = "" ∨ link.2.2 ∈ network.ids) := by
    simp only [checkLinks, forM_eq_ok, then_eq_ok, checkLink_eq_ok coherent, Network.links, List.forall_mem_map]
  rw [links, links_of_describes described, List.forall_mem_map]
  simp only [mem_ids_of_describes described, Leads]

end Described

theorem train_extended (built : List Lineside.Signal) : (built.foldl Network.extended network).train = network.train := by
  induction built generalizing network with
  | nil => rfl
  | cons signal built ih => exact ih

/-- The signals that were added stand behind those that were there, in their order. -/
theorem describes_extended (ordered : network.order = List.range network.cells.length) {signals : List (Signal × Nat)}
    {built : List Lineside.Signal} (oks : Built orders signals built) {before : List Signal}
    (described : List.Forall₂ Signal.Describes before network.signals) :
    List.Forall₂ Signal.Describes (before ++ signals.map (·.1)) (built.foldl Network.extended network).signals := by
  induction oks generalizing network before with
  | nil => simpa using described
  | @cons entry built signals others ok _ ih =>
    have more := Network.ordered_extended ordered built
    have one : (network.extended built).signals = network.signals ++ [built.assembled network.cells.length] := by
      rw [Network.signals_eq_cells more, Network.signals_eq_cells ordered, Network.extended]
    have first : List.Forall₂ Signal.Describes (before ++ [entry.1]) (network.extended built).signals := by
      rw [one]
      exact List.rel_append described (.cons (Signal.describes_of_build ok _) .nil)
    simpa using ih more first

theorem describes_built {signals : List Signal} {built : List Lineside.Signal}
    (oks : Built orders signals.zipIdx built) :
    List.Forall₂ Signal.Describes signals (built.foldl Network.extended {}).signals := by
  have described := describes_extended (rfl : Network.order {} = _) oks .nil
  rwa [List.nil_append, List.zipIdx_map_fst] at described

theorem build_eq_ok : layout.build orders = .ok network ↔ (layout.signals.map (·.id)).Nodup ∧
    ∃ built, Built orders layout.signals.zipIdx built ∧
      (∀ signal ∈ layout.signals, Leads layout.signals signal.next ∧ Leads layout.signals signal.opposite) ∧
      (∀ train, layout.train = some train → ∃ signal ∈ layout.signals, signal.id = train.signal) ∧
      { built.foldl Network.extended {} with
        train := layout.train.map fun train => ⟨train.signal, train.distance, train.speed⟩ } = network := by
  have ids : layout.signals.zipIdx.map (·.1.id) = layout.signals.map (·.id) := by
    calc layout.signals.zipIdx.map (·.1.id)
      _ = (layout.signals.zipIdx.map (·.1)).map (·.id) := by rw [List.map_map]; rfl
      _ = layout.signals.map (·.id) := by rw [List.zipIdx_map_fst]
  have adds {bare : Network} : layout.signals.zipIdx.foldlM
      (fun network (signal, place) => addSignal network signal (orders place)) {} = .ok bare ↔
        (layout.signals.map (·.id)).Nodup ∧
          ∃ built, Built orders layout.signals.zipIdx built ∧ built.foldl Network.extended {} = bare := by
    rw [addSignals_eq_ok .empty, ids]
    rfl
  simp only [build, bind_eq_ok]
  constructor
  · rintro ⟨bare, added, ⟨⟩, closed, placed⟩
    have coherent := addSignals_coherent .empty added
    obtain ⟨distinct, built, oks, rfl⟩ := adds.mp added
    have described := describes_built oks
    obtain ⟨train, rfl⟩ := (placeTrain_eq_ok coherent (train_extended built)).mp placed
    refine ⟨distinct, built, oks, (checkLinks_eq_ok described coherent).mp closed, ?_, rfl⟩
    intro placed here
    exact (mem_ids_of_describes described).mp (train placed here)
  · rintro ⟨distinct, built, oks, links, train, rfl⟩
    have added := adds.mpr ⟨distinct, built, oks, rfl⟩
    have coherent := addSignals_coherent .empty added
    have described := describes_built oks
    refine ⟨_, added, (), (checkLinks_eq_ok described coherent).mpr links,
      (placeTrain_eq_ok coherent (train_extended built)).mpr ⟨?_, rfl⟩⟩
    intro placed here
    exact (mem_ids_of_describes described).mpr (train placed here)

theorem build_iff_sound : (∃ network, layout.build orders = .ok network) ↔ layout.Sound := by
  simp only [build_eq_ok]
  constructor
  · rintro ⟨network, distinct, built, oks, links, train, _⟩
    refine ⟨?_, distinct, fun signal inside => (links signal inside).1, fun signal inside => (links signal inside).2, train⟩
    intro signal inside
    obtain ⟨place, member⟩ := mem_zipIdx_fst inside
    exact Signal.sound_iff.mp (exists_forall₂.mp ⟨built, oks⟩ (signal, place) member)
  · rintro ⟨signals, distinct, next, opposite, train⟩
    have builds (entry : Signal × Nat) (member : entry ∈ layout.signals.zipIdx) :
        ∃ built, entry.1.build (orders entry.2) = .ok built :=
      Signal.sound_iff.mpr (signals entry.1 (List.fst_mem_of_mem_zipIdx member))
    obtain ⟨built, oks⟩ := exists_forall₂.mpr builds
    exact ⟨_, distinct, built, oks, fun signal inside => ⟨next signal inside, opposite signal inside⟩, train, rfl⟩

theorem describes_of_build (built : layout.build orders = .ok network) : layout.Describes network := by
  have coherent := build_coherent built
  obtain ⟨_, signals, oks, _, _, rfl⟩ := build_eq_ok.mp built
  exact ⟨describes_built oks, fun ref member => coherent.mounted_of_mem member, rfl⟩

theorem closed_of_build (built : layout.build orders = .ok network) : network.Closed := by
  have coherent := build_coherent built
  have described := (describes_of_build built).signals
  have sound := build_iff_sound.mp ⟨network, built⟩
  have unnamed : "" ∉ network.ids := by
    rw [mem_ids_of_describes described]
    rintro ⟨signal, inside, empty⟩
    exact (sound.signals signal inside).id empty
  have resolves {name : String} (leads : Leads layout.signals name) : network.signal? name = none ↔ name = "" := by
    rw [coherent.signal?_eq_none]
    constructor
    · intro absent
      exact leads.resolve_right fun known => absent ((mem_ids_of_describes described).mpr known)
    · rintro rfl
      exact unnamed
  have same {signal : Lineside.Signal} (member : signal ∈ network.signals) :
      ∃ original ∈ layout.signals, original.next = signal.next ∧ original.opposite = signal.opposite := by
    have inside := Network.mem_links member
    rw [links_of_describes described, List.mem_map] at inside
    obtain ⟨original, present, agrees⟩ := inside
    simp only [Prod.mk.injEq] at agrees
    exact ⟨original, present, agrees.2⟩
  constructor
  · intro signal member
    obtain ⟨original, present, next, _⟩ := same member
    exact resolves (next ▸ sound.next original present)
  · intro signal member
    obtain ⟨original, present, _, opposite⟩ := same member
    exact resolves (opposite ▸ sound.opposite original present)
  · exact coherent.placed
  · intro ref member
    exact coherent.mounted_of_mem member

end Build

end Layout

namespace Network

variable {network changed : Network}

theorem Closed.transfer (closed : network.Closed) (before : network.Coherent) (coherent : changed.Coherent)
    (links : changed.links = network.links) : changed.Closed := by
  have ids : changed.ids = network.ids := by
    rw [ids_eq_links, links, ← ids_eq_links]
  have same {signal : Signal} (member : signal ∈ changed.signals) :
      ∃ other ∈ network.signals, other.next = signal.next ∧ other.opposite = signal.opposite := by
    obtain ⟨other, present, agrees⟩ := List.mem_map.mp (links ▸ mem_links member)
    simp only [Prod.mk.injEq] at agrees
    exact ⟨other, present, agrees.2⟩
  constructor
  · intro signal member
    obtain ⟨other, present, next, _⟩ := same member
    rw [coherent.signal?_eq_none, ids, ← next, ← before.signal?_eq_none]
    exact closed.next other present
  · intro signal member
    obtain ⟨other, present, _, opposite⟩ := same member
    rw [coherent.signal?_eq_none, ids, ← opposite, ← before.signal?_eq_none]
    exact closed.opposite other present
  · exact coherent.placed
  · intro ref member
    exact coherent.mounted_of_mem member

theorem Trails.links {passed : List String} (trails : network.Trails passed changed) : changed.links = network.links := by
  have links := congrArg (List.map fun signal : Signal => (signal.id, signal.next, signal.opposite)) trails
  simp only [List.map_map, Function.comp_def] at links
  exact links

/-- No call but one that adds a signal makes, cuts or turns a link. -/
theorem Coherent.links_after (coherent : network.Coherent) {call : TrackCall} (bounded : ∀ signal, call ≠ .add signal) :
    (network.after call).links = network.links := by
  cases call with
  | add signal => exact absurd rfl (bounded signal)
  | placeTrain train =>
    unfold Network.after answer Network.placeTrain
    cases train with
    | none => rfl
    | some train =>
      dsimp only
      cases network.signal? train.signal <;> rfl
  | advance seconds => exact (coherent.trails_advance seconds).links
  | update engine turns => exact (trails_updateAll { engine with network } turns).links

theorem Closed.run (closed : network.Closed) (coherent : network.Coherent) {calls : List TrackCall}
    (bounded : ∀ call ∈ calls, ∀ signal, call ≠ .add signal) : (network.run calls).Closed := by
  induction calls generalizing network with
  | nil => exact closed
  | cons call calls ih =>
    obtain ⟨one, bounded⟩ := List.forall_mem_cons.mp bounded
    have after := coherent.after call
    exact ih (closed.transfer coherent after (coherent.links_after one)) after bounded

theorem Linked.concat {origin last next : Signal} {path : List Signal} (linked : network.Linked origin.next path)
    (ends : (origin :: path).getLast? = some last) (leads : network.signal? last.next = some next) :
    network.Linked origin.next (path ++ [next]) := by
  induction path generalizing origin with
  | nil =>
    cases ends
    exact ⟨leads, trivial⟩
  | cons first rest ih =>
    obtain ⟨found, linked⟩ := linked
    exact ⟨found, ih linked (by rwa [List.getLast?_cons_cons] at ends)⟩

theorem Closed.ahead_ends (closed : network.Closed) (coherent : network.Coherent) {origin : Signal} (present : origin ∈ network.signals) :
    Ends (origin :: network.ahead origin) := by
  intro last ends
  have inside : origin ∈ network.cells := coherent.signals_eq ▸ present
  have path : origin :: network.ahead origin ⊆ network.signals := by
    rw [coherent.signals_eq]
    exact List.cons_subset.mpr ⟨inside, route_ahead.linked.subset⟩
  have member : last ∈ network.signals := path (List.mem_of_getLast? ends)
  by_cases bare : last.next = ""
  · exact .inl bare
  · obtain ⟨next, leads⟩ := Option.ne_none_iff_exists'.mp (mt (closed.next last member).mp bare)
    right
    by_contra apart
    -- The next signal would be new, so that the longest route could go on to it.
    have fresh : next.id ∉ (origin :: network.ahead origin).map (·.id) := by
      rw [coherent.signal?_id leads, List.mem_map]
      exact apart
    have longer : network.Route origin (network.ahead origin ++ [next]) := by
      refine ⟨route_ahead.linked.concat ends leads, ?_⟩
      have distinct := List.Nodup.concat fresh route_ahead.distinct
      simpa using distinct
    have bound := (longer.isPrefix inside).length_le
    rw [List.length_append, List.length_singleton] at bound
    omega

end Network

/-- A layout describes a network exactly if it is sound, and then the network holds what the layout says. From then on,
whatever moves or is evaluated and wherever trains are put, no name is without its signal: the links that are there lead
to signals, following them ends only where there is no link or where the path was met before, and no train is lost. -/
theorem Layout.build_describes (layout : Layout) (orders : Nat → Nat → Layout.Order) :
    ((∃ network, layout.build orders = .ok network) ↔ layout.Sound) ∧
    ∀ network, layout.build orders = .ok network → layout.Describes network ∧
      ∀ calls : List TrackCall, (∀ call ∈ calls, ∀ signal, call ≠ .add signal) →
        (network.run calls).Closed ∧
        (∀ origin ∈ (network.run calls).signals, Network.Ends (origin :: (network.run calls).ahead origin)) ∧
        ∀ seconds, ((network.run calls).advance seconds).fault = none := by
  refine ⟨build_iff_sound, ?_⟩
  intro network built
  refine ⟨describes_of_build built, ?_⟩
  intro calls bounded
  have coherent := build_coherent built
  have closed := (closed_of_build built).run coherent bounded
  refine ⟨closed, fun origin present => closed.ahead_ends (coherent.run calls) present, ?_⟩
  intro seconds
  exact ((coherent.run calls).advance seconds).2

/-- A line and its opposite, which refer to each other before and behind. -/
private def line : Layout where
  signals := [
    { id := "east", next := "yard", opposite := "west", heads := [{ kind := "main", aspects := ["CLEAR_2", "STOP"] }] },
    { id := "west", next := "west", opposite := "east", block := "BLOCK_CLEAR" }, { id := "yard" }]
  train := some { signal := "yard" }

theorem build_describes_line : line.Sound ∧ ∃ network, line.build (fun _ _ _ => 0) = .ok network ∧ line.Describes network ∧
    ∀ seconds, (network.run [.advance seconds, .placeTrain none]).Closed := by
  obtain ⟨sound, described⟩ := line.build_describes fun _ _ _ => 0
  have built : line.build (fun _ _ _ => 0) = .ok _ := rfl
  obtain ⟨describes, onward⟩ := described _ built
  refine ⟨sound.mp ⟨_, built⟩, _, built, describes, fun seconds => (onward _ ?_).1⟩
  simp

end Lineside
