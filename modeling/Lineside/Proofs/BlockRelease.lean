import Lineside.Proofs.TrainMovement
import Mathlib.Data.List.Induction

/-! Which blocks a moving train frees. Over a run of ticks and movements every block is what the signals passed so
far make of the block that the layout gives it. So once the train has passed a signal, the one it has passed last is
the only one that is occupied: besides the block it leaves, the train frees every block that was occupied for another
reason. -/

namespace Lineside

namespace Signal

theorem behind_append (signal : Signal) (passed later : List String) :
    (signal.behind passed).behind later = signal.behind (passed ++ later) := by
  induction later using List.reverseRecOn with
  | nil => rw [behind_nil, List.append_nil]
  | append_singleton later latest ih => rw [← behind_behind, ih, behind_behind, List.append_assoc]

/-- A signal without its heads. -/
def bare (signal : Signal) : Signal := { signal with heads := [] }

end Signal

/-- The calls that go on with a simulation: they move the train or evaluate heads. -/
def TrackCall.Moves : TrackCall → Prop
  | .advance _ | .update _ _ => True
  | .add _ | .placeTrain _ => False

namespace Network

variable {network first second third : Network}

/-- The block of the signal with an id. -/
def blockAt (network : Network) (id : String) : Option Block := (network.signal? id).map (·.block)

/-- The ids of the signals that the train passes in the course of some calls. -/
def passedIn (network : Network) : List TrackCall → List String
  | [] => []
  | .advance seconds :: calls =>
    (network.passed seconds).map (·.id) ++ (network.after (.advance seconds)).passedIn calls
  | call :: calls => (network.after call).passedIn calls

/-- Heads apart, a network differs from an earlier one by the blocks that its train has left behind. -/
def Trails (before : Network) (passed : List String) (after : Network) : Prop :=
  after.signals.map (·.bare) = before.signals.map fun signal => (signal.behind passed).bare

namespace Trails

theorem refl (network : Network) : network.Trails [] network := by
  simp only [Trails, Signal.behind_nil]

theorem trans {passed later : List String} (one : first.Trails passed second) (two : second.Trails later third) :
    first.Trails (passed ++ later) third := by
  have commutes : ∀ signal : Signal, (signal.behind later).bare = signal.bare.behind later := by
    intro signal
    rfl
  unfold Trails at *
  calc third.signals.map (·.bare)
    _ = (second.signals.map (·.bare)).map (·.behind later) := by
      rw [two, List.map_map]
      simp only [commutes, Function.comp_def]
    _ = first.signals.map fun signal => (signal.behind (passed ++ later)).bare := by
      rw [one, List.map_map]
      simp only [← commutes, Function.comp_def, Signal.behind_append]

theorem blockAt {passed : List String} (trails : first.Trails passed second) (early : first.Coherent)
    (late : second.Coherent) (id : String) : second.blockAt id = (first.signal? id).map (·.blockBehind passed) := by
  have found := congrArg (fun signals : List Signal => (signals.find? (·.id == id)).map (·.block)) trails
  simp only [List.find?_map, Option.map_map, Function.comp_def] at found
  rw [Network.blockAt, early.signal?_eq_find?, late.signal?_eq_find?]
  exact found

theorem ids {passed : List String} (trails : first.Trails passed second) : second.ids = first.ids := by
  have names := congrArg (List.map (·.id)) trails
  simp only [List.map_map, Function.comp_def] at names
  exact names

end Trails

theorem Coherent.trails_advance (coherent : network.Coherent) (seconds : Float32) :
    network.Trails ((network.passed seconds).map (·.id)) (network.advance seconds).network := by
  rw [coherent.advance_eq, Trails, signals_trailed, List.map_map]
  rfl

theorem trails_updateAll (engine : Engine) (turns : List Engine.Turn) :
    engine.network.Trails [] (Engine.updateAll turns engine).engine.network := by
  have same := (Engine.updateAll_sameBesides turns engine).signals_bare
  simp only [Trails, Signal.behind_nil]
  exact same

theorem Coherent.trails_run (coherent : network.Coherent) {calls : List TrackCall} (moving : ∀ call ∈ calls, call.Moves) :
    network.Trails (network.passedIn calls) (network.run calls) := by
  induction calls generalizing network with
  | nil => exact .refl network
  | cons call calls ih =>
    obtain ⟨moves, moving⟩ := List.forall_mem_cons.mp moving
    have rest := ih (coherent.after call) moving
    cases call with
    | add signal => cases moves
    | placeTrain train => cases moves
    | advance seconds => exact (coherent.trails_advance seconds).trans rest
    | update engine turns => exact (trails_updateAll { engine with network } turns).trans rest

/-- Once a signal was passed, the occupied block is that of the last one. -/
theorem Trails.occupied {passed : List String} {last : String} (trails : first.Trails (passed ++ [last]) second)
    (early : first.Coherent) (late : second.Coherent) (present : last ∈ first.ids) (id : String) :
    second.blockAt id = some .occupied ↔ id = last := by
  rw [trails.blockAt early late]
  constructor
  · intro held
    obtain ⟨signal, here, held⟩ := Option.map_eq_some_iff.mp held
    rw [signal.blockBehind_eq_occupied] at held
    rw [← early.signal?_id here, held]
  · rintro rfl
    obtain ⟨signal, here⟩ := early.exists_signal?.mpr present
    rw [here, Option.map_some, (signal.blockBehind_eq_occupied passed id).mpr (early.signal?_id here)]

/-- A block that changes belongs to a signal that was passed, or it was occupied and some signal was passed. -/
theorem Trails.changed {passed : List String} (trails : first.Trails passed second) (early : first.Coherent)
    (late : second.Coherent) {id : String} (changed : second.blockAt id ≠ first.blockAt id) :
    id ∈ passed ∨ passed ≠ [] ∧ first.blockAt id = some .occupied := by
  rw [trails.blockAt early late, Network.blockAt] at changed
  cases here : first.signal? id with
  | none => simp [here] at changed
  | some signal =>
    rw [here, Option.map_some, Option.map_some] at changed
    rcases passed.eq_nil_or_concat' with rfl | ⟨front, last, rfl⟩
    · exact absurd rfl changed
    · by_contra apart
      simp only [not_or, not_and, List.mem_append, List.mem_singleton, Network.blockAt, here, Option.map_some,
        Option.some.injEq] at apart
      obtain ⟨⟨unseen, other⟩, free⟩ := apart
      apply changed
      rw [signal.blockBehind_concat, early.signal?_id here]
      simp [unseen, other, free]

theorem Coherent.passed_subset (coherent : network.Coherent) (seconds : Float32) :
    (network.passed seconds).map (·.id) ⊆ network.ids := by
  cases standing : network.train with
  | none => simp [passed, travel, standing]
  | some train =>
    have inside := List.map_subset Signal.id (coherent.trip standing seconds).along.subset
    rwa [← coherent.signals_eq] at inside

theorem Coherent.passedIn_subset (coherent : network.Coherent) {calls : List TrackCall}
    (moving : ∀ call ∈ calls, call.Moves) : network.passedIn calls ⊆ network.ids := by
  induction calls generalizing network with
  | nil => exact List.nil_subset _
  | cons call calls ih =>
    obtain ⟨moves, moving⟩ := List.forall_mem_cons.mp moving
    have rest := ih (coherent.after call) moving
    cases call with
    | add signal => cases moves
    | placeTrain train => cases moves
    | advance seconds =>
      have same : (network.after (.advance seconds)).ids = network.ids := (coherent.trails_advance seconds).ids
      rw [same] at rest
      exact List.append_subset.mpr ⟨coherent.passed_subset seconds, rest⟩
    | update engine turns =>
      have same : (network.after (.update engine turns)).ids = network.ids :=
        (trails_updateAll { engine with network } turns).ids
      rwa [same] at rest

/-- From a network that a layout describes, a run of ticks and movements leaves all blocks alone until the train passes a
signal, and then the signal it has passed last is the only one whose block is occupied. A movement changes the blocks of
signals that the train passes in it and of the one passed last before; the first signals to be passed also free every
block that the layout has occupied. -/
theorem run_releases {layout : Layout} {orders : Nat → Nat → Layout.Order} {start : Network}
    (built : layout.build orders = .ok start) {calls : List TrackCall} (moving : ∀ call ∈ calls, call.Moves) :
    (start.passedIn calls = [] → ∀ id, (start.run calls).blockAt id = start.blockAt id) ∧
    (∀ front last, start.passedIn calls = front ++ [last] →
      ∀ id, (start.run calls).blockAt id = some .occupied ↔ id = last) ∧
    ∀ seconds id, ((start.run calls).advance seconds).network.blockAt id ≠ (start.run calls).blockAt id →
      (∃ signal ∈ (start.run calls).passed seconds, signal.id = id) ∨ (∃ front, start.passedIn calls = front ++ [id]) ∨
        start.passedIn calls = [] ∧ (start.run calls).passed seconds ≠ [] ∧ start.blockAt id = some .occupied := by
  have coherent : start.Coherent := Layout.build_coherent built
  have after := coherent.run calls
  have trails := coherent.trails_run moving
  have untouched : start.passedIn calls = [] → ∀ id, (start.run calls).blockAt id = start.blockAt id := by
    intro none id
    rw [none] at trails
    exact trails.blockAt coherent after id
  have latest : ∀ front last, start.passedIn calls = front ++ [last] →
      ∀ id, (start.run calls).blockAt id = some .occupied ↔ id = last := by
    intro front last passed id
    rw [passed] at trails
    apply trails.occupied coherent after
    apply coherent.passedIn_subset moving
    simp [passed]
  refine ⟨untouched, latest, ?_⟩
  intro seconds id changed
  rcases (after.trails_advance seconds).changed after (after.advance seconds).1 changed with member | ⟨some, held⟩
  · exact .inl (List.mem_map.mp member)
  · rcases (start.passedIn calls).eq_nil_or_concat' with none | ⟨front, last, passed⟩
    · rw [untouched none] at held
      exact .inr (.inr ⟨none, by simpa using some, held⟩)
    · -- The only block that was occupied is that of the signal passed last.
      rw [latest front last passed] at held
      exact .inr (.inl ⟨front, held ▸ passed⟩)

end Network

/-- A train that leaves the line at its only signal, and a siding on which something else stands. -/
private def terminus : Layout where
  signals := [{ id := "exit", heads := [{ kind := "main" }] }, { id := "siding", block := "OCCUPIED" }]
  train := some { signal := "exit", distance := 10, speed := 20 }

theorem run_releases_terminus :
    ∃ start, terminus.build (fun _ _ _ => 0) = .ok start ∧ start.passedIn [.update {} [], .advance 1] = ["exit"] ∧
      ∀ id, (start.run [.update {} [], .advance 1]).blockAt id = some .occupied ↔ id = "exit" := by
  have built : terminus.build (fun _ _ _ => 0) = .ok _ := rfl
  have moving : ∀ call ∈ [TrackCall.update {} [], .advance 1], call.Moves := by simp [TrackCall.Moves]
  obtain ⟨_, latest, _⟩ := Network.run_releases built moving
  exact ⟨_, built, by decide, latest [] "exit" (by decide)⟩

/-- The siding is occupied from the beginning and never passed, and yet its block is free in the end. -/
theorem run_frees_siding :
    ∃ start, terminus.build (fun _ _ _ => 0) = .ok start ∧ start.blockAt "siding" = some .occupied ∧
      "siding" ∉ start.passedIn [.advance 1] ∧ (start.run [.advance 1]).blockAt "siding" = some .clear := by
  exact ⟨_, rfl, by decide, by decide, by decide⟩

end Lineside
