import Lineside.Engine
import Lineside.Proofs.Attachment
import Lineside.Proofs.ScriptSteps

/-! A script writes nothing but its own head, and of that only the parts a script can write. Signals, the
train and all other heads are left as they were, by an evaluation and by a whole tick. -/

namespace Lineside

namespace Network

theorem head?_modifyHead_self (network : Network) (ref : HeadRef) (change : Head → Head) :
    (network.modifyHead ref change).head? ref = (network.head? ref).map change := by
  simp [head?_modifyHead]

theorem head?_modifyHead_other (network : Network) {ref other : HeadRef} (apart : other ≠ ref)
    (change : Head → Head) : (network.modifyHead ref change).head? other = network.head? other := by
  simp [head?_modifyHead, apart.symm]

theorem modifyHead_modifyHead (network : Network) (ref : HeadRef) (first second : Head → Head) :
    (network.modifyHead ref first).modifyHead ref second = network.modifyHead ref (second ∘ first) := by
  simp [modifyHead, modifySignal, List.modify_modify_eq, Function.comp_def]

theorem modifyHead_id (network : Network) (ref : HeadRef) : network.modifyHead ref id = network := by
  have same : (fun signal : Signal => signal) = id := rfl
  simp [modifyHead, modifySignal, List.modify_id, same]

end Network

/-- A function of the table was called. -/
def Called (deeds : List Deed) (function : Builtin) : Prop :=
  ∃ given p1 p2, .call (.builtin function) given p1 p2 ∈ deeds

theorem Called.mono {deeds more : List Deed} (kept : deeds ⊆ more) {function : Builtin}
    (called : Called deeds function) : Called more function := by
  obtain ⟨given, p1, p2, member⟩ := called
  exact ⟨given, p1, p2, kept member⟩

theorem Step.called_deeds (function : Builtin) (given : Nat) (p1 p2 : Int64) (deeds : List Deed) :
    Called ((Step.call (.builtin function) given p1 p2).deeds ++ deeds) function :=
  ⟨given, p1, p2, by simp [Step.deeds]⟩

namespace Head

/-- A head in which only those parts differ that a script can write. -/
def Rewritten (before after : Head) : Prop :=
  after = { before with
    state := after.state, drawState := after.drawState, approachPosition := after.approachPosition
    approachSpeed := after.approachSpeed, partialRoute := after.partialRoute }

/-- What the run of a script makes of its head. Limits and the partial route are touched by calls only. -/
structure Driven (deeds : List Deed) (before after : Head) : Prop where
  rewritten : before.Rewritten after
  position : after.approachPosition ≠ before.approachPosition →
    Called deeds .approachControlPosition ∨ Called deeds .approachControlSpeed
  speed : after.approachSpeed ≠ before.approachSpeed → Called deeds .approachControlSpeed
  partialRoute : after.partialRoute ≠ before.partialRoute → Called deeds .allowClearToPartialRoute

namespace Rewritten

theorem refl (head : Head) : head.Rewritten head := rfl

theorem option_refl (entry : Option Head) : Option.Rel Rewritten entry entry := by
  cases entry with
  | none => exact .none
  | some head => exact .some (refl head)

theorem trans {first second third : Head} (one : first.Rewritten second) (two : second.Rewritten third) :
    first.Rewritten third := by
  unfold Rewritten at *
  rw [two, one]

theorem owner {before after : Head} (rewritten : before.Rewritten after) : after.owner = before.owner := by
  rw [rewritten]

theorem kind {before after : Head} (rewritten : before.Rewritten after) : after.kind = before.kind := by
  rw [rewritten]

end Rewritten

namespace Driven

variable {deeds more : List Deed} {before middle after : Head}

theorem refl (deeds : List Deed) (head : Head) : head.Driven deeds head :=
  ⟨.refl head, fun changed => absurd rfl changed, fun changed => absurd rfl changed, fun changed => absurd rfl changed⟩

theorem mono (kept : deeds ⊆ more) (driven : before.Driven deeds after) : before.Driven more after where
  rewritten := driven.rewritten
  position := fun changed => (driven.position changed).imp (.mono kept) (.mono kept)
  speed := fun changed => (driven.speed changed).mono kept
  partialRoute := fun changed => (driven.partialRoute changed).mono kept

theorem trans (first : before.Driven deeds middle) (second : middle.Driven deeds after) : before.Driven deeds after where
  rewritten := first.rewritten.trans second.rewritten
  position := fun changed => by
    by_cases late : after.approachPosition = middle.approachPosition
    · exact first.position (late ▸ changed)
    · exact second.position late
  speed := fun changed => by
    by_cases late : after.approachSpeed = middle.approachSpeed
    · exact first.speed (late ▸ changed)
    · exact second.speed late
  partialRoute := fun changed => by
    by_cases late : after.partialRoute = middle.partialRoute
    · exact first.partialRoute (late ▸ changed)
    · exact second.partialRoute late

theorem state (deeds : List Deed) (head : Head) (aspect : Aspect) : head.Driven deeds { head with state := aspect } :=
  ⟨rfl, by simp, by simp, by simp⟩

theorem drawState (deeds : List Deed) (head : Head) (value : Int64) :
    head.Driven deeds { head with drawState := value } :=
  ⟨rfl, by simp, by simp, by simp⟩

end Driven

end Head

/-- A head outside the network in which only those parts differ that a script can write. -/
def ForeignHead.Rewritten (before after : ForeignHead) : Prop :=
  after = { before with state := after.state, drawState := after.drawState, writes := after.writes }

/-- What a run makes of its scene: it changes its own head, wherever that is. -/
inductive Scene.Driven (deeds : List Deed) : Scene → Scene → Prop where
  | mounted {network : Network} {ref : HeadRef} {change : Head → Head}
      (driven : ∀ head : Head, head.Driven deeds (change head)) :
      Driven deeds ⟨network, .mounted ref⟩ ⟨network.modifyHead ref change, .mounted ref⟩
  | loose {network : Network} {head changed : Head} (driven : head.Driven deeds changed) :
      Driven deeds ⟨network, .loose head⟩ ⟨network, .loose changed⟩
  | foreign {network : Network} {head changed : ForeignHead} (rewritten : head.Rewritten changed) :
      Driven deeds ⟨network, .foreign head⟩ ⟨network, .foreign changed⟩

namespace Scene.Driven

variable {deeds more : List Deed} {start scene : Scene}

theorem refl (deeds : List Deed) (scene : Scene) : Scene.Driven deeds scene scene := by
  obtain ⟨network, ref | head | head⟩ := scene
  · have same : Scene.Driven deeds ⟨network, .mounted ref⟩ ⟨network.modifyHead ref id, .mounted ref⟩ :=
      .mounted fun head => .refl deeds head
    rwa [network.modifyHead_id ref] at same
  · exact .loose (.refl deeds head)
  · exact .foreign rfl

theorem mono (kept : deeds ⊆ more) (driven : Scene.Driven deeds start scene) : Scene.Driven more start scene := by
  cases driven with
  | mounted driven => exact .mounted fun head => (driven head).mono kept
  | loose driven => exact .loose (driven.mono kept)
  | foreign rewritten => exact .foreign rewritten

theorem modifyHead {change : Head → Head} (driven : Scene.Driven deeds start scene)
    (allowed : ∀ head : Head, head.Driven deeds (change head)) : Scene.Driven deeds start (scene.modifyHead change) := by
  cases driven with
  | mounted driven =>
    simp only [Scene.modifyHead, Network.modifyHead_modifyHead]
    exact .mounted fun head => (driven head).trans (allowed _)
  | loose driven => exact .loose (driven.trans (allowed _))
  | foreign rewritten => exact .foreign rewritten

theorem setState (driven : Scene.Driven deeds start scene) (aspect : Aspect) :
    Scene.Driven deeds start (scene.setState aspect) := by
  cases driven with
  | mounted driven => exact (Scene.Driven.mounted driven).modifyHead fun head => .state deeds head aspect
  | loose driven => exact .loose (driven.trans (.state deeds _ aspect))
  | foreign rewritten =>
    refine .foreign ?_
    unfold ForeignHead.Rewritten at *
    rw [ForeignHead.setState, rewritten]

theorem setDrawState (driven : Scene.Driven deeds start scene) (value : Int64) :
    Scene.Driven deeds start (scene.setDrawState value) := by
  cases driven with
  | mounted driven => exact (Scene.Driven.mounted driven).modifyHead fun head => .drawState deeds head value
  | loose driven => exact .loose (driven.trans (.drawState deeds _ value))
  | foreign rewritten =>
    refine .foreign ?_
    unfold ForeignHead.Rewritten at *
    rw [ForeignHead.setDrawState, rewritten]

/-- A call is on record before it changes the head. -/
theorem step {step : Step} {changed : Scene} (driven : Scene.Driven deeds start scene)
    (changes : step.Changes scene changed) : Scene.Driven (step.deeds ++ deeds) start changed := by
  have recorded := driven.mono (List.subset_append_right step.deeds deeds)
  cases changes with
  | nothing => exact recorded
  | state value => exact recorded.setState ⟨value⟩
  | drawState value => exact recorded.setDrawState value
  | position given p1 p2 =>
    unfold Scene.requestPosition
    split
    · exact recorded
    · have called := Step.called_deeds .approachControlPosition given p1 p2 deeds
      exact recorded.modifyHead fun head => ⟨rfl, fun _ => .inl called, by simp, by simp⟩
  | speed given p1 p2 =>
    unfold Scene.requestSpeed
    split
    · exact recorded
    · have called := Step.called_deeds .approachControlSpeed given p1 p2 deeds
      exact recorded.modifyHead fun head => ⟨rfl, fun _ => .inr called, fun _ => called, by simp⟩
  | partialRoute given p1 p2 =>
    unfold Scene.allowPartialRoute
    split
    · have called := Step.called_deeds .allowClearToPartialRoute given p1 p2 deeds
      exact recorded.modifyHead fun head => ⟨rfl, by simp, by simp, fun _ => called⟩
    · exact recorded

end Scene.Driven

/-- Every step of a run goes on from what the run has made of its scene. -/
theorem Step.run_keeps_driven (start : Scene) (step : Step) :
    Eval.Keeps (fun now => Scene.Driven now.deeds start now.scene) step.run := by
  intro before driven
  obtain ⟨outcome, scene, locals, log, ran, changes⟩ := step.run_cases before
  rw [ran]
  exact driven.step changes

theorem runNodes_keeps_driven (start : Scene) (nodes : List Node) :
    Eval.Keeps (fun now => Scene.Driven now.deeds start now.scene) (runNodes nodes) :=
  (Eval.keeps_sequential _).runNodes_holds nodes fun step _ => step.run_keeps_driven start

namespace Network

/-- Two networks that differ at some places only, and there in what a script can write. -/
structure SameBesides (places : HeadRef → Prop) (before after : Network) : Prop where
  train : after.train = before.train
  table : after.table = before.table
  order : after.order = before.order
  signals : ∀ address, (after.signalAt address).map (fun signal => { signal with heads := [] }) =
    (before.signalAt address).map fun signal => { signal with heads := [] }
  heads : ∀ place, ¬ places place → after.head? place = before.head? place
  rewritten : ∀ place, Option.Rel Head.Rewritten (before.head? place) (after.head? place)

namespace SameBesides

variable {places others : HeadRef → Prop} {first second third : Network}

theorem refl (places : HeadRef → Prop) (network : Network) : network.SameBesides places network :=
  ⟨rfl, rfl, rfl, fun _ => rfl, fun _ _ => rfl, fun place => Head.Rewritten.option_refl (network.head? place)⟩

theorem trans (one : first.SameBesides places second) (two : second.SameBesides places third) :
    first.SameBesides places third where
  train := two.train.trans one.train
  table := two.table.trans one.table
  order := two.order.trans one.order
  signals := fun address => (two.signals address).trans (one.signals address)
  heads := fun place outside => (two.heads place outside).trans (one.heads place outside)
  rewritten := by
    intro place
    have early := one.rewritten place
    have late := two.rewritten place
    generalize first.head? place = head, second.head? place = middle, third.head? place = last at early late
    cases early with
    | none => exact late
    | some early =>
      cases late with
      | some late => exact .some (early.trans late)

theorem mono (more : ∀ place, places place → others place) (same : first.SameBesides places second) :
    first.SameBesides others second where
  train := same.train
  table := same.table
  order := same.order
  signals := same.signals
  heads := fun place outside => same.heads place fun inside => outside (more place inside)
  rewritten := same.rewritten

theorem modifyHead (network : Network) (ref : HeadRef) {change : Head → Head}
    (allowed : ∀ head : Head, head.Rewritten (change head)) :
    network.SameBesides (· = ref) (network.modifyHead ref change) where
  train := rfl
  table := rfl
  order := rfl
  signals := by
    intro address
    rw [Network.modifyHead, signalAt_modifySignal]
    cases network.signalAt address with
    | none => rfl
    | some signal => by_cases here : ref.signal = address <;> simp [here]
  heads := fun place outside => network.head?_modifyHead_other outside change
  rewritten := by
    intro place
    by_cases here : place = ref
    · rw [here, head?_modifyHead_self]
      cases network.head? ref with
      | none => exact .none
      | some head => exact .some (allowed head)
    · rw [head?_modifyHead_other network here]
      exact Head.Rewritten.option_refl _

theorem kind {before after : Network} (same : before.SameBesides places after) (subject : Subject) :
    Scene.kind ⟨after, subject⟩ = Scene.kind ⟨before, subject⟩ := by
  cases subject with
  | mounted ref =>
    have kept := same.rewritten ref
    simp only [Scene.kind, Scene.head?]
    generalize before.head? ref = early, after.head? ref = late at kept ⊢
    cases kept with
    | none => rfl
    | some rewritten => exact rewritten.kind
  | loose head => rfl
  | foreign head => rfl

/-- No signal is gone that a head refers to. -/
theorem attached {before after : Network} (same : before.SameBesides places after) {subject : Subject}
    (attached : Scene.Attached ⟨before, subject⟩) : Scene.Attached ⟨after, subject⟩ := by
  have there (owner : Option Address) (found : (owner.bind before.signalAt).isSome) :
      (owner.bind after.signalAt).isSome := by
    cases owner with
    | none => cases found
    | some address =>
      have kept := congrArg Option.isSome (same.signals address)
      rw [Option.isSome_map, Option.isSome_map] at kept
      exact kept.trans found
  cases subject with
  | foreign head => trivial
  | loose head =>
    simp only [Scene.Attached, Scene.own?, Scene.head?, Option.bind_some, Option.isSome_map] at attached ⊢
    exact there _ attached
  | mounted ref =>
    have kept := same.rewritten ref
    simp only [Scene.Attached, Scene.own?, Scene.head?] at attached ⊢
    generalize before.head? ref = early, after.head? ref = late at kept attached ⊢
    cases kept with
    | none => exact attached
    | @some head changed rewritten =>
      rw [Option.bind_some, Option.isSome_map] at attached ⊢
      rw [rewritten.owner]
      exact there _ attached

/-- Heads apart, the signals are the same in their order. -/
theorem signals_bare {before after : Network} (same : before.SameBesides places after) :
    after.signals.map (fun signal => { signal with heads := [] }) =
      before.signals.map fun signal => { signal with heads := [] } := by
  simp only [Network.signals, same.order, List.map_filterMap, same.signals]

end SameBesides

end Network

theorem Scene.Driven.sameBesides {deeds : List Deed} {before after : Scene} (driven : Scene.Driven deeds before after) :
    before.network.SameBesides (.mounted · = before.subject) after.network := by
  cases driven with
  | @mounted network ref change driven =>
    refine (Network.SameBesides.modifyHead network ref fun head => (driven head).rewritten).mono ?_
    rintro place rfl
    rfl
  | loose => exact .refl _ _
  | foreign => exact .refl _ _

/-- What a run makes of its own head. -/
def Scene.HeadDriven (deeds : List Deed) (before after : Scene) : Prop :=
  match before.subject with
  | .mounted ref => after.subject = .mounted ref ∧ ∀ head, before.network.head? ref = some head →
      ∃ changed, after.network.head? ref = some changed ∧ head.Driven deeds changed
  | .loose head => ∃ changed, after.subject = .loose changed ∧ head.Driven deeds changed
  | .foreign head => ∃ changed, after.subject = .foreign changed ∧ head.Rewritten changed

theorem Scene.Driven.headDriven {deeds : List Deed} {before after : Scene} (driven : Scene.Driven deeds before after) :
    Scene.HeadDriven deeds before after := by
  cases driven with
  | @mounted network ref change driven =>
    refine ⟨rfl, fun head found => ⟨change head, ?_, driven head⟩⟩
    rw [Network.head?_modifyHead_self, found, Option.map_some]
  | loose driven => exact ⟨_, rfl, driven⟩
  | foreign rewritten => exact ⟨_, rfl, rewritten⟩

namespace Engine

/-- Where the run of a script starts. -/
def outset (engine : Engine) (subject : Subject) (locals : Locals) : Invocation where
  scene := { network := engine.network, subject }
  locals := locals
  debug := engine.debug

/-- What the engine makes of a run that has ended. -/
def conclude (engine : Engine) (outcome : Except Fault Bool) (final : Invocation) : Evaluated :=
  let evaluated : Evaluated :=
    { engine := engine.settle final.scene, subject := final.scene.subject, log := final.log, deeds := final.deeds }
  match outcome with
  | .error fault => { evaluated with fault := some fault }
  | .ok true =>
    { evaluated with
      engine := evaluated.engine.count fun counters => { counters with scripts := counters.scripts + 1 } }
  | .ok false =>
    { evaluated with
      engine := evaluated.engine.count fun counters =>
        { counters with scripts := counters.scripts + 1, returns := counters.returns + 1 }
      events := [.returned final.scene.kind final.scene.state] }

theorem runScript_eq (engine : Engine) (subject : Subject) {script : Script} {locals : Locals}
    (fresh : Locals.fresh script.localCount = .ok locals) :
    engine.runScript subject script =
      let (outcome, final) := (runNodes script.nodes).run.run (engine.outset subject locals)
      engine.conclude outcome final := by
  rw [runScript, fresh]
  rfl

theorem conclude_engine (engine : Engine) (outcome : Except Fault Bool) (final : Invocation) :
    ∃ counters, (engine.conclude outcome final).engine = { engine with network := final.scene.network, counters } := by
  rcases outcome with fault | _ | _ <;> exact ⟨_, rfl⟩

theorem conclude_subject (engine : Engine) (outcome : Except Fault Bool) (final : Invocation) :
    (engine.conclude outcome final).subject = final.scene.subject := by
  rcases outcome with fault | _ | _ <;> rfl

theorem conclude_deeds (engine : Engine) (outcome : Except Fault Bool) (final : Invocation) :
    (engine.conclude outcome final).deeds = final.deeds := by
  rcases outcome with fault | _ | _ <;> rfl

/-- An evaluation drives its head and counts, and does nothing else to the engine. -/
theorem evaluate_driven (engine : Engine) (subject : Subject) (script : Option Script) :
    ∃ network counters, (engine.evaluate subject script).engine = { engine with network, counters } ∧
      Scene.Driven (engine.evaluate subject script).deeds ⟨engine.network, subject⟩
        ⟨network, (engine.evaluate subject script).subject⟩ := by
  have start := Scene.Driven.refl [] ⟨engine.network, subject⟩
  cases script with
  | none => exact ⟨_, _, rfl, start.setState _⟩
  | some script =>
    rw [evaluate]
    cases fresh : Locals.fresh script.localCount with
    | error fault =>
      rw [runScript, fresh]
      exact ⟨engine.network, engine.counters, rfl, start⟩
    | ok locals =>
      have driven := runNodes_keeps_driven _ script.nodes (engine.outset subject locals) start
      rw [engine.runScript_eq subject fresh]
      generalize (runNodes script.nodes).run.run (engine.outset subject locals) = ran at driven ⊢
      obtain ⟨outcome, final⟩ := ran
      obtain ⟨counters, settled⟩ := engine.conclude_engine outcome final
      refine ⟨final.scene.network, counters, settled, ?_⟩
      rw [conclude_subject, conclude_deeds]
      exact driven

theorem evaluate_store (engine : Engine) (subject : Subject) (script : Option Script) :
    (engine.evaluate subject script).engine.store = engine.store := by
  obtain ⟨network, counters, same, _⟩ := engine.evaluate_driven subject script
  rw [same]

/-- An evaluation does not look at the store. -/
theorem evaluate_withStore (engine : Engine) (store : Option Store) (subject : Subject) (script : Option Script) :
    evaluate { engine with store } subject script =
      { engine.evaluate subject script with engine := { (engine.evaluate subject script).engine with store } } := by
  cases script with
  | none => rfl
  | some script =>
    cases fresh : Locals.fresh script.localCount with
    | error fault =>
      simp only [evaluate, runScript, fresh]
    | ok locals =>
      have start : outset { engine with store } subject locals = engine.outset subject locals := rfl
      rw [evaluate, evaluate, runScript_eq _ _ fresh, runScript_eq _ _ fresh, start]
      rcases (runNodes script.nodes).run.run (engine.outset subject locals) with ⟨_ | _ | _, final⟩ <;> rfl

theorem lookup_engine (engine : Engine) (moment : Moment) (kind : Name) :
    ∃ store, (engine.lookup moment kind).2.1 = { engine with store } := by
  obtain ⟨network, store, counters, debug⟩ := engine
  cases store with
  | none => exact ⟨none, rfl⟩
  | some store => exact ⟨_, rfl⟩

theorem visit_driven (engine : Engine) (moment : Moment) (subject : Subject) :
    Scene.Driven (engine.visit moment subject).deeds ⟨engine.network, subject⟩
      ⟨(engine.visit moment subject).engine.network, (engine.visit moment subject).subject⟩ := by
  obtain ⟨store, changed⟩ := engine.lookup_engine moment (Scene.kind { network := engine.network, subject })
  simp only [visit, changed]
  obtain ⟨network, counters, same, driven⟩ := evaluate_driven { engine with store } subject
    (engine.lookup moment (Scene.kind { network := engine.network, subject })).1
  rw [same]
  exact driven

theorem updateAll_sameBesides (turns : List Turn) (engine : Engine) :
    engine.network.SameBesides (fun place => ∃ turn ∈ turns, turn.subject = .mounted place)
      (updateAll turns engine).engine.network := by
  induction turns generalizing engine with
  | nil => exact .refl _ _
  | cons turn rest ih =>
    have visited := (engine.visit_driven turn.moment turn.subject).sameBesides
    have first : engine.network.SameBesides (fun place => ∃ other ∈ turn :: rest, other.subject = .mounted place)
        (engine.visit turn.moment turn.subject).engine.network :=
      visited.mono fun place here => ⟨turn, by simp, here.symm⟩
    rw [updateAll]
    split
    · exact first
    · exact first.trans ((ih _).mono fun place ⟨other, member, here⟩ => ⟨other, by simp [member], here⟩)

/-- An evaluation changes its own head only, and a tick only the heads that have a turn. Of a head, only what
a script can write changes, limits and the partial route only by a call of the function that is for it. -/
theorem evaluate_frame (engine : Engine) (subject : Subject) (script : Option Script) (turns : List Turn) :
    engine.network.SameBesides (.mounted · = subject) (engine.evaluate subject script).engine.network ∧
    Scene.HeadDriven (engine.evaluate subject script).deeds ⟨engine.network, subject⟩
      ⟨(engine.evaluate subject script).engine.network, (engine.evaluate subject script).subject⟩ ∧
    (engine.evaluate subject script).engine.store = engine.store ∧
    engine.network.SameBesides (fun place => ∃ turn ∈ turns, turn.subject = .mounted place)
      (updateAll turns engine).engine.network := by
  obtain ⟨network, counters, same, driven⟩ := engine.evaluate_driven subject script
  rw [same]
  exact ⟨driven.sameBesides, driven.headDriven, rfl, updateAll_sameBesides turns engine⟩

end Engine

end Lineside
