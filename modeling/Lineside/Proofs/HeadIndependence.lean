import Lineside.Proofs.HeadFrame

/-! Heads on signals that cannot see each other can be evaluated in either order. A query reads the head's own
signal, the signals ahead of it, its opposite signal and the train. A change of a head anywhere else makes no
difference to a run, and the run makes none to the change. -/

namespace Lineside

namespace Network

/-- The signals whose heads can be read for a head of a signal, besides that signal. -/
def visible (network : Network) (signal : Signal) : List String :=
  (network.ahead signal ++ (network.signal? signal.opposite).toList).map (·.id)

variable (network : Network) {ref other : HeadRef} (change : Head → Head)

theorem modifyHead_comm (apart : ref.signal ≠ other.signal) (first second : Head → Head) :
    (network.modifyHead ref first).modifyHead other second =
      (network.modifyHead other second).modifyHead ref first := by
  simp only [modifyHead, modifySignal]
  congr 1
  exact List.modify_modify_ne _ _ _ apart

theorem signalAt_modifyHead_other {address : Address} (apart : ref.signal ≠ address) :
    (network.modifyHead ref change).signalAt address = network.signalAt address := by
  simp [modifyHead, signalAt_modifySignal, apart]

/-- Ids and links are left alone by a change of a head. -/
theorem signal?_modifyHead (ref : HeadRef) (id : String) :
    ∃ heads : Signal → List Head, (network.modifyHead ref change).signal? id =
      (network.signal? id).map fun signal => { signal with heads := heads signal } := by
  simp only [signal?, modifyHead, locate?_modifySignal]
  cases network.locate? id with
  | none => exact ⟨(·.heads), rfl⟩
  | some found =>
    by_cases here : ref.signal = found.1
    · exact ⟨fun signal => signal.heads.modify ref.index change, by simp [here]⟩
    · exact ⟨(·.heads), by simp [here]⟩

theorem signal?_modifyHead_other {id : String} {target : Signal} (carries : network.signalAt ref.signal = some target)
    (apart : ∀ signal, network.signal? id = some signal → signal.id ≠ target.id) :
    (network.modifyHead ref change).signal? id = network.signal? id := by
  simp only [signal?, modifyHead, locate?_modifySignal]
  cases found : network.locate? id with
  | none => rfl
  | some pair =>
    have there : network.signalAt pair.1 = some pair.2 := (locate?_eq_some.mp found).2
    have elsewhere : ref.signal ≠ pair.1 := by
      intro same
      rw [same, there] at carries
      exact apart pair.2 (by simp [signal?, found]) (congrArg Signal.id (Option.some.inj carries))
    simp [elsewhere]

/-- Walks go along links and ids, which a change of a head leaves alone. -/
theorem follow_modifyHead_ids (ref : HeadRef) (steps : Nat) (seen : List String) (id : String) :
    ((network.modifyHead ref change).follow steps seen id).map (·.id) = (network.follow steps seen id).map (·.id) := by
  induction steps generalizing seen id with
  | zero => rfl
  | succ steps ih =>
    obtain ⟨heads, found⟩ := network.signal?_modifyHead change ref id
    rw [follow, follow, found]
    cases network.signal? id with
    | none => rfl
    | some signal => by_cases met : signal.id ∈ seen <;> simp [met, ih]

theorem follow_modifyHead {steps : Nat} {seen : List String} {id : String} {target : Signal}
    (carries : network.signalAt ref.signal = some target)
    (unseen : target.id ∉ (network.follow steps seen id).map (·.id)) :
    (network.modifyHead ref change).follow steps seen id = network.follow steps seen id := by
  induction steps generalizing seen id with
  | zero => rfl
  | succ steps ih =>
    rw [follow] at unseen
    rw [follow, follow]
    cases found : network.signal? id with
    | none =>
      obtain ⟨heads, changed⟩ := network.signal?_modifyHead change ref id
      rw [changed, found]
      rfl
    | some signal =>
      rw [found] at unseen
      by_cases met : signal.id ∈ seen
      · -- The walk ends here, whatever the heads of the signal are.
        obtain ⟨heads, changed⟩ := network.signal?_modifyHead change ref id
        simp [changed, found, met]
      · simp only [met, if_false, List.map_cons, List.mem_cons, not_or] at unseen
        have apart : ∀ other, network.signal? id = some other → other.id ≠ target.id := by
          intro other here
          rw [found] at here
          cases here
          exact unseen.1 ∘ Eq.symm
        rw [network.signal?_modifyHead_other change carries apart, found]
        simp only [met, if_false]
        rw [ih unseen.2]

theorem visible_modifyHead (ref : HeadRef) (signal : Signal) (heads : List Head) :
    (network.modifyHead ref change).visible { signal with heads } = network.visible signal := by
  have count : (network.modifyHead ref change).cells.length = network.cells.length := by
    simp [modifyHead, modifySignal]
  obtain ⟨heads, found⟩ := network.signal?_modifyHead change ref signal.opposite
  simp only [visible, ahead, count, List.map_append, follow_modifyHead_ids, found]
  cases network.signal? signal.opposite <;> rfl

theorem Mounted.modifyHead {network : Network} (mounted : network.Mounted ref) {change : Head → Head}
    (keeps : ∀ head, (change head).owner = head.owner) (other : HeadRef) : (network.modifyHead other change).Mounted ref := by
  obtain ⟨head, there, owner⟩ := mounted
  rw [Mounted, head?_modifyHead, there]
  by_cases here : other = ref <;> simp [here, keeps, owner]

end Network

namespace Scene

/-- The scene after a head of the network was changed from outside. -/
def displaced (scene : Scene) (ref : HeadRef) (change : Head → Head) : Scene :=
  { scene with network := scene.network.modifyHead ref change }

/-- The scene belongs to a mounted head that cannot see the heads of a signal. -/
def Blind (address : Address) (scene : Scene) : Prop :=
  ∃ own signal target, scene.subject = .mounted own ∧ scene.network.Mounted own ∧ own.signal ≠ address ∧
    scene.network.signalAt own.signal = some signal ∧ scene.network.signalAt address = some target ∧
    target.id ∉ scene.network.visible signal

theorem Blind.driven {address : Address} {deeds : List Deed} {scene changed : Scene} (blind : scene.Blind address)
    (driven : Scene.Driven deeds scene changed) : changed.Blind address := by
  obtain ⟨own, signal, target, subject, mounted, apart, here, there, unseen⟩ := blind
  cases driven with
  | @mounted network ref change driven =>
    cases subject
    have keeps : ∀ head, (change head).owner = head.owner := fun head => (driven head).rewritten.owner
    refine ⟨own, { signal with heads := signal.heads.modify own.index change }, target, rfl,
      mounted.modifyHead keeps own, apart, ?_, ?_, ?_⟩
    · simp [Network.modifyHead, Network.signalAt_modifySignal, here]
    · rw [Network.signalAt_modifyHead_other network change apart, there]
    · rwa [Network.visible_modifyHead]
  | loose => cases subject
  | foreign => cases subject

section Questions

variable {scene : Scene} {ref : HeadRef} (blind : scene.Blind ref.signal) (change : Head → Head)

include blind

theorem head?_displaced : (scene.displaced ref change).head? = scene.head? := by
  obtain ⟨own, _, _, subject, _, apart, _⟩ := blind
  have elsewhere : own ≠ ref := fun same => apart (congrArg HeadRef.signal same)
  simp only [head?, displaced, subject, scene.network.head?_modifyHead_other elsewhere]

theorem own?_displaced : (scene.displaced ref change).own? = scene.own? := by
  have unmoved := head?_displaced blind change
  obtain ⟨own, _, _, subject, ⟨head, there, owner⟩, apart, _⟩ := blind
  have here : scene.head? = some head := by simp only [head?, subject, there]
  have same : (scene.displaced ref change).network.signalAt own.signal = scene.network.signalAt own.signal :=
    scene.network.signalAt_modifyHead_other change apart.symm
  rw [own?, own?, unmoved, here]
  simp only [Option.bind_some, owner, same]

theorem kind_displaced : (scene.displaced ref change).kind = scene.kind := by
  have subject : (scene.displaced ref change).subject = scene.subject := rfl
  simp only [kind, subject, head?_displaced blind change]

theorem state_displaced : (scene.displaced ref change).state = scene.state := by
  have subject : (scene.displaced ref change).subject = scene.subject := rfl
  simp only [state, subject, head?_displaced blind change]

theorem drawState_displaced : (scene.displaced ref change).drawState = scene.drawState := by
  have subject : (scene.displaced ref change).subject = scene.subject := rfl
  simp only [drawState, subject, head?_displaced blind change]

theorem unseen_of_own? {signal : Signal} {head : Head} (found : scene.own? = some (signal, head)) :
    ∃ target, scene.network.signalAt ref.signal = some target ∧ target.id ∉ scene.network.visible signal := by
  obtain ⟨own, _, target, subject, mounted, _, here, there, unseen⟩ := blind
  obtain ⟨other, _, carries, _, _, asked⟩ := own?_mounted mounted
  rw [← subject] at asked
  cases here.symm.trans carries
  cases asked.symm.trans found
  exact ⟨target, there, unseen⟩

theorem ahead_displaced : (scene.displaced ref change).ahead = scene.ahead := by
  have own := own?_displaced blind change
  unfold ahead
  rw [own]
  cases found : scene.own? with
  | none => rfl
  | some pair =>
    obtain ⟨target, there, unseen⟩ := unseen_of_own? blind found
    simp only [Network.visible, List.map_append, List.mem_append, not_or] at unseen
    have count : (scene.displaced ref change).network.cells.length = scene.network.cells.length := by
      simp [displaced, Network.modifyHead, Network.modifySignal]
    simp only [Network.ahead, count]
    exact Network.follow_modifyHead scene.network change there unseen.1

theorem oppositeAspects_displaced (role : Role) :
    (scene.displaced ref change).oppositeAspects role = scene.oppositeAspects role := by
  have own := own?_displaced blind change
  unfold oppositeAspects
  rw [own]
  cases found : scene.own? with
  | none => rfl
  | some pair =>
    obtain ⟨target, there, unseen⟩ := unseen_of_own? blind found
    have apart : ∀ signal, scene.network.signal? pair.1.opposite = some signal → signal.id ≠ target.id := by
      intro signal opposite same
      simp [Network.visible, opposite, same] at unseen
    simp only [displaced, Network.signal?_modifyHead_other scene.network change there apart]

theorem slotValue_displaced (slot : Slot) : (scene.displaced ref change).slotValue slot = scene.slotValue slot := by
  have own := own?_displaced blind change
  have head := head?_displaced blind change
  have subject : (scene.displaced ref change).subject = scene.subject := rfl
  cases slot <;>
    simp only [slotValue, state_displaced blind, drawState_displaced blind, enabled, headBlock, approachPosition,
      approachSpeed, own, head, subject]

theorem fallback_displaced : (scene.displaced ref change).fallback = scene.fallback := by
  have own := own?_displaced blind change
  have head := head?_displaced blind change
  have subject : (scene.displaced ref change).subject = scene.subject := rfl
  have block : (scene.displaced ref change).block = scene.block := by simp only [Scene.block, own]
  rw [fallback, fallback, block]
  simp only [leastRestrictive, mostRestrictive, head, subject]

theorem modifyHead_displaced (write : Head → Head) :
    (scene.displaced ref change).modifyHead write = (scene.modifyHead write).displaced ref change := by
  obtain ⟨own, _, _, subject, _, apart, _⟩ := blind
  simp only [modifyHead, displaced, subject, Network.modifyHead_comm scene.network apart.symm]

end Questions

end Scene

/-- The invocation after a head of its network was changed from outside. -/
def Invocation.displaced (now : Invocation) (ref : HeadRef) (change : Head → Head) : Invocation :=
  { now with scene := now.scene.displaced ref change }

namespace Eval

variable {α β : Type} {ref : HeadRef} {change : Head → Head}

/-- A change of a head that the scene cannot see makes no difference to a program, and the program none to it. -/
structure Oblivious (ref : HeadRef) (change : Head → Head) (program : Eval α) : Prop where
  keeps : Keeps (·.scene.Blind ref.signal) program
  same : ∀ before : Invocation, before.scene.Blind ref.signal →
    program.run.run (before.displaced ref change) = (program.run.run before).map id (·.displaced ref change)

theorem Oblivious.bind {program : Eval α} {next : α → Eval β} (first : Oblivious ref change program)
    (rest : ∀ answer, Oblivious ref change (next answer)) : Oblivious ref change (program >>= next) where
  keeps := first.keeps.bind fun answer => (rest answer).keeps
  same := by
    intro before blind
    have same := first.same before blind
    have kept := first.keeps before blind
    rw [run_bind, run_bind, same]
    rcases ran : program.run.run before with ⟨_ | answer, after⟩
    · rfl
    · rw [ran] at kept
      exact (rest answer).same after kept

theorem oblivious_sequential (ref : HeadRef) (change : Head → Head) :
    Sequential fun _ program => Oblivious ref change program where
  pure answer := ⟨.pure answer, fun _ _ => rfl⟩
  bind := .bind

end Eval

namespace Scene

section Actions

variable {scene : Scene} {ref : HeadRef} (blind : scene.Blind ref.signal) (change : Head → Head)

include blind

theorem requestPosition_displaced (distance : Int64) :
    (scene.displaced ref change).requestPosition distance =
      (scene.requestPosition distance).map id (·.displaced ref change) := by
  have own := own?_displaced blind change
  unfold requestPosition
  rw [own]
  cases scene.own? with
  | none => rfl
  | some pair =>
    simp only [modifyHead_displaced blind change]
    rfl

theorem requestSpeed_displaced (distance speed : Int64) :
    (scene.displaced ref change).requestSpeed distance speed =
      (scene.requestSpeed distance speed).map id (·.displaced ref change) := by
  have own := own?_displaced blind change
  unfold requestSpeed
  rw [own]
  cases scene.own? with
  | none => rfl
  | some pair =>
    simp only [modifyHead_displaced blind change]
    rfl

theorem allowPartialRoute_displaced (allow : Bool) :
    (scene.displaced ref change).allowPartialRoute allow = (scene.allowPartialRoute allow).displaced ref change := by
  have own := own?_displaced blind change
  unfold allowPartialRoute
  rw [own]
  cases scene.own? with
  | none => rfl
  | some pair => exact modifyHead_displaced blind change _

theorem setState_displaced (aspect : Aspect) :
    (scene.displaced ref change).setState aspect = (scene.setState aspect).displaced ref change := by
  have written := modifyHead_displaced blind change fun head => { head with state := aspect }
  obtain ⟨own, _, _, subject, _⟩ := blind
  simpa only [setState, displaced, subject] using written

theorem setDrawState_displaced (value : Int64) :
    (scene.displaced ref change).setDrawState value = (scene.setDrawState value).displaced ref change := by
  have written := modifyHead_displaced blind change fun head => { head with drawState := value }
  obtain ⟨own, _, _, subject, _⟩ := blind
  simpa only [setDrawState, displaced, subject] using written

end Actions

end Scene

section Steps

variable {ref : HeadRef} {before : Invocation} {change : Head → Head}

namespace Eval

theorem run_ask_displaced {α : Type} {question : Scene → α}
    (same : question (before.scene.displaced ref change) = question before.scene) :
    (ask question).run.run (before.displaced ref change) =
      ((ask question).run.run before).map id (·.displaced ref change) :=
  congrArg (fun answer => (Except.ok answer, before.displaced ref change)) same

theorem run_act_displaced {α : Type} {action : Scene → α × Scene}
    (same : action (before.scene.displaced ref change) = (action before.scene).map id (·.displaced ref change)) :
    (act action).run.run (before.displaced ref change) =
      ((act action).run.run before).map id (·.displaced ref change) :=
  congrArg (fun answer : α × Scene => ((.ok answer.1 : Except Fault α), ({ before with scene := answer.2 } : Invocation)))
    same

theorem run_map_displaced {α β : Type} {program : Eval α} (f : α → β)
    (same : program.run.run (before.displaced ref change) =
      (program.run.run before).map id (·.displaced ref change)) :
    (f <$> program).run.run (before.displaced ref change) =
      ((f <$> program).run.run before).map id (·.displaced ref change) := by
  rw [map_eq_pure_bind, run_bind, run_bind, same]
  rcases program.run.run before with ⟨_ | _, _⟩ <;> rfl

theorem run_note_displaced {line : Scene → String}
    (same : line (before.scene.displaced ref change) = line before.scene) :
    (do note line; return 0 : Eval Int64).run.run (before.displaced ref change) =
      ((do note line; return 0 : Eval Int64).run.run before).map id (·.displaced ref change) := by
  have written : (if before.debug then { before.displaced ref change with
        log := before.log ++ [⟨.debug, line (before.scene.displaced ref change)⟩] } else before.displaced ref change) =
      (if before.debug then { before with log := before.log ++ [⟨.debug, line before.scene⟩] } else before).displaced
        ref change := by
    rw [same]
    split <;> rfl
  exact congrArg (Prod.mk (Except.ok 0)) written

end Eval

theorem Builtin.call_displaced (blind : before.scene.Blind ref.signal) (change : Head → Head) (function : Builtin)
    (p1 p2 : Int64) :
    (function.call p1 p2).run.run (before.displaced ref change) =
      ((function.call p1 p2).run.run before).map id (·.displaced ref change) := by
  have own := Scene.own?_displaced blind change
  have ahead := Scene.ahead_displaced blind change
  have opposite := Scene.oppositeAspects_displaced blind change
  have train (signal : Signal) : (before.scene.displaced ref change).network.trainBefore signal =
    before.scene.network.trainBefore signal := rfl
  cases function <;> rw [Builtin.call]
  case approachControlPosition =>
    exact Eval.run_map_displaced _ (Eval.run_act_displaced (Scene.requestPosition_displaced blind change p1))
  case approachControlSpeed =>
    exact Eval.run_map_displaced _ (Eval.run_act_displaced (Scene.requestSpeed_displaced blind change p1 p2))
  case allowClearToPartialRoute =>
    refine Eval.run_act_displaced ?_
    rw [Scene.allowPartialRoute_displaced blind change]
    rfl
  case debugHeader =>
    refine Eval.run_note_displaced ?_
    rw [Scene.kind_displaced blind, Scene.state_displaced blind, Scene.drawState_displaced blind]
  case debugOut =>
    refine Eval.run_note_displaced ?_
    rw [Scene.kind_displaced blind]
  -- Every other function is a question about what a blind scene can see.
  all_goals
    refine Eval.run_ask_displaced ?_
    simp only [Scene.block, Scene.routeSet, Scene.nextLeast, Scene.nextMost, Scene.nthAspects, Scene.thisLeast,
      Scene.thisMost, Scene.thisAspects, Scene.oppositeLeast, Scene.oppositeMost, Scene.distantMost, Scene.feature,
      Scene.callOn, Scene.hasHead, Scene.defaultDrawState, own, ahead, opposite, train]

theorem Step.run_displaced (blind : before.scene.Blind ref.signal) (change : Head → Head) (step : Step) :
    step.run.run.run (before.displaced ref change) =
      (step.run.run.run before).map id (·.displaced ref change) := by
  cases step with
  | stop fault => rfl
  | passOver => rfl
  | readLocal index => rfl
  | readSlot slot =>
    cases slot with
    | known slot =>
      let recorded : Invocation := { before with deeds := .readSlot (.known slot) :: before.deeds }
      have same := Scene.slotValue_displaced blind change slot
      calc (Eval.liftFault ((before.scene.displaced ref change).slotValue slot)).run.run (recorded.displaced ref change)
        _ = (before.scene.slotValue slot, recorded.displaced ref change) := by rw [Eval.run_liftFault, same]
        _ = ((Eval.liftFault (before.scene.slotValue slot)).run.run recorded).map id (·.displaced ref change) := by
          rw [Eval.run_liftFault]
          rfl
    | unknown code => rfl
  | call callee given p1 p2 =>
    cases callee with
    | builtin function =>
      let recorded : Invocation := { before with deeds := .call (.builtin function) given p1 p2 :: before.deeds }
      have unseen : recorded.scene.Blind ref.signal := blind
      exact function.call_displaced unseen change p1 p2
    | none | returning | unknown => rfl
  | setLocal index value => rfl
  | setSlot slot value =>
    rcases slot with slot | code
    · let written (slot : Slot) (scene : Scene) : Except Fault Unit × Invocation :=
        (.ok (), { before with scene, deeds := .setSlot (.known slot) :: before.deeds })
      cases slot
      case state => exact congrArg (written .state) (Scene.setState_displaced blind change ⟨value⟩)
      case drawState => exact congrArg (written .drawState) (Scene.setDrawState_displaced blind change value)
      all_goals rfl
    · rfl

end Steps

theorem Step.run_oblivious (ref : HeadRef) (change : Head → Head) (step : Step) :
    Eval.Oblivious ref change step.run where
  keeps := by
    intro before blind
    obtain ⟨outcome, scene, locals, log, ran, changes⟩ := step.run_cases before
    rw [ran]
    exact blind.driven ((Scene.Driven.refl [] before.scene).step changes)
  same := fun before blind => step.run_displaced blind change

theorem runNodes_oblivious (ref : HeadRef) (change : Head → Head) (nodes : List Node) :
    Eval.Oblivious ref change (runNodes nodes) :=
  (Eval.oblivious_sequential ref change).runNodes_holds nodes fun step _ => step.run_oblivious ref change

/-- Two evaluations that report the same of their head. -/
def Evaluated.Alike (first second : Evaluated) : Prop := first = { second with engine := first.engine }

namespace Engine

variable {engine displaced : Engine} {own other : HeadRef} {change : Head → Head}

theorem conclude_displaced (outcome : Except Fault Bool) {final : Invocation}
    (blind : final.scene.Blind other.signal) :
    (displaced.conclude outcome (final.displaced other change)).engine.network =
        (engine.conclude outcome final).engine.network.modifyHead other change ∧
      (displaced.conclude outcome (final.displaced other change)).Alike (engine.conclude outcome final) := by
  have kind := Scene.kind_displaced blind change
  have state := Scene.state_displaced blind change
  rcases outcome with fault | _ | _
  · exact ⟨rfl, rfl⟩
  · refine ⟨rfl, ?_⟩
    simp only [Evaluated.Alike, conclude, Invocation.displaced, kind, state]
    rfl
  · exact ⟨rfl, rfl⟩

theorem applyFallback_displaced (network : displaced.network = engine.network.modifyHead other change)
    (blind : Scene.Blind other.signal ⟨engine.network, .mounted own⟩) :
    (displaced.applyFallback (.mounted own)).engine.network =
        (engine.applyFallback (.mounted own)).engine.network.modifyHead other change ∧
      (displaced.applyFallback (.mounted own)).Alike (engine.applyFallback (.mounted own)) := by
  let scene : Scene := ⟨engine.network, .mounted own⟩
  have moved : (⟨displaced.network, .mounted own⟩ : Scene) = scene.displaced other change := by
    rw [network]
    rfl
  have unseen : (scene.setState scene.fallback).Blind other.signal :=
    blind.driven ((Scene.Driven.refl [] scene).setState scene.fallback)
  have set : (scene.displaced other change).setState (scene.displaced other change).fallback =
      (scene.setState scene.fallback).displaced other change := by
    rw [Scene.fallback_displaced blind, Scene.setState_displaced blind]
  have kind := Scene.kind_displaced unseen change
  have state := Scene.state_displaced unseen change
  simp only [applyFallback, moved, set, Evaluated.Alike, kind, state]
  exact ⟨rfl, rfl⟩

/-- A head changed out of sight stays so, and the evaluation is the same. -/
theorem evaluate_displaced (network : displaced.network = engine.network.modifyHead other change)
    (debug : displaced.debug = engine.debug) (blind : Scene.Blind other.signal ⟨engine.network, .mounted own⟩)
    (script : Option Script) :
    (displaced.evaluate (.mounted own) script).engine.network =
        (engine.evaluate (.mounted own) script).engine.network.modifyHead other change ∧
      (displaced.evaluate (.mounted own) script).Alike (engine.evaluate (.mounted own) script) := by
  cases script with
  | none => exact applyFallback_displaced network blind
  | some script =>
    rw [evaluate, evaluate]
    cases fresh : Locals.fresh script.localCount with
    | error fault =>
      rw [runScript, runScript, fresh]
      exact ⟨network, rfl⟩
    | ok locals =>
      have start : displaced.outset (.mounted own) locals =
          (engine.outset (.mounted own) locals).displaced other change := by
        simp only [outset, Invocation.displaced, Scene.displaced, network, debug]
      have oblivious := runNodes_oblivious other change script.nodes
      have kept := oblivious.keeps (engine.outset (.mounted own) locals) blind
      rw [runScript_eq _ _ fresh, runScript_eq _ _ fresh, start, oblivious.same _ blind]
      exact conclude_displaced _ kept

/-- Where a mounted head stands after an evaluation. -/
theorem evaluate_modifyHead (engine : Engine) (own : HeadRef) (script : Option Script) :
    ∃ change, (engine.evaluate (.mounted own) script).engine.network = engine.network.modifyHead own change ∧
      (engine.evaluate (.mounted own) script).engine.debug = engine.debug := by
  obtain ⟨network, counters, same, driven⟩ := engine.evaluate_driven (.mounted own) script
  generalize (engine.evaluate (.mounted own) script).subject = subject at driven
  rw [same]
  cases driven with
  | mounted driven => exact ⟨_, rfl, rfl⟩

/-- Two heads on different signals can be evaluated in either order if neither signal is ahead of the other or
opposite to it: the network ends up the same, and neither evaluation can tell which came first. -/
theorem evaluate_comm (engine : Engine) {first second : HeadRef} {one two : Signal}
    (first_mounted : engine.network.Mounted first) (second_mounted : engine.network.Mounted second)
    (one_at : engine.network.signalAt first.signal = some one)
    (two_at : engine.network.signalAt second.signal = some two) (apart : first.signal ≠ second.signal)
    (one_blind : two.id ∉ engine.network.visible one) (two_blind : one.id ∉ engine.network.visible two)
    (script other : Option Script) :
    let forth := (engine.evaluate (.mounted first) script).engine.evaluate (.mounted second) other
    let back := (engine.evaluate (.mounted second) other).engine.evaluate (.mounted first) script
    forth.engine.network = back.engine.network ∧
      back.Alike (engine.evaluate (.mounted first) script) ∧ forth.Alike (engine.evaluate (.mounted second) other) := by
  have first_blind : Scene.Blind second.signal ⟨engine.network, .mounted first⟩ :=
    ⟨first, one, two, rfl, first_mounted, apart, one_at, two_at, one_blind⟩
  have second_blind : Scene.Blind first.signal ⟨engine.network, .mounted second⟩ :=
    ⟨second, two, one, rfl, second_mounted, apart.symm, two_at, one_at, two_blind⟩
  obtain ⟨change, network, debug⟩ := engine.evaluate_modifyHead first script
  obtain ⟨change', network', debug'⟩ := engine.evaluate_modifyHead second other
  have forth := evaluate_displaced network debug second_blind other
  have back := evaluate_displaced network' debug' first_blind script
  refine ⟨?_, back.2, forth.2⟩
  rw [forth.1, back.1, network, network', Network.modifyHead_comm _ apart]

end Engine

/-- Two signals before the same junction signal, with a train at one of them. -/
private def merge : Network := .holding
  [{ id := "M", block := .occupied, heads := [{ kind := "junction" }] },
    { id := "W", next := "M", opposite := "M", heads := [{ kind := "entry" }] },
    { id := "E", next := "M", heads := [{ kind := "entry", aspects := [.stop, .clear2] }] }]
  (some { signal := "W", distance := 200, speed := 10 })

/-- Requests release within a distance, shows what the next signal shows and returns. -/
private def entry : Script where
  name := "entry"
  nodes := [
    .statement {
      terms := [some { function := .builtin .approachControlPosition, params := [some { operand := .constant 300 }] }] },
    .statement {
      target := .slot (.known .state)
      terms := [some { function := .builtin .nextSignalLeast, params := [some { operand := .constant 0 }] }] },
    .statement .leave]

theorem evaluate_comm_merge :
    (merge.signalAt 1).map merge.visible = some ["M", "M"] ∧ (merge.signalAt 2).map merge.visible = some ["M"] ∧
    let forth := (Engine.evaluate { network := merge } (.mounted ⟨1, 0⟩) (some entry)).engine.evaluate
      (.mounted ⟨2, 0⟩) none
    let back := (Engine.evaluate { network := merge } (.mounted ⟨2, 0⟩) none).engine.evaluate
      (.mounted ⟨1, 0⟩) (some entry)
    forth.engine.network = back.engine.network ∧
      back.Alike (Engine.evaluate { network := merge } (.mounted ⟨1, 0⟩) (some entry)) ∧
      forth.Alike (Engine.evaluate { network := merge } (.mounted ⟨2, 0⟩) none) :=
  ⟨by decide, by decide, Engine.evaluate_comm { network := merge } ⟨_, rfl, rfl⟩ ⟨_, rfl, rfl⟩ rfl rfl (by decide)
    (by decide) (by decide) (some entry) none⟩

end Lineside
