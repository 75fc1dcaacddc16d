import Lineside.Proofs.HeadIndependence
import Lineside.Proofs.SignalsAhead

/-! A script that does not look at what it writes can be run again without a difference. What a run writes to its own
head is the same whatever was written there before, since nothing else that a script can ask depends on it: the signals
ahead never include the head's own signal, not even where the line leads back to it. So a second run writes what is there
already. -/

namespace Lineside

/-- Values for some of the parts of a head that a script can write. -/
structure Overwrite where
  state : Option Aspect := none
  drawState : Option Int64 := none
  position : Option Float32 := none
  speed : Option Float32 := none
  partialRoute : Option Bool := none

namespace Overwrite

def apply (write : Overwrite) (head : Head) : Head :=
  { head with
    state := write.state.getD head.state
    drawState := write.drawState.getD head.drawState
    approachPosition := write.position.or head.approachPosition
    approachSpeed := write.speed.or head.approachSpeed
    partialRoute := write.partialRoute.getD head.partialRoute }

def andThen (first second : Overwrite) : Overwrite where
  state := second.state.or first.state
  drawState := second.drawState.or first.drawState
  position := second.position.or first.position
  speed := second.speed.or first.speed
  partialRoute := second.partialRoute.or first.partialRoute

theorem andThen_assoc (first second third : Overwrite) :
    (first.andThen second).andThen third = first.andThen (second.andThen third) := by
  simp only [andThen, Option.or_assoc]

theorem andThen_self (write : Overwrite) : write.andThen write = write := by
  simp only [andThen, Option.or_self]

theorem empty_andThen (write : Overwrite) : Overwrite.andThen {} write = write := by
  simp only [andThen, Option.or_none]

theorem apply_andThen (first second : Overwrite) : (first.andThen second).apply = second.apply ∘ first.apply := by
  funext head
  simp only [apply, andThen, Function.comp_apply, Option.or_assoc, Option.getD_or]

end Overwrite

namespace Network

def overwrite (network : Network) (ref : HeadRef) (write : Overwrite) : Network := network.modifyHead ref write.apply

variable (network : Network) (ref : HeadRef)

theorem overwrite_empty : network.overwrite ref {} = network := network.modifyHead_id ref

theorem overwrite_overwrite (first second : Overwrite) :
    (network.overwrite ref first).overwrite ref second = network.overwrite ref (first.andThen second) := by
  rw [overwrite, overwrite, modifyHead_modifyHead, overwrite, Overwrite.apply_andThen]

end Network

namespace Step

/-- The steps that look at what a script can write to its own head, or at the states of the heads beside it. -/
def ReadsBack : Step → Prop
  | .readSlot (.known slot) => slot = .state ∨ slot = .drawState ∨ slot = .approachPosition ∨ slot = .approachSpeed
  | .call (.builtin function) _ _ _ =>
    function = .thisSignalLeast ∨ function = .thisSignalMost ∨
      function = .oppositeSignalLeast ∨ function = .oppositeSignalMost
  | _ => False

end Step

namespace Scene

/-- The scene of a head after the head itself was overwritten. -/
def overwritten (network : Network) (ref : HeadRef) (write : Overwrite) : Scene := ⟨network.overwrite ref write, .mounted ref⟩

@[simp] theorem overwritten_subject (network : Network) (ref : HeadRef) (write : Overwrite) :
    (overwritten network ref write).subject = .mounted ref := rfl

section Questions

variable {network : Network} {ref : HeadRef} (back : network.RefersBack ref) (write : Overwrite)

theorem head?_overwritten (network : Network) (ref : HeadRef) (write : Overwrite) :
    (overwritten network ref write).head? = (head? ⟨network, .mounted ref⟩).map write.apply :=
  network.head?_modifyHead_self ref write.apply

section Asked

include back

theorem own?_overwritten : (overwritten network ref write).own? =
    (own? ⟨network, .mounted ref⟩).map fun own =>
      ({ own.1 with heads := own.1.heads.modify ref.index write.apply }, write.apply own.2) := by
  cases found : network.head? ref with
  | none =>
    have before : head? ⟨network, .mounted ref⟩ = none := found
    have gone : (overwritten network ref write).head? = none := by rw [head?_overwritten, before, Option.map_none]
    rw [own?, own?, gone, before]
    rfl
  | some head =>
    obtain ⟨signal, head, carries, there, owner, own⟩ := own?_mounted ⟨head, found, back head found⟩
    have here : (overwritten network ref write).head? = some (write.apply head) := by
      rw [head?_overwritten]
      simp only [head?, Network.head?, carries, Option.bind_some, there, Option.map_some]
    have kept : (write.apply head).owner = some ref.signal := owner
    have changed : (overwritten network ref write).network.signalAt ref.signal =
        some { signal with heads := signal.heads.modify ref.index write.apply } := by
      simp [overwritten, Network.overwrite, Network.modifyHead, Network.signalAt_modifySignal, carries]
    rw [own, Scene.own?, here, Option.bind_some, kept, Option.bind_some, changed]
    rfl

/-- The signals ahead are never the one on which the head itself stands. -/
theorem ahead_overwritten : (overwritten network ref write).ahead = ahead ⟨network, .mounted ref⟩ := by
  unfold ahead
  rw [own?_overwritten back]
  cases found : network.head? ref with
  | none => simp [own?, head?, found]
  | some head =>
    obtain ⟨signal, head, carries, _, _, own⟩ := own?_mounted ⟨head, found, back head found⟩
    rw [own]
    have route : network.Route signal (network.ahead signal) := Network.route_ahead
    have unseen : signal.id ∉ (network.ahead signal).map (·.id) := (List.nodup_cons.mp route.distinct).1
    have count : (network.overwrite ref write).cells.length = network.cells.length := by
      simp [Network.overwrite, Network.modifyHead, Network.modifySignal]
    simp only [Option.map_some, overwritten, Network.ahead, count]
    exact network.follow_modifyHead write.apply carries unseen

end Asked

theorem modifyHead_overwritten (network : Network) (ref : HeadRef) (write further : Overwrite) :
    (overwritten network ref write).modifyHead further.apply = overwritten network ref (write.andThen further) :=
  congrArg (Scene.mk · (.mounted ref)) (network.overwrite_overwrite ref write further)

theorem setState_overwritten (network : Network) (ref : HeadRef) (write : Overwrite) (aspect : Aspect) : (overwritten network ref write).setState aspect =
    overwritten network ref (write.andThen { state := some aspect }) :=
  modifyHead_overwritten network ref write { state := some aspect }

theorem setDrawState_overwritten (network : Network) (ref : HeadRef) (write : Overwrite) (value : Int64) : (overwritten network ref write).setDrawState value =
    overwritten network ref (write.andThen { drawState := some value }) :=
  modifyHead_overwritten network ref write { drawState := some value }

include back

theorem hasHead_overwritten (number : Int64) :
    (overwritten network ref write).hasHead number = hasHead ⟨network, .mounted ref⟩ number := by
  unfold hasHead
  rw [own?_overwritten back]
  cases own : own? ⟨network, .mounted ref⟩ with
  | none => rfl
  | some pair =>
    have numbers : (pair.1.heads.modify ref.index write.apply).map (·.number) = pair.1.heads.map (·.number) := by
      apply List.ext_getElem?
      intro index
      rw [List.getElem?_map, List.getElem?_map, List.getElem?_modify]
      cases pair.1.heads[index]? with
      | none => rfl
      | some head => by_cases here : ref.index = index <;> simp [here, Overwrite.apply]
    have asked (heads : List Head) : heads.any (·.number == number) = (heads.map (·.number)).any (· == number) := by
      rw [List.any_map]
      rfl
    simp only [Option.map_some, asked, numbers]

theorem slotValue_overwritten {slot : Slot} (forward : ¬ Step.ReadsBack (.readSlot (.known slot))) :
    (overwritten network ref write).slotValue slot = slotValue ⟨network, .mounted ref⟩ slot := by
  simp only [Step.ReadsBack, not_or] at forward
  obtain ⟨state, drawState, position, speed⟩ := forward
  cases slot
  case state => exact absurd rfl state
  case drawState => exact absurd rfl drawState
  case approachPosition => exact absurd rfl position
  case approachSpeed => exact absurd rfl speed
  case enabled | blockState =>
    simp only [slotValue, enabled, headBlock, overwritten_subject, own?_overwritten back]
    cases own? ⟨network, .mounted ref⟩ <;> rfl

theorem fallback_overwritten : (overwritten network ref write).fallback = fallback ⟨network, .mounted ref⟩ := by
  have block : (overwritten network ref write).block = Scene.block ⟨network, .mounted ref⟩ := by
    unfold Scene.block
    rw [own?_overwritten back]
    cases own? ⟨network, .mounted ref⟩ <;> rfl
  unfold fallback
  rw [block]
  simp only [leastRestrictive, mostRestrictive, overwritten_subject, head?_overwritten]
  cases head? ⟨network, .mounted ref⟩ <;> rfl

theorem requestPosition_overwritten (distance : Int64) : ∃ further, ∀ earlier,
    (overwritten network ref earlier).requestPosition distance =
      ((requestPosition ⟨network, .mounted ref⟩ distance).1, overwritten network ref (earlier.andThen further)) := by
  simp only [requestPosition, own?_overwritten back]
  cases own? ⟨network, .mounted ref⟩ with
  | none => exact ⟨{}, fun _ => rfl⟩
  | some pair =>
    refine ⟨{ position := some distance.toFloat32 }, fun earlier => ?_⟩
    rw [← modifyHead_overwritten]
    rfl

theorem requestSpeed_overwritten (distance speed : Int64) : ∃ further, ∀ earlier,
    (overwritten network ref earlier).requestSpeed distance speed =
      ((requestSpeed ⟨network, .mounted ref⟩ distance speed).1, overwritten network ref (earlier.andThen further)) := by
  simp only [requestSpeed, own?_overwritten back]
  cases own? ⟨network, .mounted ref⟩ with
  | none => exact ⟨{}, fun _ => rfl⟩
  | some pair =>
    refine ⟨{ position := some distance.toFloat32, speed := some speed.toFloat32 }, fun earlier => ?_⟩
    rw [← modifyHead_overwritten]
    rfl

theorem allowPartialRoute_overwritten (allow : Bool) : ∃ further, ∀ earlier,
    (overwritten network ref earlier).allowPartialRoute allow = overwritten network ref (earlier.andThen further) := by
  simp only [allowPartialRoute, own?_overwritten back]
  cases own? ⟨network, .mounted ref⟩ with
  | none => exact ⟨{}, fun _ => rfl⟩
  | some pair =>
    refine ⟨{ partialRoute := some allow }, fun earlier => ?_⟩
    rw [← modifyHead_overwritten]
    rfl

end Questions

end Scene

namespace Eval

variable {α β : Type} {ref : HeadRef}

/-- What a program answers and writes to its own head does not depend on what was written there before. -/
def Repeats (ref : HeadRef) (program : Eval α) : Prop :=
  ∀ network : Network, network.RefersBack ref → ∀ locals debug deeds, ∃ outcome write locals' deeds',
    ∀ earlier log, ∃ log',
    program.run.run ⟨Scene.overwritten network ref earlier, locals, debug, log, deeds⟩ =
      (outcome, ⟨Scene.overwritten network ref (earlier.andThen write), locals', debug, log', deeds'⟩)

theorem Repeats.pure (answer : α) : Repeats ref (Pure.pure answer : Eval α) :=
  fun _ _ locals _ deeds => ⟨.ok answer, {}, locals, deeds, fun _ log => ⟨log, rfl⟩⟩

theorem Repeats.bind {program : Eval α} {next : α → Eval β} (first : Repeats ref program)
    (rest : ∀ answer, Repeats ref (next answer)) : Repeats ref (program >>= next) := by
  intro network back locals debug deeds
  obtain ⟨outcome, write, middle, done, ran⟩ := first network back locals debug deeds
  cases outcome with
  | error fault =>
    refine ⟨.error fault, write, middle, done, fun earlier log => ?_⟩
    obtain ⟨later, ran⟩ := ran earlier log
    exact ⟨later, by rw [run_bind, ran]⟩
  | ok answer =>
    obtain ⟨result, further, after, all, finished⟩ := rest answer network back middle debug done
    refine ⟨result, write.andThen further, after, all, fun earlier log => ?_⟩
    obtain ⟨later, ran⟩ := ran earlier log
    -- What follows meets the earlier values with those of the first program over them.
    obtain ⟨last, finished⟩ := finished (earlier.andThen write) later
    refine ⟨last, ?_⟩
    rw [run_bind, ran, ← Overwrite.andThen_assoc]
    exact finished

theorem repeats_sequential (ref : HeadRef) : Sequential fun _ program => Repeats ref program where
  pure := .pure
  bind := .bind

theorem Repeats.ask {question : Scene → α}
    (unseen : ∀ network : Network, network.RefersBack ref → ∀ write, question (Scene.overwritten network ref write) = question ⟨network, .mounted ref⟩) :
    Repeats ref (ask question) := by
  intro network back locals debug deeds
  refine ⟨.ok (question ⟨network, .mounted ref⟩), {}, locals, deeds, fun earlier log => ⟨log, ?_⟩⟩
  rw [← unseen network back earlier]
  rfl

theorem Repeats.act {action : Scene → α × Scene}
    (overwrites : ∀ network : Network, network.RefersBack ref → ∃ answer write, ∀ earlier,
      action (Scene.overwritten network ref earlier) = (answer, Scene.overwritten network ref (earlier.andThen write))) :
    Repeats ref (act action) := by
  intro network back locals debug deeds
  obtain ⟨answer, write, overwrites⟩ := overwrites network back
  refine ⟨.ok answer, write, locals, deeds, fun earlier log => ⟨log, ?_⟩⟩
  have ran (before : Invocation) : (Eval.act action).run.run before =
      (.ok (action before.scene).1, { before with scene := (action before.scene).2 }) := rfl
  rw [ran, overwrites earlier]

theorem Repeats.note {line : Scene → String} : Repeats ref (note line) := by
  intro network back locals debug deeds
  refine ⟨.ok (), {}, locals, deeds, fun earlier log => ?_⟩
  exact run_note line _

theorem Repeats.record (deed : Deed) : Repeats ref (record deed) :=
  fun _ _ locals _ deeds => ⟨.ok (), {}, locals, deed :: deeds, fun _ log => ⟨log, rfl⟩⟩

theorem Repeats.write (change : Scene → Scene) {further : Overwrite}
    (writes : ∀ network earlier, change (Scene.overwritten network ref earlier) =
      Scene.overwritten network ref (earlier.andThen further)) :
    Repeats ref (modify fun before => { before with scene := change before.scene } : Eval Unit) := by
  intro network back locals debug deeds
  refine ⟨.ok (), further, locals, deeds, fun earlier log => ⟨log, ?_⟩⟩
  rw [← writes]
  rfl

theorem Repeats.slotValue {slot : Slot} (forward : ¬ Step.ReadsBack (.readSlot (.known slot))) :
    Repeats ref (do Eval.liftFault ((← get).scene.slotValue slot)) := by
  intro network back locals debug deeds
  refine ⟨Scene.slotValue ⟨network, .mounted ref⟩ slot, {}, locals, deeds, fun earlier log => ⟨log, ?_⟩⟩
  rw [← Scene.slotValue_overwritten back earlier forward]
  exact run_liftFault _ _

end Eval

section Steps

variable {ref : HeadRef}

theorem Builtin.call_repeats {function : Builtin} {given : Nat} {p1 p2 : Int64}
    (forward : ¬ Step.ReadsBack (.call (.builtin function) given p1 p2)) : Eval.Repeats ref (function.call p1 p2) := by
  simp only [Step.ReadsBack, not_or] at forward
  obtain ⟨least, most, oppositeLeast, oppositeMost⟩ := forward
  cases function <;> rw [Builtin.call]
  case approachControlPosition =>
    apply (Eval.repeats_sequential ref).map_holds
    exact .act fun network back => ⟨_, Scene.requestPosition_overwritten back p1⟩
  case approachControlSpeed =>
    apply (Eval.repeats_sequential ref).map_holds
    exact .act fun network back => ⟨_, Scene.requestSpeed_overwritten back p1 p2⟩
  case allowClearToPartialRoute =>
    apply Eval.Repeats.act
    intro network back
    obtain ⟨further, allowed⟩ := Scene.allowPartialRoute_overwritten back (p1 != 0)
    exact ⟨0, further, fun earlier => by rw [allowed]⟩
  case debugHeader => exact .bind .note fun _ => .pure 0
  case debugOut => exact .bind .note fun _ => .pure 0
  case thisSignalLeast => exact absurd rfl least
  case thisSignalMost => exact absurd rfl most
  case oppositeSignalLeast => exact absurd rfl oppositeLeast
  case oppositeSignalMost => exact absurd rfl oppositeMost
  case hasHead => exact .ask fun network back write => by rw [Scene.hasHead_overwritten back]
  case nextSignalLeast | nextSignalMost | nextNthSignalLeast | distantMultiMost =>
    apply Eval.Repeats.ask
    intro network back write
    simp only [Scene.nextLeast, Scene.nextMost, Scene.nthAspects, Scene.distantMost, Scene.ahead_overwritten back]
  -- The others ask what the signal or the head was built with.
  all_goals
    apply Eval.Repeats.ask
    intro network back write
    simp only [Scene.block, Scene.routeSet, Scene.feature, Scene.callOn, Scene.defaultDrawState, Scene.own?_overwritten back]
    cases Scene.own? ⟨network, .mounted ref⟩ <;> rfl

theorem Step.run_repeats {step : Step} (forward : ¬ step.ReadsBack) : Eval.Repeats ref step.run := by
  cases step with
  | stop fault => exact fun _ _ locals _ deeds => ⟨.error fault, {}, locals, deeds, fun _ log => ⟨log, rfl⟩⟩
  | passOver => exact .record .passOver
  | readLocal index =>
    apply Eval.Repeats.bind (.record _)
    intro _ _ _ locals _ deeds
    exact ⟨.ok (locals.get index), {}, locals, deeds, fun _ log => ⟨log, rfl⟩⟩
  | readSlot slot =>
    apply Eval.Repeats.bind (.record _)
    intro _
    cases slot with
    | known slot => exact .slotValue forward
    | unknown code => exact .pure (0 : Int64)
  | call callee given p1 p2 =>
    apply Eval.Repeats.bind (.record _)
    intro _
    cases callee with
    | builtin function => exact Builtin.call_repeats forward
    | none | returning | unknown => exact .pure (0 : Int64)
  | setLocal index value =>
    apply Eval.Repeats.bind (.record _)
    intro _ _ _ locals _ deeds
    exact ⟨.ok (), {}, locals.set index value, deeds, fun _ log => ⟨log, rfl⟩⟩
  | setSlot slot value =>
    apply Eval.Repeats.bind (.record _)
    intro _
    rcases slot with slot | code
    · cases slot
      case state =>
        apply Eval.Repeats.write (·.setState ⟨value⟩)
        intro network earlier
        exact Scene.setState_overwritten network ref earlier ⟨value⟩
      case drawState =>
        apply Eval.Repeats.write (·.setDrawState value)
        intro network earlier
        exact Scene.setDrawState_overwritten network ref earlier value
      all_goals exact .pure ()
    · exact .pure ()

end Steps

/-- The script has a step that looks at what a script can write. -/
def Script.ReadsBack (script : Script) : Prop := ∃ step, nodesTake script.nodes step ∧ step.ReadsBack

theorem runNodes_repeats {script : Script} (forward : ¬ script.ReadsBack) (ref : HeadRef) :
    Eval.Repeats ref (runNodes script.nodes) := by
  apply (Eval.repeats_sequential ref).runNodes_holds
  intro step taken
  exact Step.run_repeats fun back => forward ⟨step, taken, back⟩

/-- An evaluation leaves the same network as another one, and ends in the same way after the same deeds. -/
structure Evaluated.Echoes (second first : Evaluated) : Prop where
  network : second.engine.network = first.engine.network
  fault : second.fault = first.fault
  events : second.events = first.events
  deeds : second.deeds = first.deeds

namespace Engine

variable {engine other : Engine}

theorem conclude_echoes {outcome : Except Fault Bool} {first second : Invocation} (scene : second.scene = first.scene)
    (deeds : second.deeds = first.deeds) : (other.conclude outcome second).Echoes (engine.conclude outcome first) := by
  rcases outcome with fault | _ | _ <;>
  · constructor <;> simp only [conclude, settle, count, scene, deeds]

theorem applyFallback_echoes {ref : HeadRef} (back : engine.network.RefersBack ref)
    (again : other.network = (engine.applyFallback (.mounted ref)).engine.network) :
    (other.applyFallback (.mounted ref)).Echoes (engine.applyFallback (.mounted ref)) := by
  let aspect := Scene.fallback ⟨engine.network, .mounted ref⟩
  let write : Overwrite := { state := some aspect }
  have first : Scene.setState ⟨engine.network, .mounted ref⟩ aspect = Scene.overwritten engine.network ref write := rfl
  have start : Scene.mk other.network (.mounted ref) = Scene.overwritten engine.network ref write := by
    rw [again]
    rfl
  have second : (Scene.overwritten engine.network ref write).setState
      (Scene.overwritten engine.network ref write).fallback = Scene.overwritten engine.network ref write := by
    rw [Scene.fallback_overwritten back, Scene.setState_overwritten]
    exact congrArg _ write.andThen_self
  constructor <;> simp only [applyFallback, settle, count, start, second] <;> rfl

/-- What a script does not look at, it writes again in the same way. Whatever the network, a script that looks at nothing
it can write leaves a head by a second evaluation just as by the first one, and so does a head without a script. -/
theorem evaluate_twice (engine : Engine) (ref : HeadRef) (back : engine.network.RefersBack ref) {script : Option Script}
    (forward : ∀ given, script = some given → ¬ given.ReadsBack) :
    ((engine.evaluate (.mounted ref) script).engine.evaluate (.mounted ref) script).Echoes
      (engine.evaluate (.mounted ref) script) := by
  cases script with
  | none => exact applyFallback_echoes back rfl
  | some script =>
    simp only [evaluate]
    cases fresh : Locals.fresh script.localCount with
    | error fault =>
      simp only [runScript, fresh]
      exact ⟨rfl, rfl, rfl, rfl⟩
    | ok locals =>
      obtain ⟨outcome, write, after, deeds, ran⟩ :=
        runNodes_repeats (forward script rfl) ref engine.network back locals engine.debug []
      obtain ⟨log, first⟩ := ran {} []
      obtain ⟨later, second⟩ := ran write []
      let final : Invocation := ⟨Scene.overwritten engine.network ref write, after, engine.debug, log, deeds⟩
      have once : engine.runScript (.mounted ref) script = engine.conclude outcome final := by
        have start : engine.outset (.mounted ref) locals =
            ⟨Scene.overwritten engine.network ref {}, locals, engine.debug, [], []⟩ := by
          rw [Scene.overwritten, Network.overwrite_empty, outset]
        rw [engine.runScript_eq (.mounted ref) fresh, start, first, Overwrite.empty_andThen]
      obtain ⟨counters, settled⟩ := engine.conclude_engine outcome final
      -- The second run starts where the first one has ended, and what it writes is there already.
      have start : outset { engine with network := final.scene.network, counters } (.mounted ref) locals =
          ⟨Scene.overwritten engine.network ref write, locals, engine.debug, [], []⟩ := rfl
      rw [once, settled, runScript_eq _ _ fresh, start, second, write.andThen_self]
      exact conclude_echoes rfl rfl

end Engine

/-- Two signals that follow each other, the second of them without heads. -/
private def circuit : Network := .holding [
    { id := "A", next := "B", heads := [{ kind := "home", aspects := [.stop, .clear2] }] },
    { id := "B", next := "A", opposite := "A" }]
  (some { signal := "A", distance := 120, speed := 10 })

/-- Asks for release, and shows what lies ahead and what the head has for it. -/
private def forwardScript : Script where
  name := "home"
  localCount := 1
  nodes := [
    .statement {
      target := .localVar 0
      terms := [some { function := .builtin .approachControlPosition, params := [some { operand := .constant 100 }] }] },
    .statement {
      target := .slot (.known .state)
      terms := [some { function := .builtin .nextSignalLeast, params := [some { operand := .localVar 0 }] }] },
    .statement {
      target := .slot (.known .drawState)
      terms := [some { params := [some { operand := .slot (.known .blockState) }] }] },
    .statement .leave]

theorem evaluate_twice_circuit : (circuit.signal? "B").map (·.next) = some "A" ∧
    let first := Engine.evaluate { network := circuit } (.mounted ⟨0, 0⟩) (some forwardScript)
    (first.engine.evaluate (.mounted ⟨0, 0⟩) (some forwardScript)).Echoes first := by
  refine ⟨by decide, Engine.evaluate_twice { network := circuit } ⟨0, 0⟩ ?_ ?_⟩
  · rintro head ⟨⟩
    rfl
  intro given same
  cases same
  rintro ⟨step, taken, back⟩
  cases step with
  | readSlot slot =>
    obtain rfl : slot = .known .blockState := by
      simpa [forwardScript, nodesTake, nodeTakes, Statement.Takes, termsTake, unreturned, Term.returns, termTakes,
        parameterTakes, Operand.Takes, Target.Takes, Statement.leave] using taken
    simp [Step.ReadsBack] at back
  | call callee given p1 p2 =>
    obtain ⟨rfl, _⟩ | ⟨rfl, _⟩ : (callee = .builtin .approachControlPosition ∧ given = 1) ∨
        (callee = .builtin .nextSignalLeast ∧ given = 1) := by
      simpa [forwardScript, nodesTake, nodeTakes, Statement.Takes, termsTake, unreturned, Term.returns, termTakes,
        parameterTakes, Operand.Takes, Target.Takes, Statement.leave] using taken
    all_goals simp [Step.ReadsBack] at back
  | _ => exact back

end Lineside
