import Lineside.Proofs.EngineTally
import Lineside.Proofs.RunPoints

/-! Heads remember the approach limits that were asked for. Whatever is evaluated and wherever the train goes, the two
limits of a head are those of the latest requests made for that head, between the calls of a run as well as in the
middle of a script. Nothing else makes a difference to them. -/

namespace Lineside

namespace Head

/-- The position and the speed below which the head is released. -/
def limits (head : Head) : Option Float32 × Option Float32 := (head.approachPosition, head.approachSpeed)

end Head

namespace Deed

def position? : Deed → Option Int64
  | .call (.builtin .approachControlPosition) _ p1 _ | .call (.builtin .approachControlSpeed) _ p1 _ => some p1
  | _ => none

def speed? : Deed → Option Int64
  | .call (.builtin .approachControlSpeed) _ _ p2 => some p2
  | _ => none

/-- What a deed makes of the limits of its head. -/
def limit (deed : Deed) (limits : Option Float32 × Option Float32) : Option Float32 × Option Float32 :=
  ((deed.position?.map Int64.toFloat32).or limits.1, (deed.speed?.map Int64.toFloat32).or limits.2)

end Deed

namespace Subject

/-- What is done for a head goes on record under its place. -/
def sign (subject : Subject) (deeds : List Deed) : List (HeadRef × Deed) :=
  match subject with
  | .mounted ref => deeds.map fun deed => (ref, deed)
  | _ => []

theorem sign_nil (subject : Subject) : subject.sign [] = [] := by cases subject <;> rfl

end Subject

/-- A network, and what was done for its heads so far, the latest first. -/
structure Chronicle where
  network : Network
  record : List (HeadRef × Deed) := []

/-- The latest request of a kind for a head. -/
def latest (record : List (HeadRef × Deed)) (ref : HeadRef) (request? : Deed → Option Int64) : Option Int64 :=
  record.findSome? fun entry => if entry.1 = ref then request? entry.2 else none

/-- The limits that the latest requests for a head have set. -/
def requested (record : List (HeadRef × Deed)) (ref : HeadRef) : Option Float32 × Option Float32 :=
  ((latest record ref Deed.position?).map Int64.toFloat32, (latest record ref Deed.speed?).map Int64.toFloat32)

theorem latest_cons (entry : HeadRef × Deed) (record : List (HeadRef × Deed)) (ref : HeadRef)
    (request? : Deed → Option Int64) :
    latest (entry :: record) ref request? =
      (if entry.1 = ref then request? entry.2 else none).or (latest record ref request?) := by
  rw [latest, List.findSome?_cons]
  cases (if entry.1 = ref then request? entry.2 else none : Option Int64) <;> rfl

theorem requested_cons_self (ref : HeadRef) (deed : Deed) (record : List (HeadRef × Deed)) :
    requested ((ref, deed) :: record) ref = deed.limit (requested record ref) := by
  simp only [requested, latest_cons, if_true, Option.map_or, Deed.limit]

theorem requested_cons_other {ref other : HeadRef} (apart : other ≠ ref) (deed : Deed) (record : List (HeadRef × Deed)) :
    requested ((other, deed) :: record) ref = requested record ref := by
  simp only [requested, latest_cons, if_neg apart, Option.none_or]

theorem requested_sign_self (ref : HeadRef) (deeds : List Deed) (record : List (HeadRef × Deed)) :
    requested ((Subject.mounted ref).sign deeds ++ record) ref = deeds.foldr Deed.limit (requested record ref) := by
  induction deeds with
  | nil => rfl
  | cons deed deeds ih => exact (requested_cons_self ref deed _).trans (congrArg deed.limit ih)

theorem requested_sign_other {subject : Subject} {ref : HeadRef} (apart : subject ≠ .mounted ref) (deeds : List Deed)
    (record : List (HeadRef × Deed)) : requested (subject.sign deeds ++ record) ref = requested record ref := by
  cases subject with
  | mounted other =>
    have apart : other ≠ ref := fun same => apart (same ▸ rfl)
    induction deeds with
    | nil => rfl
    | cons deed deeds ih => exact (requested_cons_other apart deed _).trans ih
  | loose head => rfl
  | foreign head => rfl

/-- Without a request the limits stay. -/
theorem foldr_limit_eq_self {deeds : List Deed} (position : ¬ Called deeds .approachControlPosition)
    (speed : ¬ Called deeds .approachControlSpeed) (limits : Option Float32 × Option Float32) :
    deeds.foldr Deed.limit limits = limits := by
  induction deeds with
  | nil => rfl
  | cons deed deeds ih =>
    have kept : deeds ⊆ deed :: deeds := List.subset_cons_self deed deeds
    have none : deed.position? = none ∧ deed.speed? = none := by
      constructor
      · unfold Deed.position?
        split
        next given p1 p2 => exact absurd ⟨given, p1, p2, List.mem_cons_self⟩ position
        next given p1 p2 => exact absurd ⟨given, p1, p2, List.mem_cons_self⟩ speed
        next => rfl
      · unfold Deed.speed?
        split
        next given p1 p2 => exact absurd ⟨given, p1, p2, List.mem_cons_self⟩ speed
        next => rfl
    have rest := ih (fun called => position (called.mono kept)) fun called => speed (called.mono kept)
    rw [List.foldr_cons, rest, Deed.limit, none.1, none.2]
    rfl

namespace Scene

variable {network : Network} {ref : HeadRef} (attached : Attached ⟨network, .mounted ref⟩)

include attached

theorem head?_requestPosition (distance : Int64) :
    (requestPosition ⟨network, .mounted ref⟩ distance).2.network.head? ref =
      (network.head? ref).map fun head => { head with approachPosition := some distance.toFloat32 } := by
  obtain ⟨own, found⟩ := Option.isSome_iff_exists.mp attached
  rw [requestPosition, found]
  exact Network.head?_modifyHead_self network ref _

theorem head?_requestSpeed (distance speed : Int64) :
    (requestSpeed ⟨network, .mounted ref⟩ distance speed).2.network.head? ref =
      (network.head? ref).map fun head =>
        { head with approachPosition := some distance.toFloat32, approachSpeed := some speed.toFloat32 } := by
  obtain ⟨own, found⟩ := Option.isSome_iff_exists.mp attached
  rw [requestSpeed, found]
  exact Network.head?_modifyHead_self network ref _

end Scene

namespace Scene.Driven

variable {deeds : List Deed} {before after : Scene}

/-- A run without requests leaves the limits of all heads alone. -/
theorem limits (driven : Scene.Driven deeds before after) (position : ¬ Called deeds .approachControlPosition)
    (speed : ¬ Called deeds .approachControlSpeed) (ref : HeadRef) :
    (after.network.head? ref).map Head.limits = (before.network.head? ref).map Head.limits := by
  cases driven with
  | @mounted network own change driven =>
    by_cases here : ref = own
    · rw [here, Network.head?_modifyHead_self, Option.map_map]
      congr 1
      funext head
      have same_position : (change head).approachPosition = head.approachPosition :=
        Classical.byContradiction fun changed => ((driven head).position changed).elim position speed
      have same_speed : (change head).approachSpeed = head.approachSpeed :=
        Classical.byContradiction fun changed => speed ((driven head).speed changed)
      rw [Function.comp_apply, Head.limits, Head.limits, same_position, same_speed]
    · rw [Network.head?_modifyHead_other network here]
  | loose => rfl
  | foreign => rfl

theorem subject_eq_mounted (driven : Scene.Driven deeds before after) (ref : HeadRef) :
    after.subject = .mounted ref ↔ before.subject = .mounted ref := by
  cases driven <;> simp

end Scene.Driven

namespace Step

theorem called_deeds_iff {step : Step} {function : Builtin} :
    Called step.deeds function ↔ ∃ given p1 p2, step = .call (.builtin function) given p1 p2 := by
  cases step <;> simp [Called, Step.deeds, eq_comm]

theorem run_driven (step : Step) (before : Invocation) :
    (step.run.run.run before).2.deeds = step.deeds ++ before.deeds ∧
      Scene.Driven step.deeds before.scene (step.run.run.run before).2.scene := by
  obtain ⟨outcome, scene, locals, log, ran, changes⟩ := step.run_cases before
  rw [ran]
  have driven := (Scene.Driven.refl [] before.scene).step changes
  rw [List.append_nil] at driven
  exact ⟨rfl, driven⟩

/-- What a step makes of the limits of the head that it works for. -/
theorem limits_run (step : Step) {before : Invocation} {ref : HeadRef} (mounted : before.scene.subject = .mounted ref)
    (attached : Scene.Attached ⟨before.scene.network, .mounted ref⟩) :
    ((step.run.run.run before).2.scene.network.head? ref).map Head.limits =
      ((before.scene.network.head? ref).map Head.limits).map (step.deeds.foldr Deed.limit ·) := by
  by_cases position : Called step.deeds .approachControlPosition
  · obtain ⟨given, p1, p2, rfl⟩ := called_deeds_iff.mp position
    obtain ⟨⟨network, subject⟩, locals, debug, log, deeds⟩ := before
    cases mounted
    have asked := congrArg (Option.map Head.limits) (Scene.head?_requestPosition attached p1)
    rw [Option.map_map] at asked ⊢
    exact asked
  by_cases speed : Called step.deeds .approachControlSpeed
  · obtain ⟨given, p1, p2, rfl⟩ := called_deeds_iff.mp speed
    obtain ⟨⟨network, subject⟩, locals, debug, log, deeds⟩ := before
    cases mounted
    have asked := congrArg (Option.map Head.limits) (Scene.head?_requestSpeed attached p1 p2)
    rw [Option.map_map] at asked ⊢
    exact asked
  · rw [(step.run_driven before).2.limits position speed]
    have same : (step.deeds.foldr Deed.limit ·) = id := funext (foldr_limit_eq_self position speed)
    rw [same, Option.map_id]
    rfl

end Step

namespace Network

theorem head?_modifySignal (network : Network) (address : Address) {change : Signal → Signal}
    (heads : ∀ signal, (change signal).heads = signal.heads) (ref : HeadRef) :
    (network.modifySignal address change).head? ref = network.head? ref := by
  rw [head?, head?, signalAt_modifySignal]
  cases network.signalAt ref.signal with
  | none => rfl
  | some signal => by_cases here : address = ref.signal <;> simp [here, heads]

/-- The train leaves all heads alone. -/
theorem head?_advance (network : Network) (seconds : Float32) (ref : HeadRef) :
    (network.advance seconds).network.head? ref = network.head? ref := by
  apply view_advance (·.head? ref)
  · intro network train
    rfl
  · intro network address change heads
    exact network.head?_modifySignal address heads ref

/-- The train takes away no signal that a head refers to. -/
theorem attached_advance (network : Network) (seconds : Float32) (ref : HeadRef) :
    Scene.Attached ⟨(network.advance seconds).network, .mounted ref⟩ = Scene.Attached ⟨network, .mounted ref⟩ := by
  apply view_advance fun network => Scene.Attached ⟨network, .mounted ref⟩
  · intro network train
    rfl
  · intro network address change heads
    simp only [Scene.Attached, Scene.own?, Scene.head?, network.head?_modifySignal address heads ref]
    cases network.head? ref with
    | none => rfl
    | some head => cases owner : head.owner <;> simp [owner, signalAt_modifySignal]

end Network

/-! A run of calls. -/

/-- A call that evaluates heads or moves the train. The engine that evaluates may hold any scripts. -/
inductive TickCall where
  | evaluate (engine : Engine) (subject : Subject) (script : Option Script)
  | update (engine : Engine) (turns : List Engine.Turn)
  | advance (seconds : Float32)

namespace Chronicle

/-- The chronicle at a point that is passed in an evaluation. -/
def amid (now : Chronicle) (point : Invocation) : Chronicle :=
  ⟨point.scene.network, point.scene.subject.sign point.deeds ++ now.record⟩

def past (now : Chronicle) (evaluated : Evaluated) : Chronicle :=
  ⟨evaluated.engine.network, evaluated.subject.sign evaluated.deeds ++ now.record⟩

def engaged (now : Chronicle) (engine : Engine) : Engine := { engine with network := now.network }

/-- The chronicle behind an update. A fault leaves the remaining heads alone. -/
def update : List Engine.Turn → Engine → Chronicle → Chronicle
  | [], _, now => now
  | turn :: rest, engine, now =>
    let visited := (now.engaged engine).visit turn.moment turn.subject
    match visited.fault with
    | some _ => now.past visited
    | none => update rest visited.engine (now.past visited)

def after (now : Chronicle) : TickCall → Chronicle
  | .evaluate engine subject script => now.past ((now.engaged engine).evaluate subject script)
  | .update engine turns =>
    { now.update turns engine with network := (Engine.updateAll turns (now.engaged engine)).engine.network }
  | .advance seconds => { now with network := (now.network.advance seconds).network }

/-- The update of a chronicle is that of its network. -/
theorem network_update (turns : List Engine.Turn) (engine : Engine) (now : Chronicle) :
    (now.update turns engine).network = (Engine.updateAll turns (now.engaged engine)).engine.network := by
  induction turns generalizing engine now with
  | nil => rfl
  | cons turn rest ih =>
    rw [update, Engine.updateAll]
    cases (now.engaged engine).visit turn.moment turn.subject |>.fault with
    | some fault => rfl
    | none => exact ih _ _

/-- A point of a run of calls: it lies between two of them, or in the middle of a script that one of them runs. -/
inductive Meets : Chronicle → List TickCall → Chronicle → Prop where
  | between (now : Chronicle) (calls : List TickCall) : Meets now calls now
  | evaluating {now : Chronicle} {engine : Engine} {subject : Subject} {script : Script} {calls : List TickCall}
      {point : Invocation} (within : (now.engaged engine).Within subject script point) :
      Meets now (.evaluate engine subject (some script) :: calls) (now.amid point)
  | updating {now : Chronicle} {engine : Engine} {turn : Engine.Turn} {rest : List Engine.Turn} {script : Script}
      {calls : List TickCall} {point : Invocation}
      (found : ((now.engaged engine).lookup turn.moment (Scene.kind ⟨now.network, turn.subject⟩)).1 = some script)
      (within : (now.engaged engine).Within turn.subject script point) :
      Meets now (.update engine (turn :: rest) :: calls) (now.amid point)
  | updated {now point : Chronicle} {engine : Engine} {turn : Engine.Turn} {rest : List Engine.Turn}
      {calls : List TickCall} (done : ((now.engaged engine).visit turn.moment turn.subject).fault = none)
      (later : Meets (now.past ((now.engaged engine).visit turn.moment turn.subject))
        (.update ((now.engaged engine).visit turn.moment turn.subject).engine rest :: calls) point) :
      Meets now (.update engine (turn :: rest) :: calls) point
  | later {now point : Chronicle} {call : TickCall} {calls : List TickCall} (later : Meets (now.after call) calls point) :
      Meets now (call :: calls) point

/-- A head has the limits that the latest requests for it set. -/
structure Recalls (ref : HeadRef) (now : Chronicle) : Prop where
  attached : Scene.Attached ⟨now.network, .mounted ref⟩
  limits : (now.network.head? ref).map Head.limits = some (requested now.record ref)

variable {ref : HeadRef} {now : Chronicle}

/-- What leaves the limits of all heads alone, and makes no requests. -/
theorem Recalls.transfer (recalls : now.Recalls ref) {changed : Chronicle}
    (attached : Scene.Attached ⟨now.network, .mounted ref⟩ → Scene.Attached ⟨changed.network, .mounted ref⟩)
    (limits : (changed.network.head? ref).map Head.limits = (now.network.head? ref).map Head.limits)
    (record : changed.record = now.record) : changed.Recalls ref where
  attached := attached recalls.attached
  limits := by rw [limits, record, recalls.limits]

theorem Recalls.step (ref : HeadRef) (now : Chronicle) (step : Step) :
    Eval.Keeps (fun point => (now.amid point).Recalls ref) step.run := by
  intro before recalls
  obtain ⟨recorded, driven⟩ := step.run_driven before
  refine ⟨driven.sameBesides.attached recalls.attached, ?_⟩
  have earlier := recalls.limits
  by_cases own : before.scene.subject = .mounted ref
  · -- The deed on record makes of the limits what the step has made of them.
    have still := (driven.subject_eq_mounted ref).mpr own
    simp only [amid, own, still, recorded, requested_sign_self, List.foldr_append] at earlier ⊢
    rw [step.limits_run own recalls.attached, earlier, Option.map_some]
  · -- Another head is out of reach, and the deed is not on its record.
    have still : (step.run.run.run before).2.scene.subject ≠ .mounted ref := fun same =>
      own ((driven.subject_eq_mounted ref).mp same)
    simp only [amid, requested_sign_other own, requested_sign_other still] at earlier ⊢
    rw [driven.sameBesides.heads ref (Ne.symm own), earlier]

theorem Recalls.outset (recalls : now.Recalls ref) (engine : Engine) (subject : Subject) (locals : Locals) :
    (now.amid ((now.engaged engine).outset subject locals)).Recalls ref := by
  apply recalls.transfer
  · exact fun attached => attached
  · rfl
  · rw [amid, Engine.outset, Subject.sign_nil, List.nil_append]

theorem Recalls.within (recalls : now.Recalls ref) {engine : Engine} {subject : Subject} {script : Script}
    {point : Invocation} (within : (now.engaged engine).Within subject script point) : (now.amid point).Recalls ref := by
  obtain ⟨locals, _, passes⟩ := within
  exact passes.holds (Recalls.step ref now) (recalls.outset engine subject locals)

theorem Recalls.evaluate (recalls : now.Recalls ref) (engine : Engine) (subject : Subject) (script : Option Script) :
    (now.past ((now.engaged engine).evaluate subject script)).Recalls ref := by
  -- Where no script runs, nothing is asked for.
  have silent (function : Builtin) : ¬ Called [] function := by simp [Called]
  have idle (evaluated : Evaluated) (deeds : evaluated.deeds = [])
      (driven : Scene.Driven [] ⟨now.network, subject⟩ ⟨evaluated.engine.network, evaluated.subject⟩) :
      (now.past evaluated).Recalls ref := by
    apply recalls.transfer
    · exact driven.sameBesides.attached
    · exact driven.limits (silent _) (silent _) ref
    · rw [past, deeds, Subject.sign_nil, List.nil_append]
  cases script with
  | none => exact idle _ rfl ((Scene.Driven.refl [] _).setState _)
  | some script =>
    rw [Engine.evaluate]
    cases fresh : Locals.fresh script.localCount with
    | error fault =>
      rw [Engine.runScript, fresh]
      exact idle _ rfl (.refl [] _)
    | ok locals =>
      have passes := Eval.runNodes_passes_end script.nodes ((now.engaged engine).outset subject locals)
      have holds := recalls.within ⟨locals, fresh, passes⟩
      rw [Engine.runScript_eq _ _ fresh]
      generalize (runNodes script.nodes).run.run ((now.engaged engine).outset subject locals) = ran at holds ⊢
      obtain ⟨outcome, final⟩ := ran
      obtain ⟨counters, settled⟩ := (now.engaged engine).conclude_engine outcome final
      simp only [past, settled, Engine.conclude_subject, Engine.conclude_deeds]
      exact holds

theorem Recalls.visit (recalls : now.Recalls ref) (engine : Engine) (moment : Moment) (subject : Subject) :
    (now.past ((now.engaged engine).visit moment subject)).Recalls ref := by
  obtain ⟨store, log, visited, _⟩ := (now.engaged engine).visit_eq moment subject
  rw [visited]
  exact recalls.evaluate { engine with store } subject _

theorem Recalls.update (recalls : now.Recalls ref) (turns : List Engine.Turn) (engine : Engine) :
    (now.update turns engine).Recalls ref := by
  induction turns generalizing engine now with
  | nil => exact recalls
  | cons turn rest ih =>
    have visited := recalls.visit engine turn.moment turn.subject
    rw [Chronicle.update]
    cases (now.engaged engine).visit turn.moment turn.subject |>.fault with
    | some fault => exact visited
    | none => exact ih visited _

theorem Recalls.after (recalls : now.Recalls ref) (call : TickCall) : (now.after call).Recalls ref := by
  cases call with
  | evaluate engine subject script => exact recalls.evaluate engine subject script
  | update engine turns =>
    rw [Chronicle.after, ← network_update]
    exact recalls.update turns engine
  | advance seconds =>
    apply recalls.transfer
    · rw [Chronicle.after, Network.attached_advance]
      exact id
    · rw [Chronicle.after, Network.head?_advance]
    · rfl

theorem Recalls.meets (recalls : now.Recalls ref) {calls : List TickCall} {point : Chronicle}
    (meets : now.Meets calls point) : point.Recalls ref := by
  induction meets with
  | between => exact recalls
  | evaluating within => exact recalls.within within
  | updating _ within => exact recalls.within within
  | updated _ _ ih => exact ih (recalls.visit _ _ _)
  | later _ ih => exact ih (recalls.after _)

/-- How a script reads a limit, by the request that has set it. -/
def shown : Option Int64 → Int64
  | some value => (Binary.ofFloat32 value.toFloat32).toInt64
  | none => -1

theorem Recalls.reads {point : Chronicle} (recalls : point.Recalls ref) :
    Scene.slotValue ⟨point.network, .mounted ref⟩ .approachPosition = .ok (shown (latest point.record ref Deed.position?)) ∧
    Scene.slotValue ⟨point.network, .mounted ref⟩ .approachSpeed = .ok (shown (latest point.record ref Deed.speed?)) := by
  obtain ⟨head, here, limits⟩ := Option.map_eq_some_iff.mp recalls.limits
  obtain ⟨position, speed⟩ := Prod.mk.inj limits
  have own : Scene.head? ⟨point.network, .mounted ref⟩ = some head := here
  have value (request : Option Int64) : Scene.slotValue.limit (request.map Int64.toFloat32) = shown request := by
    cases request <;> rfl
  simp only [Scene.slotValue, Scene.approachPosition, Scene.approachSpeed, own, Option.bind_some, position, speed, value,
    and_self]

/-- In a network without limits, every head remembers what was asked for last. At every point of a run, also in the
middle of a script, its position reads as the latest one requested for it, by itself or with a speed, and its speed as the
latest one requested; both read as `-1` until then. -/
theorem slots_remember {network : Network}
    (unlimited : ∀ ref head, network.head? ref = some head → head.limits = (none, none))
    {calls : List TickCall} {point : Chronicle} (meets : Meets ⟨network, []⟩ calls point) (ref : HeadRef)
    (attached : Scene.Attached ⟨network, .mounted ref⟩) :
    Scene.slotValue ⟨point.network, .mounted ref⟩ .approachPosition = .ok (shown (latest point.record ref Deed.position?)) ∧
    Scene.slotValue ⟨point.network, .mounted ref⟩ .approachSpeed = .ok (shown (latest point.record ref Deed.speed?)) := by
  obtain ⟨⟨signal, head⟩, own⟩ := Option.isSome_iff_exists.mp attached
  obtain ⟨head, there, _⟩ := Option.bind_eq_some_iff.mp own
  have start : Recalls ref ⟨network, []⟩ := by
    refine ⟨attached, ?_⟩
    change (network.head? ref).map Head.limits = _
    rw [show network.head? ref = some head from there, Option.map_some, unlimited ref head there]
    rfl
  exact (start.meets meets).reads

end Chronicle

/-- A head before a curve and another one behind it, with a train that approaches. -/
private def curve : Network := .holding
  [{ id := "outer", next := "inner", heads := [{ kind := "home" }] }, { id := "inner", heads := [{ kind := "home" }] }]
  (some { signal := "outer", distance := 400, speed := 30 })

/-- Asks for release near the signal and below a speed, then nearer to it, and tries to write the limit itself. -/
private def braking : Script where
  name := "home"
  nodes := [
    .statement {
      terms := [some { function := .builtin .approachControlSpeed,
                       params := [some { operand := .constant 300 }, some { operand := .constant 20 }] }] },
    .statement {
      target := .slot (.known .approachSpeed)
      terms := [some { function := .builtin .approachControlPosition, params := [some { operand := .constant 200 }] }] }]

private def brakingCourse : Course Bool :=
  .take (.call (.builtin .approachControlSpeed) 2 300 20) fun _ =>
    .take (.call (.builtin .approachControlPosition) 1 200 0) fun near =>
      .take (.setSlot (.known .approachSpeed) near) fun _ => .done true

private theorem run_brakingCourse : brakingCourse.run = runNodes braking.nodes := by
  have steps : runNodes braking.nodes = (do
      Eval.record (.call (.builtin .approachControlSpeed) 2 300 20)
      let _ ← Builtin.approachControlSpeed.call 300 20
      Eval.record (.call (.builtin .approachControlPosition) 1 200 0)
      let _ ← Builtin.approachControlPosition.call 200 0
      Eval.record (.setSlot (.known .approachSpeed))
      return true) := by
    simp [braking, runNodes, runNode, Statement.returns, Eval.liftFault, Term.returns, evalTerms, foldLevel, Term.value,
      Term.unsigned, parameterValueAt, parameterValue, Operand.value, Target.store, Callee.call]
  rw [steps]
  rfl

/-- In the middle of the script, behind its last assignment. -/
theorem slots_remember_curve :
    ∃ point,
      Chronicle.Meets ⟨curve, []⟩ [.evaluate {} (.mounted ⟨0, 0⟩) (some braking), .advance 10] point ∧
      Scene.slotValue ⟨point.network, .mounted ⟨0, 0⟩⟩ .approachPosition = .ok (Chronicle.shown (some 200)) ∧
      Scene.slotValue ⟨point.network, .mounted ⟨0, 0⟩⟩ .approachSpeed = .ok (Chronicle.shown (some 20)) ∧
      Scene.slotValue ⟨point.network, .mounted ⟨1, 0⟩⟩ .approachSpeed = .ok (-1) := by
  have carried : ∀ signal ∈ curve.cells, ∀ head ∈ signal.heads, head.limits = (none, none) := by
    have cells : curve.cells = [Signal.assembled { id := "outer", next := "inner", heads := [{ kind := "home" }] } 0,
      Signal.assembled { id := "inner", heads := [{ kind := "home" }] } 1] := rfl
    simp [cells, Signal.assembled, Head.mount, Head.limits]
  have unlimited : ∀ ref head, curve.head? ref = some head → head.limits = (none, none) := by
    intro ref head there
    obtain ⟨signal, here, inside⟩ := Option.bind_eq_some_iff.mp there
    exact carried signal (List.mem_of_getElem? here) head (List.mem_of_getElem? inside)
  have passes : Eval.Passes (runNodes braking.nodes)
      (Engine.outset { network := curve } (.mounted ⟨0, 0⟩) ⟨0, []⟩) _ :=
    ⟨brakingCourse, run_brakingCourse, .onward rfl (.onward rfl (.step _ _ _))⟩
  have meets : Chronicle.Meets ⟨curve, []⟩
      [.evaluate {} (.mounted ⟨0, 0⟩) (some braking), .advance 10] _ := .evaluating ⟨⟨0, []⟩, rfl, passes⟩
  obtain ⟨position, speed⟩ := Chronicle.slots_remember unlimited meets ⟨0, 0⟩ rfl
  obtain ⟨_, other⟩ := Chronicle.slots_remember unlimited meets ⟨1, 0⟩ rfl
  exact ⟨_, meets, position, speed, other⟩

end Lineside
