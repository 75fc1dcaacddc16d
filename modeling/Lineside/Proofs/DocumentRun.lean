import Lineside.Proofs.DocumentRoundTrip
import Lineside.Proofs.HeadFrame

/-! A script that a document describes need not be valid, and still it can be run for every attached head.
Nothing is missing in it, so no step of it stops, and only the number of its locals can be at fault. -/

namespace Lineside

/-- A step at which a run ends by a fault, whatever the scene is. -/
def Step.Stops : Step → Prop
  | .stop _ => True
  | _ => False

namespace Operand

theorem takes_goes {operand : Operand} {step : Step} (taken : operand.Takes step) : ¬ step.Stops := by
  cases operand with
  | constant value => exact taken.elim
  | localVar index =>
    cases taken
    exact id
  | slot which =>
    cases taken
    exact id
  | blank => exact taken.elim

end Operand

theorem Target.takes_goes {target : Target} {step : Step} (taken : target.Takes step) : ¬ step.Stops := by
  cases target with
  | none => exact taken.elim
  | localVar index =>
    obtain ⟨value, rfl⟩ := taken
    exact id
  | slot which =>
    obtain ⟨value, rfl⟩ := taken
    exact id

theorem Term.Expressible.takes_goes {term : Term} (expressible : term.Expressible) {step : Step}
    (taken : termTakes (some term) step) : ¬ step.Stops := by
  rcases taken with ⟨entry, member, taken⟩ | ⟨_, p1, p2, rfl⟩
  · obtain ⟨parameter, rfl, _⟩ := expressible.params entry member
    exact Operand.takes_goes taken
  · exact id

theorem termsTake_goes {terms : List (Option Term)}
    (expressible : ∀ entry ∈ terms, ∃ term, entry = some term ∧ term.Expressible) {step : Step}
    (taken : termsTake terms step) : ¬ step.Stops := by
  obtain ⟨entry, member, taken⟩ := taken
  obtain ⟨term, rfl, known⟩ := expressible entry ((List.takeWhile_sublist _).subset member)
  exact known.takes_goes taken

theorem Condition.Expressible.takes_goes {condition : Condition} (expressible : condition.Expressible) {step : Step}
    (taken : condition.Takes step) : ¬ step.Stops := by
  obtain ⟨first, given, known⟩ := expressible.first
  rw [Condition.Takes, given] at taken
  rcases taken with taken | ⟨second, other, taken⟩
  · exact termsTake_goes (by simpa using known) taken
  · exact termsTake_goes (by simpa using expressible.second second other) taken

theorem elementsTake_goes : (elements : List Element) → (∀ element ∈ elements, element.Expressible) →
    ∀ step, elementsTake elements step → ¬ step.Stops
  | [], _, _, taken => by
    rw [elementsTake] at taken
    exact taken.elim
  | element :: rest, expressible, step, taken => by
    obtain ⟨here, others⟩ := List.forall_mem_cons.mp expressible
    cases here with
    | combinator =>
      rw [elementsTake] at taken
      exact elementsTake_goes rest others step taken
    | negation =>
      rw [elementsTake] at taken
      exact elementsTake_goes rest others step taken
    | condition test =>
      rw [elementsTake] at taken
      rcases taken with taken | taken
      · exact test.takes_goes taken
      · exact elementsTake_goes rest others step taken
    | group members =>
      rw [elementsTake] at taken
      rcases taken with taken | taken
      · exact elementsTake_goes _ members step taken
      · exact elementsTake_goes rest others step taken

/-- In a statement that returns, terms may be missing behind the marker. -/
theorem Statement.takes_goes {statement : Statement}
    (expressible : statement.returns = .ok true ∨ statement.Expressible) {step : Step}
    (taken : statement.Takes step) : ¬ step.Stops := by
  rcases taken with taken | ⟨_, taken⟩
  · rcases expressible with returns | parts
    · obtain ⟨entry, member, _⟩ := taken
      unfold Statement.returns at returns
      split at returns
      next => cases returns
      next => cases returns
      next given =>
        rw [given] at member
        simp [unreturned, Except.ok.inj returns] at member
    · exact termsTake_goes parts.terms taken
  · exact Target.takes_goes taken

mutual

theorem nodesTake_goes : (nodes : List Node) → (∀ node ∈ nodes, node.Expressible) →
    ∀ step, nodesTake nodes step → ¬ step.Stops
  | [], _, _, taken => by
    rw [nodesTake] at taken
    exact taken.elim
  | node :: rest, expressible, step, taken => by
    obtain ⟨here, others⟩ := List.forall_mem_cons.mp expressible
    rw [nodesTake] at taken
    rcases taken with taken | taken
    · exact nodeTakes_goes node here step taken
    · exact nodesTake_goes rest others step taken

theorem nodeTakes_goes : (node : Node) → node.Expressible → ∀ step, nodeTakes node step → ¬ step.Stops
  | .absent, expressible, _, _ => by cases expressible
  | .statement statement, expressible, step, taken => by
    rw [nodeTakes] at taken
    cases expressible with
    | leave returns => exact Statement.takes_goes (.inl returns) taken
    | assign parts => exact Statement.takes_goes (.inr parts) taken
  | .branch conditions body arms otherwise, expressible, step, taken => by
    rw [nodeTakes] at taken
    cases expressible with
    | branch test inside tried left =>
      rcases taken with taken | taken | taken | taken
      · exact elementsTake_goes conditions test step taken
      · exact nodesTake_goes body inside step taken
      · exact armsTake_goes arms tried step taken
      · exact nodesTake_goes otherwise left step taken

theorem armsTake_goes : (arms : List Arm) → (∀ arm ∈ arms, arm.Expressible) →
    ∀ step, armsTake arms step → ¬ step.Stops
  | [], _, _, taken => by
    rw [armsTake] at taken
    exact taken.elim
  | .absent :: rest, expressible, _, _ => by cases expressible .absent (by simp)
  | .arm conditions body :: rest, expressible, step, taken => by
    obtain ⟨here, others⟩ := List.forall_mem_cons.mp expressible
    rw [armsTake] at taken
    cases here with
    | arm test inside =>
      rcases taken with taken | taken | taken
      · exact elementsTake_goes conditions test step taken
      · exact nodesTake_goes body inside step taken
      · exact armsTake_goes rest others step taken

end

theorem Scene.Attached.step {step : Step} {scene changed : Scene} (attached : scene.Attached)
    (changes : step.Changes scene changed) : changed.Attached := by
  cases changes with
  | nothing => exact attached
  | state value => exact attached.setState _
  | drawState value => exact attached.setDrawState value
  | position given p1 p2 => exact attached.requestPosition p1
  | speed given p1 p2 => exact attached.requestSpeed p1 p2
  | partialRoute given p1 p2 => exact attached.allowPartialRoute _

namespace Step

theorem run_ok {step : Step} (goes : ¬ step.Stops) (before : Invocation) (attached : before.scene.Attached) :
    ∃ answer after, step.run.run.run before = (.ok answer, after) := by
  cases step with
  | stop fault => exact absurd trivial goes
  | readSlot slot =>
    cases slot with
    | known slot =>
      obtain ⟨value, read⟩ := before.scene.slotValue_ok attached slot
      have ran := Eval.run_liftFault (before.scene.slotValue slot)
        { before with deeds := .readSlot (.known slot) :: before.deeds }
      exact ⟨value, _, ran.trans (congrArg (Prod.mk · _) read)⟩
    | unknown code => exact ⟨_, _, rfl⟩
  | call callee given p1 p2 =>
    cases callee with
    | builtin function =>
      obtain ⟨value, scene, log, ran, _⟩ :=
        function.call_cases given p1 p2 { before with deeds := .call (.builtin function) given p1 p2 :: before.deeds }
      exact ⟨value, _, ran⟩
    | none | returning | unknown => exact ⟨_, _, rfl⟩
  | setSlot slot value =>
    rcases slot with slot | code
    · cases slot <;> exact ⟨_, _, rfl⟩
    · exact ⟨_, _, rfl⟩
  | passOver | readLocal | setLocal => exact ⟨_, _, rfl⟩

theorem run_answers {step : Step} (goes : ¬ step.Stops) :
    Eval.Answers (fun now => now.scene.Attached) step.run := by
  intro before attached
  obtain ⟨answer, after, answered⟩ := run_ok goes before attached
  obtain ⟨outcome, scene, locals, log, ran, changes⟩ := step.run_cases before
  refine ⟨answer, after, answered, ?_⟩
  rw [answered] at ran
  cases ran
  exact attached.step changes

end Step

theorem Locals.fresh_fault_iff {count : Int64} (room : count ≤ capacity) :
    (∃ fault, fresh count = .error fault) ↔ count < 0 := by
  unfold fresh
  have small : ¬ capacity < count := by
    simp only [Int64.lt_iff_toInt_lt, Int64.le_iff_toInt_le] at *
    omega
  by_cases negative : count < 0 <;> simp [negative, small]

namespace Engine

/-- A script that was decoded runs without a fault for every attached head, once it has its locals. -/
theorem evaluate_fault_fresh (engine : Engine) {subject : Subject} {document : Document.Script} {script : Script}
    (resolved : document.resolve = .ok script) (attached : Scene.Attached { network := engine.network, subject }) :
    (∃ fault, (engine.evaluate subject (some script)).fault = some fault) ↔
      ∃ fault, Locals.fresh script.localCount = .error fault := by
  rw [evaluate]
  cases fresh : Locals.fresh script.localCount with
  | error fault =>
    rw [runScript, fresh]
    simp
  | ok locals =>
    have steps := nodesTake_goes script.nodes (Document.Script.resolve_expressible resolved)
    have answers := (Eval.answers_sequential _).runNodes_holds script.nodes fun step taken =>
      Step.run_answers (steps step taken)
    obtain ⟨continued, final, ran, _⟩ := answers (engine.outset subject locals) attached
    rw [engine.runScript_eq subject fresh, ran]
    cases continued <;> simp [conclude]

/-- The script of a document runs without a fault for every attached head, unless it asks for a negative number
of locals, given that any other number of them can be had. -/
theorem evaluate_fault_iff (engine : Engine) (subject : Subject) {document : Document.Script} {script : Script}
    (resolved : document.resolve = .ok script) (attached : Scene.Attached { network := engine.network, subject })
    (room : document.localCount ≤ Locals.capacity) :
    (∃ fault, (engine.evaluate subject (some script)).fault = some fault) ↔ document.localCount < 0 := by
  have count : script.localCount = document.localCount := by
    simp only [Document.Script.resolve, bind_eq_ok, pure_eq_ok, Except.ok.injEq] at resolved
    obtain ⟨nodes, _, rfl⟩ := resolved
    rfl
  rw [← count] at room ⊢
  rw [← Locals.fresh_fault_iff room]
  exact engine.evaluate_fault_fresh resolved attached

end Engine

/-- A document with hardly anything right about it: an assignment without terms, calls with too few and too
many parameters, locals out of range, levels at random, and branches without conditions. -/
private def mangled (count : Int64) : Document.Script where
  name := "mangled"
  localCount := count
  statements := some [
    { target := some { slot := "ENABLED" } },
    { target := some { localVar := some 7 }
      terms := [
        { function := "NEXT_NSIG_LR", params := [{ localVar := some (-1) }] },
        { function := "BLOCK_STATE", params := [{ constant := some 1 }, { slot := "STATE" }], sublevel := -5 },
        { sublevel2 := 3 }, { function := "RETURN" }] },
    { kind := "if", body := [{ kind := "if", elseIf := [{}] }] }]

private def mangledScript (count : Int64) : Script where
  name := "mangled"
  localCount := count
  nodes := [
    .statement { target := .slot (.known .enabled), terms := [] },
    .statement {
      target := .localVar 7
      terms := [
        some { function := .builtin .nextNthSignalLeast, params := [some { operand := .localVar (-1) }] },
        some {
          function := .builtin .blockState
          params := [some { operand := .constant 1 }, some { operand := .slot (.known .state) }]
          sublevel := -5 },
        some { sublevel2 := 3 }, some { function := .returning }] },
    .branch [] [.branch [] [] [.arm [] []] []] [] []]

private def platform : Network := .holding [{ id := "P", heads := [{ kind := "mangled" }] }] none

theorem evaluate_fault_mangled :
    (Script.validate (some (mangledScript 0))).toOption.map Option.isSome = some true ∧
    (mangled 0).resolve = .ok (mangledScript 0) ∧
    ¬ (∃ fault,
      (Engine.evaluate { network := platform } (.mounted ⟨0, 0⟩) (some (mangledScript 0))).fault = some fault) ∧
    (mangled (-1)).resolve = .ok (mangledScript (-1)) ∧
    ∃ fault,
      (Engine.evaluate { network := platform } (.mounted ⟨0, 0⟩) (some (mangledScript (-1)))).fault = some fault := by
  have resolved (count : Int64) : (mangled count).resolve = .ok (mangledScript count) := rfl
  have attached : Scene.Attached { network := platform, subject := .mounted ⟨0, 0⟩ } := rfl
  refine ⟨by rfl, resolved 0, ?_, resolved (-1), ?_⟩
  · rw [Engine.evaluate_fault_iff _ _ (resolved 0) attached (by decide)]
    decide
  · rw [Engine.evaluate_fault_iff _ _ (resolved (-1)) attached (by decide)]
    decide

end Lineside
