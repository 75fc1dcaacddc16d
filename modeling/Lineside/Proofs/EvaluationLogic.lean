import Lineside.Script.Evaluation

/-! Rules for evaluations that always answer. An evaluation answers under an invariant when, from every
invocation in which the invariant holds, it ends without a fault in one where it holds again. -/

namespace Lineside.Eval

variable {α β : Type} {invariant : Invocation → Prop}

theorem run_bind (program : Eval α) (next : α → Eval β) (before : Invocation) :
    (program >>= next).run.run before =
      match program.run.run before with
      | (.ok answer, after) => (next answer).run.run after
      | (.error fault, after) => (.error fault, after) := by
  simp only [bind, ExceptT.bind, ExceptT.run, ExceptT.mk, StateT.run, StateT.bind]
  rcases program before with ⟨_ | _, _⟩ <;> rfl

def Answers (invariant : Invocation → Prop) (program : Eval α) : Prop :=
  ∀ before, invariant before →
    ∃ answer after, program.run.run before = (.ok answer, after) ∧ invariant after

theorem Answers.pure (answer : α) : Answers invariant (Pure.pure answer : Eval α) :=
  fun before holds => ⟨answer, before, rfl, holds⟩

theorem Answers.bind {program : Eval α} {next : α → Eval β} (first : Answers invariant program)
    (rest : ∀ answer, Answers invariant (next answer)) : Answers invariant (program >>= next) := by
  intro before holds
  obtain ⟨answer, middle, ran, holds⟩ := first before holds
  obtain ⟨result, after, finished, holds⟩ := rest answer middle holds
  exact ⟨result, after, by rw [run_bind, ran]; exact finished, holds⟩

theorem Answers.map {program : Eval α} (first : Answers invariant program) (f : α → β) :
    Answers invariant (f <$> program) := by
  rw [map_eq_pure_bind]
  exact first.bind fun _ => .pure _

/-- What follows a look at the invocation may rely on its invariant. -/
theorem Answers.get_bind {next : Invocation → Eval β}
    (rest : ∀ now, invariant now → Answers invariant (next now)) : Answers invariant (get >>= next) :=
  fun before holds => rest before holds before holds

theorem Answers.ite {condition : Prop} [Decidable condition] {program other : Eval α}
    (first : condition → Answers invariant program) (second : ¬ condition → Answers invariant other) :
    Answers invariant (if condition then program else other) := by
  by_cases holds : condition
  · rw [if_pos holds]
    exact first holds
  · rw [if_neg holds]
    exact second holds

theorem Answers.modify {change : Invocation → Invocation}
    (keeps : ∀ before, invariant before → invariant (change before)) :
    Answers invariant (modify change : Eval Unit) :=
  fun before holds => ⟨(), change before, rfl, keeps before holds⟩

theorem Answers.liftFault {outcome : Except Fault α} (ok : ∃ answer, outcome = .ok answer) :
    Answers invariant (liftFault outcome) := by
  obtain ⟨answer, rfl⟩ := ok
  exact .pure answer

theorem Answers.ask (question : Scene → α) : Answers invariant (ask question) :=
  .get_bind fun _ _ => .pure _

theorem Answers.act {action : Scene → α × Scene}
    (keeps : ∀ before, invariant before → invariant { before with scene := (action before.scene).2 }) :
    Answers invariant (act action) :=
  fun before holds => ⟨(action before.scene).1, _, rfl, keeps before holds⟩

theorem Answers.note {line : Scene → String}
    (keeps : ∀ before log, invariant before → invariant { before with log }) :
    Answers invariant (note line) := by
  refine .modify fun before holds => ?_
  by_cases debug : before.debug = true
  · rw [if_pos debug]
    exact keeps before _ holds
  · rw [if_neg debug]
    exact holds

/-- From every invocation in which the invariant holds, a program leads to one where it holds again, whether
or not it ends by a fault. -/
def Keeps (invariant : Invocation → Prop) (program : Eval α) : Prop :=
  ∀ before, invariant before → invariant (program.run.run before).2

theorem Keeps.pure (answer : α) : Keeps invariant (Pure.pure answer : Eval α) :=
  fun _ holds => holds

theorem Keeps.bind {program : Eval α} {next : α → Eval β} (first : Keeps invariant program)
    (rest : ∀ answer, Keeps invariant (next answer)) : Keeps invariant (program >>= next) := by
  intro before holds
  have middle := first before holds
  rw [run_bind]
  rcases ran : program.run.run before with ⟨_ | answer, after⟩
  · rw [ran] at middle
    exact middle
  · rw [ran] at middle
    exact rest answer after middle

end Lineside.Eval
