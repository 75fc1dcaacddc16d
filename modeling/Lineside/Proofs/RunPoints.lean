import Lineside.Proofs.HeadFrame

/-! The points that an evaluation passes on its way. Every script runs like a tree of single steps, in which a step may
depend on what those before it have answered. What each single step keeps holds at every point of such a tree, also where
the evaluation ends in a fault. -/

namespace Lineside

/-- The steps that a program takes, one after another, until it is done. -/
inductive Course (α : Type) where
  | done (answer : α)
  | take (step : Step) (next : step.Answer → Course α)

namespace Course

variable {α β : Type}

def run : Course α → Eval α
  | .done answer => pure answer
  | .take step next => step.run >>= fun answer => (next answer).run

def append : Course α → (α → Course β) → Course β
  | .done answer, rest => rest answer
  | .take step next, rest => .take step fun answer => (next answer).append rest

theorem run_append (course : Course α) (rest : α → Course β) :
    (course.append rest).run = course.run >>= fun answer => (rest answer).run := by
  induction course with
  | done answer => rw [append, run, pure_bind]
  | take step next ih => simp only [append, run, bind_assoc, ih]

/-- A course that sets out at one point passes another: the one where it sets out, or one to which a step leads. -/
inductive Passes : Course α → Invocation → Invocation → Prop where
  | start (course : Course α) (before : Invocation) : course.Passes before before
  | step (step : Step) (next : step.Answer → Course α) (before : Invocation) :
      (take step next).Passes before (step.run.run.run before).2
  | onward {step : Step} {next : step.Answer → Course α} {before middle now : Invocation} {answer : step.Answer}
      (ran : step.run.run.run before = (.ok answer, middle)) (later : (next answer).Passes middle now) :
      (take step next).Passes before now

theorem passes_end (course : Course α) (before : Invocation) : course.Passes before (course.run.run.run before).2 := by
  induction course generalizing before with
  | done answer => exact .start _ before
  | take step next ih =>
    rw [run, Eval.run_bind]
    rcases ran : step.run.run.run before with ⟨fault | answer, middle⟩
    · have stopped : middle = (step.run.run.run before).2 := by rw [ran]
      rw [stopped]
      exact .step step next before
    · exact .onward ran (ih answer middle)

theorem Passes.holds {invariant : Invocation → Prop} (keeps : ∀ step : Step, Eval.Keeps invariant step.run)
    {course : Course α} {before now : Invocation} (passes : course.Passes before now) (holds : invariant before) :
    invariant now := by
  induction passes with
  | start => exact holds
  | step step next before => exact keeps step before holds
  | @onward step next before middle now answer ran later ih =>
    have after := keeps step before holds
    rw [ran] at after
    exact ih after

end Course

namespace Eval

variable {α : Type}

theorem courses_sequential : Sequential fun α program => ∃ course : Course α, course.run = program where
  pure answer := ⟨.done answer, rfl⟩
  bind := by
    rintro α β program next ⟨course, rfl⟩ rest
    obtain ⟨courses, runs⟩ := Classical.skolem.mp rest
    exact ⟨course.append courses, by simp only [Course.run_append, runs]⟩

/-- Every script takes some course. -/
theorem exists_course (nodes : List Node) : ∃ course : Course Bool, course.run = runNodes nodes := by
  refine courses_sequential.runNodes_holds nodes fun step _ => ⟨.take step .done, ?_⟩
  exact bind_pure step.run

/-- A program passes a point on a course that it takes. -/
def Passes (program : Eval α) (before now : Invocation) : Prop :=
  ∃ course : Course α, course.run = program ∧ course.Passes before now

theorem runNodes_passes_end (nodes : List Node) (before : Invocation) :
    Passes (runNodes nodes) before ((runNodes nodes).run.run before).2 := by
  obtain ⟨course, run⟩ := exists_course nodes
  exact ⟨course, run, run ▸ course.passes_end before⟩

theorem Passes.holds {invariant : Invocation → Prop} {program : Eval α} {before now : Invocation}
    (passes : Passes program before now) (keeps : ∀ step : Step, Keeps invariant step.run) (holds : invariant before) :
    invariant now := by
  obtain ⟨_, _, passes⟩ := passes
  exact passes.holds keeps holds

end Eval

/-- A point in the middle of a script that the engine runs for a head. -/
def Engine.Within (engine : Engine) (subject : Subject) (script : Script) (now : Invocation) : Prop :=
  ∃ locals, Locals.fresh script.localCount = .ok locals ∧
    Eval.Passes (runNodes script.nodes) (engine.outset subject locals) now

end Lineside
