import Lineside.Proofs.EvaluationLogic
import Lineside.Proofs.HeadFrame

/-! A return ends the script. Whatever follows a return that is reached, in its own block and in every
block around it, does not matter; and a block answers false only where a return was reached. -/

namespace Lineside

namespace Eval

theorem run_bind_eq_ok {α β : Type} {program : Eval α} {next : α → Eval β} {before after : Invocation} {answer : β} :
    (program >>= next).run.run before = (.ok answer, after) ↔
      ∃ value middle, program.run.run before = (.ok value, middle) ∧
        (next value).run.run middle = (.ok answer, after) := by
  rw [run_bind]
  rcases program.run.run before with ⟨fault | value, middle⟩
  · constructor
    · rintro ⟨⟩
    · rintro ⟨_, _, ⟨⟩, _⟩
  · constructor
    · exact fun finished => ⟨value, middle, rfl, finished⟩
    · rintro ⟨_, _, ⟨⟩, finished⟩
      exact finished

end Eval

/-! Blocks and arms that follow one another. -/

theorem runNodes_append (first second : List Node) :
    runNodes (first ++ second) = do if ← runNodes first then runNodes second else return false := by
  induction first with
  | nil => simp [runNodes]
  | cons node first ih =>
    simp only [List.cons_append, runNodes, ih, bind_assoc]
    congr 1
    funext continued
    cases continued <;> simp

theorem runArms_append (first second : List Arm) :
    runArms (first ++ second) = (do
      match ← runArms first with
      | some continued => return some continued
      | none => runArms second) := by
  induction first with
  | nil => simp [runArms]
  | cons arm first ih =>
    cases arm with
    | absent => rfl
    | arm conditions body =>
      simp only [List.cons_append, runArms, ih, bind_assoc]
      congr 1
      funext holds
      cases holds <;> simp

section Runs

variable {before middle inside after : Invocation}

theorem run_append_of_continued {first second : List Node} (ran : (runNodes first).run.run before = (.ok true, middle)) :
    (runNodes (first ++ second)).run.run before = (runNodes second).run.run middle := by
  rw [runNodes_append, Eval.run_bind, ran]
  rfl

theorem run_append_of_returned {first : List Node} (ran : (runNodes first).run.run before = (.ok false, after))
    (second : List Node) : (runNodes (first ++ second)).run.run before = (.ok false, after) := by
  rw [runNodes_append, Eval.run_bind, ran]
  rfl

theorem run_cons_of_returned {node : Node} (ran : (runNode node).run.run before = (.ok false, after))
    (rest : List Node) : (runNodes (node :: rest)).run.run before = (.ok false, after) := by
  rw [runNodes, Eval.run_bind, ran]
  rfl

variable {conditions test : List Element} {body otherwise : List Node} {arms tried left : List Arm} {continued : Bool}

theorem run_branch_of_taken (taken : (evalConditions conditions).run.run before = (.ok true, middle)) :
    (runNode (.branch conditions body arms otherwise)).run.run before = (runNodes body).run.run middle := by
  rw [runNode, Eval.run_bind, taken]
  rfl

theorem run_branch_of_tried (refused : (evalConditions conditions).run.run before = (.ok false, middle))
    (ran : (runArms arms).run.run middle = (.ok (some continued), after)) :
    (runNode (.branch conditions body arms otherwise)).run.run before = (.ok continued, after) := by
  rw [runNode]
  exact Eval.run_bind_eq_ok.mpr ⟨false, middle, refused, Eval.run_bind_eq_ok.mpr ⟨_, after, ran, rfl⟩⟩

theorem run_branch_of_refused (refused : (evalConditions conditions).run.run before = (.ok false, middle))
    (failed : (runArms arms).run.run middle = (.ok none, inside))
    (ran : (runNodes otherwise).run.run inside = (.ok continued, after)) :
    (runNode (.branch conditions body arms otherwise)).run.run before = (.ok continued, after) := by
  rw [runNode]
  exact Eval.run_bind_eq_ok.mpr ⟨false, middle, refused, Eval.run_bind_eq_ok.mpr ⟨none, inside, failed, ran⟩⟩

theorem run_arms_of_taken (failed : (runArms tried).run.run before = (.ok none, middle))
    (taken : (evalConditions test).run.run middle = (.ok true, inside))
    (ran : (runNodes body).run.run inside = (.ok continued, after)) :
    (runArms (tried ++ .arm test body :: left)).run.run before = (.ok (some continued), after) := by
  rw [runArms_append]
  refine Eval.run_bind_eq_ok.mpr ⟨none, middle, failed, ?_⟩
  rw [runArms]
  exact Eval.run_bind_eq_ok.mpr ⟨true, inside, taken, Eval.run_bind_eq_ok.mpr ⟨continued, after, ran, rfl⟩⟩

end Runs

/-- A statement of a script: what comes before it in its block, and the branches it lies in. -/
inductive Site where
  | here (earlier : List Node) (statement : Statement)
  | inBody (earlier : List Node) (conditions : List Element) (inner : Site)
  | inArm (earlier : List Node) (conditions : List Element) (body : List Node) (tried : List Arm)
      (test : List Element) (inner : Site)
  | inElse (earlier : List Node) (conditions : List Element) (body : List Node) (arms : List Arm) (inner : Site)

/-- What follows a site in one of the blocks around it: the rest of the branch it lies in, and the nodes
behind. -/
structure Sequel where
  arms : List Arm := []
  otherwise : List Node := []
  nodes : List Node := []

namespace Site

/-- The block around a site, given what follows in it and in the blocks further inside. -/
def block : Site → Sequel → List Sequel → List Node
  | .here earlier statement, sequel, _ => earlier ++ .statement statement :: sequel.nodes
  | .inBody earlier conditions inner, sequel, within =>
    earlier ++ .branch conditions (inner.block (within.headD {}) within.tail) sequel.arms sequel.otherwise ::
      sequel.nodes
  | .inArm earlier conditions body tried test inner, sequel, within =>
    earlier ++ .branch conditions body
      (tried ++ .arm test (inner.block (within.headD {}) within.tail) :: sequel.arms) sequel.otherwise :: sequel.nodes
  | .inElse earlier conditions body arms inner, sequel, within =>
    earlier ++ .branch conditions body arms (inner.block (within.headD {}) within.tail) :: sequel.nodes

/-- A run of the block around a site comes to the site, and the statement there is a return. -/
inductive Reached : Site → Invocation → Invocation → Prop where
  | here {earlier : List Node} {statement : Statement} {before after : Invocation}
      (ran : (runNodes earlier).run.run before = (.ok true, after)) (returns : statement.returns = .ok true) :
      Reached (.here earlier statement) before after
  | inBody {earlier : List Node} {conditions : List Element} {inner : Site} {before asked inside after : Invocation}
      (ran : (runNodes earlier).run.run before = (.ok true, asked))
      (taken : (evalConditions conditions).run.run asked = (.ok true, inside))
      (reached : Reached inner inside after) : Reached (.inBody earlier conditions inner) before after
  | inArm {earlier body : List Node} {conditions test : List Element} {tried : List Arm} {inner : Site}
      {before asked refusing asking inside after : Invocation}
      (ran : (runNodes earlier).run.run before = (.ok true, asked))
      (refused : (evalConditions conditions).run.run asked = (.ok false, refusing))
      (failed : (runArms tried).run.run refusing = (.ok none, asking))
      (taken : (evalConditions test).run.run asking = (.ok true, inside))
      (reached : Reached inner inside after) : Reached (.inArm earlier conditions body tried test inner) before after
  | inElse {earlier body : List Node} {conditions : List Element} {arms : List Arm} {inner : Site}
      {before asked refusing inside after : Invocation}
      (ran : (runNodes earlier).run.run before = (.ok true, asked))
      (refused : (evalConditions conditions).run.run asked = (.ok false, refusing))
      (failed : (runArms arms).run.run refusing = (.ok none, inside))
      (reached : Reached inner inside after) : Reached (.inElse earlier conditions body arms inner) before after

/-- A return that is reached decides the run of every block around it, whatever follows it. -/
theorem Reached.run_block {site : Site} {before after : Invocation} (reached : site.Reached before after)
    (sequel : Sequel) (within : List Sequel) :
    (runNodes (site.block sequel within)).run.run before = (.ok false, after) := by
  induction reached generalizing sequel within with
  | here ran returns =>
    rw [block, run_append_of_continued ran]
    refine run_cons_of_returned ?_ sequel.nodes
    rw [runNode, returns]
    rfl
  | inBody ran taken _ ih =>
    rw [block, run_append_of_continued ran]
    refine run_cons_of_returned ?_ sequel.nodes
    rw [run_branch_of_taken taken]
    exact ih _ _
  | inArm ran refused failed taken _ ih =>
    rw [block, run_append_of_continued ran]
    exact run_cons_of_returned (run_branch_of_tried refused (run_arms_of_taken failed taken (ih _ _))) sequel.nodes
  | inElse ran refused failed _ ih =>
    rw [block, run_append_of_continued ran]
    exact run_cons_of_returned (run_branch_of_refused refused failed (ih _ _)) sequel.nodes

/-- The site seen from a block in which a node comes first. -/
def behind (node : Node) : Site → Site
  | .here earlier statement => .here (node :: earlier) statement
  | .inBody earlier conditions inner => .inBody (node :: earlier) conditions inner
  | .inArm earlier conditions body tried test inner => .inArm (node :: earlier) conditions body tried test inner
  | .inElse earlier conditions body arms inner => .inElse (node :: earlier) conditions body arms inner

theorem block_behind (node : Node) (site : Site) (sequel : Sequel) (within : List Sequel) :
    (site.behind node).block sequel within = node :: site.block sequel within := by
  cases site <;> simp [behind, block]

theorem Reached.behind {node : Node} {site : Site} {before middle after : Invocation}
    (ran : (runNode node).run.run before = (.ok true, middle)) (reached : site.Reached middle after) :
    (site.behind node).Reached before after := by
  have first {earlier : List Node} {asked : Invocation} (rest : (runNodes earlier).run.run middle = (.ok true, asked)) :
      (runNodes (node :: earlier)).run.run before = (.ok true, asked) := by
    rw [runNodes]
    exact Eval.run_bind_eq_ok.mpr ⟨true, middle, ran, rest⟩
  cases reached with
  | here ran returns => exact .here (first ran) returns
  | inBody ran taken reached => exact .inBody (first ran) taken reached
  | inArm ran refused failed taken reached => exact .inArm (first ran) refused failed taken reached
  | inElse ran refused failed reached => exact .inElse (first ran) refused failed reached

end Site

/-! Where a run answers false, a return was reached. -/

mutual

theorem exists_site_of_runNodes : (nodes : List Node) → (before after : Invocation) →
    (runNodes nodes).run.run before = (.ok false, after) →
    ∃ (site : Site) (sequel : Sequel) (within : List Sequel), nodes = site.block sequel within ∧
      site.Reached before after
  | [], before, after, ran => by
    rw [runNodes] at ran
    cases ran
  | node :: rest, before, after, ran => by
    rw [runNodes] at ran
    obtain ⟨continued, middle, first, ran⟩ := Eval.run_bind_eq_ok.mp ran
    cases continued with
    | false =>
      cases ran
      exact exists_site_of_runNode node rest before after first
    | true =>
      obtain ⟨site, sequel, within, rfl, reached⟩ := exists_site_of_runNodes rest middle after ran
      exact ⟨site.behind node, sequel, within, (site.block_behind node sequel within).symm, reached.behind first⟩

theorem exists_site_of_runNode : (node : Node) → (rest : List Node) → (before after : Invocation) →
    (runNode node).run.run before = (.ok false, after) →
    ∃ (site : Site) (sequel : Sequel) (within : List Sequel),
      node :: rest = site.block sequel within ∧ site.Reached before after
  | .absent, _, before, after, ran => by
    rw [runNode] at ran
    cases ran
  | .statement statement, rest, before, after, ran => by
    rw [runNode] at ran
    obtain ⟨returns, middle, asked, ran⟩ := Eval.run_bind_eq_ok.mp ran
    rw [Eval.run_liftFault] at asked
    obtain ⟨marked, rfl⟩ := Prod.mk.inj asked
    cases returns with
    | true =>
      cases ran
      exact ⟨.here [] statement, { nodes := rest }, [], rfl, .here rfl marked⟩
    | false =>
      obtain ⟨_, _, _, ran⟩ := Eval.run_bind_eq_ok.mp ran
      obtain ⟨_, _, _, ran⟩ := Eval.run_bind_eq_ok.mp ran
      cases ran
  | .branch conditions body arms otherwise, rest, before, after, ran => by
    rw [runNode] at ran
    obtain ⟨holds, middle, tested, ran⟩ := Eval.run_bind_eq_ok.mp ran
    have unchanged : (runNodes []).run.run before = (.ok true, before) := rfl
    cases holds with
    | true =>
      obtain ⟨site, sequel, within, rfl, reached⟩ := exists_site_of_runNodes body middle after ran
      exact ⟨.inBody [] conditions site, { arms, otherwise, nodes := rest }, sequel :: within, rfl,
        .inBody unchanged tested reached⟩
    | false =>
      obtain ⟨chosen, inside, tried, ran⟩ := Eval.run_bind_eq_ok.mp ran
      cases chosen with
      | some continued =>
        cases ran
        obtain ⟨failed, test, left, asking, taking, site, sequel, within, rfl, refused, taken, reached⟩ :=
          exists_site_of_runArms arms middle after tried
        exact ⟨.inArm [] conditions body failed test site, { arms := left, otherwise, nodes := rest }, sequel :: within,
          rfl, .inArm unchanged tested refused taken reached⟩
      | none =>
        obtain ⟨site, sequel, within, rfl, reached⟩ := exists_site_of_runNodes otherwise inside after ran
        exact ⟨.inElse [] conditions body arms site, { nodes := rest }, sequel :: within, rfl,
          .inElse unchanged tested tried reached⟩

theorem exists_site_of_runArms : (arms : List Arm) → (before after : Invocation) →
    (runArms arms).run.run before = (.ok (some false), after) →
    ∃ tried test left asking inside, ∃ (site : Site) (sequel : Sequel) (within : List Sequel),
      arms = tried ++ .arm test (site.block sequel within) :: left ∧
      (runArms tried).run.run before = (.ok none, asking) ∧
      (evalConditions test).run.run asking = (.ok true, inside) ∧ site.Reached inside after
  | [], before, after, ran => by
    rw [runArms] at ran
    cases ran
  | .absent :: rest, before, after, ran => by
    rw [runArms] at ran
    cases ran
  | .arm conditions body :: rest, before, after, ran => by
    rw [runArms] at ran
    obtain ⟨holds, middle, tested, ran⟩ := Eval.run_bind_eq_ok.mp ran
    cases holds with
    | true =>
      obtain ⟨continued, inside, ran, same⟩ := Eval.run_bind_eq_ok.mp ran
      cases same
      obtain ⟨site, sequel, within, rfl, reached⟩ := exists_site_of_runNodes body middle after ran
      exact ⟨[], conditions, rest, before, middle, site, sequel, within, rfl, rfl, tested, reached⟩
    | false =>
      obtain ⟨tried, test, left, asking, inside, site, sequel, within, rfl, failed, taken, reached⟩ :=
        exists_site_of_runArms rest middle after ran
      refine ⟨.arm conditions body :: tried, test, left, asking, inside, site, sequel, within, rfl, ?_, taken, reached⟩
      rw [runArms]
      exact Eval.run_bind_eq_ok.mpr ⟨false, middle, tested, failed⟩

end

namespace Engine

/-- A script in which a return is reached ends by it, and this is reported once. -/
theorem evaluate_of_reached (engine : Engine) (subject : Subject) {script : Script} {locals : Locals}
    (fresh : Locals.fresh script.localCount = .ok locals) {site : Site} {final : Invocation}
    (reached : site.Reached (engine.outset subject locals) final) (sequel : Sequel) (within : List Sequel) :
    engine.evaluate subject (some { script with nodes := site.block sequel within }) =
      engine.conclude (.ok false) final := by
  let ended : Script := { script with nodes := site.block sequel within }
  have started : Locals.fresh ended.localCount = .ok locals := fresh
  rw [evaluate, engine.runScript_eq subject started, reached.run_block sequel within]

/-- A block that has returned cuts off what follows it, and otherwise what follows goes on where it has ended. A
block answers false exactly if it comes to a return, at any depth, and then nothing that follows this return, in its
own block or around it, makes a difference. A script that comes to one ends without a fault and reports it once. -/
theorem return_cuts (before : Invocation) (first second : List Node) :
    (∀ after, (runNodes first).run.run before = (.ok false, after) →
      (runNodes (first ++ second)).run.run before = (.ok false, after)) ∧
    (∀ after, (runNodes first).run.run before = (.ok true, after) →
      (runNodes (first ++ second)).run.run before = (runNodes second).run.run after) ∧
    (∀ after, (runNodes first).run.run before = (.ok false, after) ↔
      ∃ (site : Site) (sequel : Sequel) (within : List Sequel),
        first = site.block sequel within ∧ site.Reached before after) ∧
    (∀ (site : Site) after, site.Reached before after → ∀ sequel within,
      (runNodes (site.block sequel within)).run.run before = (.ok false, after)) ∧
    ∀ (engine : Engine) (subject : Subject) (script : Script) (locals : Locals) (site : Site) (final : Invocation),
      Locals.fresh script.localCount = .ok locals → site.Reached (engine.outset subject locals) final →
      ∀ sequel within,
        let evaluated := engine.evaluate subject (some { script with nodes := site.block sequel within })
        evaluated.engine.network = final.scene.network ∧ evaluated.subject = final.scene.subject ∧
          evaluated.fault = none ∧ evaluated.events = [.returned final.scene.kind final.scene.state] := by
  refine ⟨fun after ran => run_append_of_returned ran second, fun after ran => run_append_of_continued ran,
    fun after => ⟨exists_site_of_runNodes first before after, ?_⟩, fun site after reached => reached.run_block, ?_⟩
  · rintro ⟨site, sequel, within, rfl, reached⟩
    exact reached.run_block sequel within
  · intro engine subject script locals site final fresh reached sequel within
    rw [engine.evaluate_of_reached subject fresh reached sequel within]
    exact ⟨rfl, rfl, rfl, rfl⟩

end Engine

end Lineside
