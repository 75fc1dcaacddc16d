import Lineside.Proofs.ScriptSteps

/-! Conditions are read from left to right, with no precedence, and none of them is left out. A condition list
that spells a boolean expression gives its value; and whatever a list looks like, it does to the scene what its
conditions do one after the other. -/

namespace Lineside

/-! Boolean expressions. -/

/-- How an operand is joined to those before it. -/
inductive Joint where
  | and
  | or

def Joint.apply : Joint → Bool → Bool → Bool
  | .and, sofar, value => sofar && value
  | .or, sofar, value => sofar || value

def Joint.marker : Joint → Combinator
  | .and => .and
  | .or => .or

mutual

/-- An operand without its sign. -/
inductive Factor (α : Type) where
  | atom (atom : α)
  | group (inner : Chain α)

/-- Operands joined from left to right. -/
inductive Chain (α : Type) where
  | first (negated : Bool) (factor : Factor α)
  | next (earlier : Chain α) (joint : Joint) (negated : Bool) (factor : Factor α)

end

def opposite (negated value : Bool) : Bool := if negated then !value else value

mutual

def Factor.truth : Factor Bool → Bool
  | .atom value => value
  | .group inner => inner.truth

def Chain.truth : Chain Bool → Bool
  | .first negated factor => opposite negated factor.truth
  | .next earlier joint negated factor => joint.apply earlier.truth (opposite negated factor.truth)

end

variable {α β γ : Type}

mutual

/-- Finds out what holds of the atoms, in the order in which they are written. -/
def Factor.ask (visit : α → Eval β) : Factor α → Eval (Factor β)
  | .atom atom => .atom <$> visit atom
  | .group inner => .group <$> inner.ask visit

def Chain.ask (visit : α → Eval β) : Chain α → Eval (Chain β)
  | .first negated factor => .first negated <$> factor.ask visit
  | .next earlier joint negated factor => do
    let earlier ← earlier.ask visit
    let factor ← factor.ask visit
    return .next earlier joint negated factor

end

def negationMark (negated : Bool) : List Element := if negated then [.negation] else []

mutual

def Factor.Spells : Factor Condition → Element → Prop
  | .atom condition, element => element = .condition condition
  | .group inner, element => ∃ elements, inner.Spells elements ∧ element = .group elements

/-- A condition list that spells an expression. Where an operand is both joined and negated, its two markers may
come in either order. -/
def Chain.Spells : Chain Condition → List Element → Prop
  | .first negated factor, elements => ∃ element, factor.Spells element ∧ elements = negationMark negated ++ [element]
  | .next earlier joint negated factor, elements => ∃ front markers element, earlier.Spells front ∧
      (markers = .combinator joint.marker :: negationMark negated ∨
        markers = negationMark negated ++ [.combinator joint.marker]) ∧
      factor.Spells element ∧ elements = front ++ markers ++ [element]

end

theorem opposite_eq (negated value : Bool) : opposite negated value = (value != negated) := by
  cases negated <;> cases value <;> rfl

theorem Joint.apply_marker (joint : Joint) (sofar value : Bool) :
    joint.marker.apply sofar value = joint.apply sofar value := by
  cases joint <;> rfl

theorem evalElements_negationMark (negated : Bool) (rest : List Element) (sofar : Bool) (marker : Combinator) :
    evalElements (negationMark negated ++ rest) sofar marker false = evalElements rest sofar marker negated := by
  cases negated with
  | false => rfl
  | true => simp [negationMark, evalElements]

theorem evalElements_markers {negated : Bool} {marker : Combinator} {markers : List Element}
    (spelled : markers = .combinator marker :: negationMark negated ∨
      markers = negationMark negated ++ [.combinator marker])
    (rest : List Element) (sofar : Bool) :
    evalElements (markers ++ rest) sofar .none false = evalElements rest sofar marker negated := by
  obtain rfl | rfl := spelled
  · rw [List.cons_append, evalElements, evalElements_negationMark]
  · rw [List.append_assoc, evalElements_negationMark, List.cons_append, evalElements, List.nil_append]

mutual

theorem Factor.Spells.eval {factor : Factor Condition} {element : Element} (spells : factor.Spells element)
    (rest : List Element) (sofar : Bool) (marker : Combinator) (negated : Bool) :
    evalElements (element :: rest) sofar marker negated = (do
      let factor ← factor.ask Condition.eval
      evalElements rest (marker.apply sofar (opposite negated factor.truth)) .none false) := by
  cases factor with
  | atom condition =>
    rw [Factor.Spells] at spells
    subst spells
    simp only [evalElements, Factor.ask, bind_map_left, Factor.truth, opposite_eq]
  | group inner =>
    rw [Factor.Spells] at spells
    obtain ⟨elements, spells, rfl⟩ := spells
    have value := spells.eval [] true
    rw [List.append_nil] at value
    simp only [evalElements, value, Factor.ask, bind_map_left, bind_assoc, pure_bind, Factor.truth, opposite_eq]

theorem Chain.Spells.eval {chain : Chain Condition} {elements : List Element} (spells : chain.Spells elements)
    (rest : List Element) (sofar : Bool) :
    evalElements (elements ++ rest) sofar .none false = (do
      let chain ← chain.ask Condition.eval
      evalElements rest chain.truth .none false) := by
  cases chain with
  | first negated factor =>
    rw [Chain.Spells] at spells
    obtain ⟨element, spells, rfl⟩ := spells
    rw [List.append_assoc, evalElements_negationMark, List.cons_append, spells.eval]
    simp only [List.nil_append, Chain.ask, bind_map_left, Chain.truth, Combinator.apply]
  | next earlier joint negated factor =>
    rw [Chain.Spells] at spells
    obtain ⟨front, markers, element, before, marked, spells, rfl⟩ := spells
    rw [List.append_assoc, List.append_assoc, before.eval]
    simp only [evalElements_markers marked, List.cons_append, List.nil_append, spells.eval, Chain.ask, bind_assoc,
      pure_bind, Chain.truth, Joint.apply_marker]

end

/-! What evaluating conditions does. -/

namespace Invocation

/-- What was really done, the latest first. -/
def acts (now : Invocation) : List Deed := now.deeds.filter (· ≠ .passOver)

/-- Two invocations that differ at most in how often something missing was passed over. -/
structure Alike (one two : Invocation) : Prop where
  scene : one.scene = two.scene
  locals : one.locals = two.locals
  debug : one.debug = two.debug
  log : one.log = two.log
  acts : one.acts = two.acts

theorem Alike.refl (now : Invocation) : now.Alike now := ⟨rfl, rfl, rfl, rfl, rfl⟩

theorem Alike.eq {one two : Invocation} (alike : one.Alike two) : two = { one with deeds := two.deeds } := by
  cases two
  simp only [alike.scene, alike.locals, alike.debug, alike.log]

end Invocation

/-- No function looks at what was done before it. -/
theorem Builtin.call_deeds (function : Builtin) (p1 p2 : Int64) (before : Invocation) (deeds : List Deed) :
    (function.call p1 p2).run.run { before with deeds } =
      ((function.call p1 p2).run.run before).map id fun after => { after with deeds } := by
  obtain ⟨scene, locals, debug, log, earlier⟩ := before
  cases function
  case debugHeader => cases debug <;> rfl
  case debugOut => cases debug <;> rfl
  all_goals rfl

theorem Step.run_deeds (step : Step) (before : Invocation) (deeds : List Deed) :
    step.run.run.run { before with deeds } =
      (step.run.run.run before).map id fun after => { after with deeds := step.deeds ++ deeds } := by
  cases step with
  | stop fault => rfl
  | passOver => rfl
  | readLocal index => rfl
  | readSlot slot =>
    cases slot with
    | known slot =>
      let recorded (deeds : List Deed) : Invocation := { before with deeds := .readSlot (.known slot) :: deeds }
      calc (Eval.liftFault (before.scene.slotValue slot)).run.run (recorded deeds)
        _ = (before.scene.slotValue slot, recorded deeds) := Eval.run_liftFault _ _
        _ = ((Eval.liftFault (before.scene.slotValue slot)).run.run (recorded before.deeds)).map id fun after =>
            { after with deeds := .readSlot (.known slot) :: deeds } := by
          rw [Eval.run_liftFault]
          rfl
    | unknown code => rfl
  | call callee given p1 p2 =>
    cases callee with
    | builtin function =>
      let recorded : Invocation := { before with deeds := .call (.builtin function) given p1 p2 :: before.deeds }
      exact function.call_deeds p1 p2 recorded (.call (.builtin function) given p1 p2 :: deeds)
    | none | returning | unknown => rfl
  | setLocal index value => rfl
  | setSlot slot value =>
    rcases slot with slot | code
    · cases slot <;> rfl
    · rfl

namespace Eval

/-- Answers that need not be related. -/
def Anyhow (_ : α) (_ : β) : Prop := True

/-- Two runs that end alike, by the same fault or with answers that agree. -/
inductive Ends (agree : α → β → Prop) : Except Fault α × Invocation → Except Fault β × Invocation → Prop where
  | answer {answer : α} {reply : β} {one two : Invocation} (agrees : agree answer reply) (alike : one.Alike two) :
      Ends agree (.ok answer, one) (.ok reply, two)
  | fault {fault : Fault} {one two : Invocation} (alike : one.Alike two) :
      Ends agree (.error fault, one) (.error fault, two)

/-- Two programs that do the same to alike invocations. -/
def Matches (agree : α → β → Prop) (program : Eval α) (other : Eval β) : Prop :=
  ∀ one two, one.Alike two → Ends agree (program.run.run one) (other.run.run two)

namespace Matches

variable {agree : α → β → Prop} {program : Eval α} {other : Eval β}

theorem pure {answer : α} {reply : β} (agrees : agree answer reply) :
    Matches agree (Pure.pure answer) (Pure.pure reply) :=
  fun _ _ alike => .answer agrees alike

theorem bind {δ : Type} {concur : γ → δ → Prop} {next : α → Eval γ} {following : β → Eval δ}
    (first : Matches agree program other)
    (rest : ∀ answer reply, agree answer reply → Matches concur (next answer) (following reply)) :
    Matches concur (program >>= next) (other >>= following) := by
  intro one two alike
  have ended := first one two alike
  rw [run_bind, run_bind]
  generalize program.run.run one = ran at ended ⊢
  generalize other.run.run two = went at ended ⊢
  cases ended with
  | answer agrees alike => exact rest _ _ agrees _ _ alike
  | fault alike => exact .fault alike

theorem answering (matched : Matches agree program other) (f : β → γ) :
    Matches Anyhow program (other >>= fun reply => Pure.pure (f reply)) := by
  have ended : Matches Anyhow (program >>= Pure.pure) (other >>= fun reply => Pure.pure (f reply)) :=
    matched.bind fun _ _ _ => .pure trivial
  rwa [bind_pure] at ended

/-- Passing over something that is missing leaves no trace. -/
theorem passOver (matched : Matches agree program other) :
    Matches agree (do record .passOver; program) other := by
  intro one two alike
  have passed : ({ one with deeds := .passOver :: one.deeds } : Invocation).Alike two :=
    ⟨alike.scene, alike.locals, alike.debug, alike.log, alike.acts⟩
  exact matched _ two passed

end Matches

theorem matches_sequential : Sequential fun _ program => Matches Eq program program where
  pure _ := .pure rfl
  bind first rest := first.bind fun answer _ same => same ▸ rest answer

end Eval

theorem Step.run_matches (step : Step) : Eval.Matches Eq step.run step.run := by
  intro one two alike
  obtain ⟨outcome, scene, locals, log, ran, _⟩ := step.run_cases one
  have same := step.run_deeds one two.deeds
  rw [← alike.eq, ran] at same
  rw [same, ran]
  have left : ({ one with scene, locals, log, deeds := step.deeds ++ one.deeds } : Invocation).Alike
      { one with scene, locals, log, deeds := step.deeds ++ two.deeds } := by
    refine ⟨rfl, rfl, rfl, rfl, ?_⟩
    have earlier := alike.acts
    simp only [Invocation.acts] at earlier
    simp only [Invocation.acts, List.filter_append, earlier]
  cases outcome with
  | error fault => exact .fault left
  | ok answer => exact .answer rfl left

/-- The conditions of a list at all depths, in the order of the text. -/
def conditionsOf : List Element → List Condition
  | [] => []
  | .absent :: rest | .combinator _ :: rest | .negation :: rest => conditionsOf rest
  | .condition condition :: rest => condition :: conditionsOf rest
  | .group elements :: rest => conditionsOf elements ++ conditionsOf rest

namespace Condition

/-- The terms that a condition evaluates. Without a first term there are none. -/
def evaluated (condition : Condition) : List Term :=
  match condition.first with
  | none => []
  | some first => first :: condition.second.toList

end Condition

def evalAlone (term : Term) : Eval Int64 := evalTerms [some term] term.sublevel

theorem evalAlone_matches (term : Term) : Eval.Matches Eq (evalAlone term) (evalAlone term) :=
  Eval.matches_sequential.evalTerms_holds (fun step _ => step.run_matches) term.sublevel

theorem Condition.eval_matches (condition : Condition) :
    Eval.Matches Eval.Anyhow condition.eval ([condition].mapM Condition.eval) := by
  have itself : Eval.Matches Eq condition.eval condition.eval :=
    Eval.matches_sequential.conditionEval_holds fun step _ => step.run_matches
  rw [List.mapM_cons]
  simp only [List.mapM_nil, pure_bind]
  exact itself.answering _

theorem Condition.eval_matches_evaluated (condition : Condition) :
    Eval.Matches Eval.Anyhow condition.eval (condition.evaluated.mapM evalAlone) := by
  unfold Condition.eval Condition.evaluated
  cases condition.first with
  | none => exact .passOver (.pure trivial)
  | some first =>
    rw [List.mapM_cons]
    apply (evalAlone_matches first).bind
    intro value _ _
    cases condition.second with
    | none => exact .pure trivial
    | some second =>
      simp only [Option.toList_some, List.mapM_cons, List.mapM_nil, pure_bind, bind_assoc]
      apply (evalAlone_matches second).bind
      intro _ _ _
      exact .pure trivial

theorem evalElements_matches {work : Condition → List α} {each : α → Eval β}
    (condition : ∀ condition : Condition, Eval.Matches Eval.Anyhow condition.eval ((work condition).mapM each)) :
    (elements : List Element) → (sofar : Bool) → (marker : Combinator) → (negated : Bool) →
      Eval.Matches Eval.Anyhow (evalElements elements sofar marker negated)
        (((conditionsOf elements).flatMap work).mapM each)
  | [], sofar, _, _ => by
    rw [evalElements, conditionsOf]
    exact .pure trivial
  | .absent :: rest, sofar, marker, negated => by
    rw [evalElements, conditionsOf]
    exact (evalElements_matches condition rest sofar marker negated).passOver
  | .combinator next :: rest, sofar, _, negated => by
    rw [evalElements, conditionsOf]
    exact evalElements_matches condition rest sofar next negated
  | .negation :: rest, sofar, marker, _ => by
    rw [evalElements, conditionsOf]
    exact evalElements_matches condition rest sofar marker true
  | .condition test :: rest, sofar, marker, negated => by
    rw [evalElements, conditionsOf, List.flatMap_cons, List.mapM_append]
    apply (condition test).bind
    intro value _ _
    exact (evalElements_matches condition rest _ .none false).answering _
  | .group elements :: rest, sofar, marker, negated => by
    rw [evalElements, conditionsOf, List.flatMap_append, List.mapM_append]
    apply (evalElements_matches condition elements true .none false).bind
    intro value _ _
    exact (evalElements_matches condition rest _ .none false).answering _

namespace Eval

/-- What a run that ends without a fault says about a program that matches. -/
theorem Matches.run_ok {agree : α → β → Prop} {program : Eval α} {other : Eval β} (matched : Matches agree program other)
    {before after : Invocation} {answer : α} (ran : program.run.run before = (.ok answer, after)) :
    ∃ reply final, other.run.run before = (.ok reply, final) ∧ after.Alike final := by
  have ended := matched before before (.refl before)
  rw [ran] at ended
  generalize other.run.run before = went at ended ⊢
  cases ended with
  | answer _ alike => exact ⟨_, _, rfl, alike⟩

end Eval

/-- A list that spells an expression gives the value of the expression, read from left to right without precedence,
where every atom has the value that it has in its turn. A list of any shape that can be evaluated leaves behind what
its conditions do, evaluated one after the other, all of them and each of them once; and so does evaluating the terms
of these conditions in their order. A condition without first term evaluates nothing, and is false. -/
theorem evalConditions_reads :
    (∀ (chain : Chain Condition) elements, chain.Spells elements → ∀ before,
      (evalConditions elements).run.run before = (Chain.truth <$> chain.ask Condition.eval).run.run before) ∧
    (∀ elements before value after, (evalConditions elements).run.run before = (.ok value, after) →
      (∃ verdicts final, ((conditionsOf elements).mapM Condition.eval).run.run before = (.ok verdicts, final) ∧
        after.Alike final) ∧
      ∃ values final, (((conditionsOf elements).flatMap Condition.evaluated).mapM evalAlone).run.run before =
        (.ok values, final) ∧ after.Alike final) ∧
    ∀ condition : Condition, condition.first = none → condition.evaluated = [] ∧ ∀ before,
      condition.eval.run.run before = (.ok false, { before with deeds := .passOver :: before.deeds }) := by
  refine ⟨?_, ?_, ?_⟩
  · intro chain elements spells before
    have value := spells.eval [] true
    rw [List.append_nil] at value
    simp only [evalConditions, value, evalElements, map_eq_pure_bind]
  · intro elements before value after ran
    constructor
    · have each := evalElements_matches Condition.eval_matches elements true .none false
      rw [List.flatMap_singleton'] at each
      exact each.run_ok ran
    · exact (evalElements_matches Condition.eval_matches_evaluated elements true .none false).run_ok ran
  · intro condition missing
    constructor
    · simp [Condition.evaluated, missing]
    · intro before
      unfold Condition.eval
      rw [missing]
      rfl

private def nearing : Condition where
  first := some { function := .builtin .approachControlPosition, params := [some { operand := .constant 80 }] }

private def routed : Condition where
  first := some { function := .builtin .routeSet }

/-- `NEARING OR NOT (ROUTED AND NOT NEARING) AND ROUTED`, in which asking whether the train is near has an effect. -/
private def releasing : Chain Condition :=
  .next (.next (.first false (.atom nearing)) .or true
    (.group (.next (.first false (.atom routed)) .and true (.atom nearing)))) .and false (.atom routed)

private def releasingList : List Element :=
  [.condition nearing, .negation, .combinator .or,
    .group [.condition routed, .combinator .and, .negation, .condition nearing], .combinator .and, .condition routed]

/-- Markers that join or negate nothing, a gap, and a condition without terms. -/
private def garbled : List Element :=
  [.absent, .combinator .and, .negation, .condition { first := none }, .negation, .group [.combinator .or]]

theorem evalConditions_reads_releasing :
    releasing.Spells releasingList ∧
      (∀ before, (evalConditions releasingList).run.run before =
        (Chain.truth <$> releasing.ask Condition.eval).run.run before) ∧
      ∀ before, ∃ after, (evalConditions garbled).run.run before = (.ok false, after) ∧
        ∃ values final, (((conditionsOf garbled).flatMap Condition.evaluated).mapM evalAlone).run.run before =
          (.ok values, final) ∧ after.Alike final := by
  have spells : releasing.Spells releasingList := by
    simp only [releasing, Chain.Spells, Factor.Spells]
    refine ⟨[.condition nearing, .negation, .combinator .or, .group _], [.combinator .and], .condition routed,
      ⟨[.condition nearing], [.negation, .combinator .or], _, ⟨_, rfl, rfl⟩, .inr rfl, ⟨_, ?_, rfl⟩, rfl⟩, .inl rfl, rfl,
      rfl⟩
    exact ⟨[.condition routed], [.combinator .and, .negation], .condition nearing, ⟨_, rfl, rfl⟩, .inl rfl, rfl, rfl⟩
  refine ⟨spells, evalConditions_reads.1 releasing releasingList spells, ?_⟩
  intro before
  have ran : (evalConditions garbled).run.run before =
      (.ok false, { before with deeds := .passOver :: .passOver :: before.deeds }) := by
    simp only [evalConditions, garbled, evalElements, Condition.eval]
    rfl
  exact ⟨_, ran, (evalConditions_reads.2.1 garbled before false _ ran).2⟩

end Lineside
