import Lineside.Proofs.HeadFrame

/-! What the engine counts. Every head that is visited is evaluated once, with a script or without, and what is
reported of it is what is counted of it. No evaluation and no move of the train takes a head away. -/

namespace Lineside

namespace EngineEvent

def isFallback : EngineEvent → Bool
  | .fallback _ _ => true
  | .returned _ _ => false

def isReturned : EngineEvent → Bool
  | .fallback _ _ => false
  | .returned _ _ => true

end EngineEvent

/-- How counters grow over a number of ticks and evaluations, of which some events were reported. -/
structure Counters.Tallied (ticks evaluations : Nat) (events : List EngineEvent) (before after : Counters) : Prop where
  ticks : after.ticks = before.ticks + ticks
  fallbacks : after.fallbacks = before.fallbacks + events.countP (·.isFallback)
  returns : after.returns = before.returns + events.countP (·.isReturned)
  scripts : before.scripts + events.countP (·.isReturned) ≤ after.scripts
  evaluations : after.evaluations = before.evaluations + evaluations

namespace Counters.Tallied

variable {first second third : Counters}

theorem refl (counters : Counters) : Tallied 0 0 [] counters counters := ⟨rfl, rfl, rfl, Nat.le_refl _, rfl⟩

theorem trans {ticks moreTicks evaluations moreEvaluations : Nat} {events moreEvents : List EngineEvent}
    (one : Tallied ticks evaluations events first second)
    (two : Tallied moreTicks moreEvaluations moreEvents second third) :
    Tallied (ticks + moreTicks) (evaluations + moreEvaluations) (events ++ moreEvents) first third where
  ticks := by rw [two.ticks, one.ticks, Nat.add_assoc]
  fallbacks := by rw [two.fallbacks, one.fallbacks, List.countP_append, Nat.add_assoc]
  returns := by rw [two.returns, one.returns, List.countP_append, Nat.add_assoc]
  scripts := by
    have early := one.scripts
    have late := two.scripts
    rw [List.countP_append]
    omega
  evaluations := by rw [two.evaluations, one.evaluations, Nat.add_assoc]

theorem tick (counters : Counters) : Tallied 1 0 [] counters { counters with ticks := counters.ticks + 1 } :=
  ⟨rfl, rfl, rfl, Nat.le_refl _, rfl⟩

theorem fallback (counters : Counters) (kind : Name) (state : Aspect) :
    Tallied 0 1 [.fallback kind state] counters { counters with fallbacks := counters.fallbacks + 1 } :=
  ⟨rfl, rfl, rfl, Nat.le_refl _, rfl⟩

theorem script (counters : Counters) : Tallied 0 1 [] counters { counters with scripts := counters.scripts + 1 } :=
  ⟨rfl, rfl, rfl, Nat.le_succ _, Nat.add_right_comm _ _ _⟩

theorem returned (counters : Counters) (kind : Name) (state : Aspect) :
    Tallied 0 1 [.returned kind state] counters
      { counters with scripts := counters.scripts + 1, returns := counters.returns + 1 } :=
  ⟨rfl, rfl, rfl, Nat.le_refl _, Nat.add_right_comm _ _ _⟩

end Counters.Tallied

namespace Network

/-- The places of heads depend on how many heads a signal has. -/
theorem heads_modifySignal (network : Network) (address : Address) {change : Signal → Signal}
    (count : ∀ signal, (change signal).heads.length = signal.heads.length) :
    (network.modifySignal address change).heads = network.heads := by
  have order : (network.modifySignal address change).order = network.order := rfl
  rw [heads, heads, order]
  congr 1
  funext other
  rw [signalAt_modifySignal]
  cases network.signalAt other with
  | none => rfl
  | some signal => by_cases here : address = other <;> simp [here, count]

theorem heads_modifyHead (network : Network) (ref : HeadRef) (change : Head → Head) :
    (network.modifyHead ref change).heads = network.heads := by
  apply heads_modifySignal
  intro signal
  exact List.length_modify _ _ _

section Moved

variable {α : Type} (view : Network → α) (trainless : ∀ (network : Network) train, view { network with train } = view network)
  (blockless : ∀ (network : Network) address (change : Signal → Signal),
    (∀ signal, (change signal).heads = signal.heads) → view (network.modifySignal address change) = view network)

section Blocks

include blockless

theorem view_releaseBlocks (network : Network) : view network.releaseBlocks = view network := by
  unfold releaseBlocks
  generalize network.order = addresses
  induction addresses generalizing network with
  | nil => rfl
  | cons first rest ih =>
    rw [List.foldl_cons, ih]
    apply blockless
    intro signal
    unfold Signal.released
    split <;> rfl

theorem view_occupy (network : Network) (address : Address) : view (network.occupy address) = view network := by
  rw [occupy, blockless, view_releaseBlocks view blockless]
  intro signal
  rfl

end Blocks

include trainless blockless

theorem view_pass (network : Network) (passes : Nat) : view (network.pass passes).network = view network := by
  induction passes generalizing network with
  | zero => rfl
  | succ passes ih =>
    rw [pass]
    split
    next => rfl
    next train standing =>
      split
      next =>
        split
        next => exact view_releaseBlocks view blockless network
        next address passed here =>
          have occupied := view_occupy view blockless network address
          dsimp only
          split
          next => exact (trainless _ _).trans occupied
          next => exact ((ih _).trans (trainless _ _)).trans occupied
      next => rfl

/-- A move of the train changes nothing that heads decide on. -/
theorem view_advance (network : Network) (seconds : Float32) : view (network.advance seconds).network = view network := by
  unfold advance
  split
  next => rfl
  next => exact (view_pass view trainless blockless _ _).trans (trainless _ _)

end Moved

theorem heads_advance (network : Network) (seconds : Float32) :
    (network.advance seconds).network.heads = network.heads := by
  apply view_advance Network.heads
  · intro network train
    rfl
  · intro network address change heads
    apply network.heads_modifySignal
    intro signal
    rw [heads]

end Network

theorem Scene.Driven.heads {deeds : List Deed} {before after : Scene} (driven : Scene.Driven deeds before after) :
    after.network.heads = before.network.heads := by
  cases driven with
  | @mounted network ref change driven => exact network.heads_modifyHead ref change
  | loose => rfl
  | foreign => rfl

namespace Engine

theorem evaluate_tallied (engine : Engine) (subject : Subject) (script : Option Script)
    (done : (engine.evaluate subject script).fault = none) :
    Counters.Tallied 0 1 (engine.evaluate subject script).events engine.counters
      (engine.evaluate subject script).engine.counters := by
  cases script with
  | none => exact .fallback _ _ _
  | some script =>
    rw [evaluate] at done ⊢
    cases fresh : Locals.fresh script.localCount with
    | error fault =>
      rw [runScript, fresh] at done
      cases done
    | ok locals =>
      rw [engine.runScript_eq subject fresh] at done ⊢
      generalize (runNodes script.nodes).run.run (engine.outset subject locals) = ran at done ⊢
      obtain ⟨outcome, final⟩ := ran
      rcases outcome with fault | _ | _
      · cases done
      · exact .returned _ _ _
      · exact .script _

/-- A visit looks a script up and evaluates it, with whatever the store has become by that. -/
theorem visit_eq (engine : Engine) (moment : Moment) (subject : Subject) : ∃ store log,
    engine.visit moment subject =
      { evaluate { engine with store } subject (engine.lookup moment (Scene.kind ⟨engine.network, subject⟩)).1 with
        log } ∧
      (engine.lookup moment (Scene.kind ⟨engine.network, subject⟩)).2.1 = { engine with store } := by
  obtain ⟨store, changed⟩ := engine.lookup_engine moment (Scene.kind { network := engine.network, subject })
  exact ⟨store, _, by simp only [visit, changed]; rfl, changed⟩

theorem visit_tallied (engine : Engine) (moment : Moment) (subject : Subject)
    (done : (engine.visit moment subject).fault = none) :
    Counters.Tallied 0 1 (engine.visit moment subject).events engine.counters
      (engine.visit moment subject).engine.counters := by
  obtain ⟨store, log, visited, _⟩ := engine.visit_eq moment subject
  rw [visited] at done ⊢
  exact evaluate_tallied { engine with store } subject _ done

theorem updateAll_tallied (turns : List Turn) (engine : Engine) (done : (updateAll turns engine).fault = none) :
    Counters.Tallied 1 turns.length (updateAll turns engine).events engine.counters
      (updateAll turns engine).engine.counters := by
  induction turns generalizing engine with
  | nil => exact .tick _
  | cons turn rest ih =>
    rw [updateAll] at done ⊢
    cases failed : (engine.visit turn.moment turn.subject).fault with
    | some fault => simp [failed] at done
    | none =>
      simp only [failed] at done ⊢
      have first := engine.visit_tallied turn.moment turn.subject failed
      have rest := ih _ done
      simpa [Nat.add_comm] using first.trans rest

theorem updateAll_heads (turns : List Turn) (engine : Engine) :
    (updateAll turns engine).engine.network.heads = engine.network.heads := by
  induction turns generalizing engine with
  | nil => rfl
  | cons turn rest ih =>
    have first := (engine.visit_driven turn.moment turn.subject).heads
    rw [updateAll]
    split
    · exact first
    · exact (ih _).trans first

theorem updateAt_tallied (engine : Engine) (moments : Nat → Moment) (done : (engine.updateAt moments).fault = none) :
    Counters.Tallied 1 engine.network.heads.length (engine.updateAt moments).events engine.counters
      (engine.updateAt moments).engine.counters := by
  have tallied := updateAll_tallied _ engine done
  rwa [List.length_mapIdx] at tallied

end Engine

end Lineside
