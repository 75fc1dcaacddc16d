import Lineside.Proofs.EngineTally
import Lineside.Proofs.FiledStore
import Lineside.Proofs.NetworkCoherence
import Lineside.Simulation

/-! Runs of a simulation. A run is made of whole rounds, and two runs one after the other come to the same as one
run over all their rounds: the clock, by which the cache decides what to keep, makes no difference to what is
looked up. What is counted over a run is what was done and reported in its rounds. -/

namespace Lineside

namespace Store

variable {backing : Backing} {store one two : Store}

/-- Two stores that cannot be told apart by asking, whatever the clock says. -/
structure AnswersAlike (one two : Store) : Prop where
  get : ∀ moment later kind, (one.get moment kind).1 = (two.get later kind).1
  lookup : ∀ moment later kind, (one.lookup moment kind).1 = (two.lookup later kind).1
  notices : ∀ moment later kind, (one.lookup moment kind).2.2 = (two.lookup later kind).2.2
  kinds : one.kinds = two.kinds

theorem lookup_notices (store : Store) (moment : Moment) (kind : Name) :
    (store.lookup moment kind).2.2 = match (store.get moment kind).1 with
      | .ok _ => []
      | .error error =>
        match error.cause with
        | .scriptNotFound _ => []
        | _ => [.unusable kind error] := by
  unfold lookup
  split
  next found => rw [found]
  next failed =>
    rw [failed]
    dsimp only
    split <;> simp [*]

namespace Steady

theorem holding (steady : store.Steady backing) (kind : Name) (blob : ByteArray) :
    (store.holding kind blob).Steady (store.holding kind blob).backing := by
  refine ⟨rfl, fun entry member => ?_⟩
  obtain ⟨kept, apart⟩ := Cache.mem_invalidate.mp member
  rw [fetch_holding_other apart]
  exact steady.cached entry kept

theorem put (steady : store.Steady backing) {script : Script} {changed : Store} {notice : Notice}
    (done : store.put (some script) = (.ok notice, changed)) : changed.Steady changed.backing := by
  obtain ⟨_, _, blob, _, rfl⟩ := put_some_eq_ok done
  exact steady.holding script.name blob

theorem putting (steady : store.Steady store.backing) (scripts : List Script) :
    (store.putting scripts).Steady (store.putting scripts).backing := by
  induction scripts generalizing store with
  | nil => exact steady
  | cons script scripts ih =>
    rw [Store.putting, List.foldl_cons]
    apply ih
    rw [after]
    rcases done : store.put (some script) with ⟨error | notice, changed⟩
    · rw [put_eq_error done]
      exact steady
    · exact steady.put done

theorem answersAlike (first : one.Steady backing) (second : two.Steady backing) : one.AnswersAlike two := by
  have backed : one.backing = two.backing := first.backed.trans second.backed.symm
  have answers : ∀ moment later kind, (one.get moment kind).1 = (two.get later kind).1 := by
    intro moment later kind
    rw [first.get_fst, second.get_fst, fetch_of_backing backed]
  refine ⟨answers, ?_, ?_, by rw [kinds, kinds, backed]⟩
  · intro moment later kind
    rw [lookup_answer, lookup_answer, answers moment later]
  · intro moment later kind
    rw [lookup_notices, lookup_notices, answers moment later]

end Steady

end Store

namespace Engine

variable {backing : Backing} {one two : Engine}

/-- Two engines that differ in what is cached only. -/
def Alike (backing : Backing) (one two : Engine) : Prop :=
  ∃ first second : Store, first.Steady backing ∧ second.Steady backing ∧
    one.store = some first ∧ two = { one with store := some second }

namespace Alike

theorem lookup (alike : one.Alike backing two) (moment later : Moment) (kind : Name) :
    (two.lookup later kind).1 = (one.lookup moment kind).1 ∧
      (one.lookup moment kind).2.1.Alike backing (two.lookup later kind).2.1 := by
  obtain ⟨first, second, steady, other, stored, rfl⟩ := alike
  rw [lookup_stored stored, lookup_stored rfl]
  refine ⟨(other.answersAlike steady).lookup later moment kind, _, _, ?_, ?_, rfl, rfl⟩
  · rw [Store.lookup_store]
    exact steady.get moment kind
  · rw [Store.lookup_store]
    exact other.get later kind

theorem evaluate (alike : one.Alike backing two) (subject : Subject) (script : Option Script) :
    ∃ engine, two.evaluate subject script = { one.evaluate subject script with engine } ∧
      (one.evaluate subject script).engine.Alike backing engine := by
  obtain ⟨first, second, steady, other, stored, rfl⟩ := alike
  refine ⟨_, one.evaluate_withStore (some second) subject script, first, second, steady, other, ?_, rfl⟩
  rw [evaluate_store, stored]

theorem visit (alike : one.Alike backing two) (moment later : Moment) (subject : Subject) :
    ∃ engine log, two.visit later subject = { one.visit moment subject with engine, log } ∧
      (one.visit moment subject).engine.Alike backing engine := by
  have network : two.network = one.network := by
    obtain ⟨_, _, _, _, _, rfl⟩ := alike
    rfl
  obtain ⟨found, changed⟩ := alike.lookup moment later (Scene.kind ⟨one.network, subject⟩)
  obtain ⟨engine, evaluated, after⟩ := changed.evaluate subject (one.lookup moment (Scene.kind ⟨one.network, subject⟩)).1
  simp only [Engine.visit, network, found, evaluated]
  exact ⟨engine, _, rfl, after⟩

theorem tick (alike : one.Alike backing two) : one.tick.Alike backing two.tick := by
  obtain ⟨first, second, steady, other, stored, rfl⟩ := alike
  exact ⟨first, second, steady, other, stored, rfl⟩

/-- Turns of the same heads, each at its own moment, come to the same. -/
theorem updateAll (alike : one.Alike backing two) {turns others : List Turn}
    (due : others.map (·.subject) = turns.map (·.subject)) :
    ∃ engine log, Engine.updateAll others two = { Engine.updateAll turns one with engine, log } ∧
      (Engine.updateAll turns one).engine.Alike backing engine := by
  induction turns generalizing one two others with
  | nil =>
    obtain rfl : others = [] := List.map_eq_nil_iff.mp due
    exact ⟨_, _, rfl, alike.tick⟩
  | cons turn turns ih =>
    cases others with
    | nil => cases due
    | cons other others =>
      obtain ⟨subject, later⟩ := other
      simp only [List.map_cons, List.cons.injEq] at due
      obtain ⟨rfl, due⟩ := due
      obtain ⟨engine, log, visited, after⟩ := alike.visit turn.moment later turn.subject
      rw [Engine.updateAll, Engine.updateAll, visited]
      cases (one.visit turn.moment turn.subject).fault with
      | some fault =>
        dsimp only
        rw [due]
        exact ⟨engine, _, rfl, after⟩
      | none =>
        obtain ⟨last, lines, rest, alike⟩ := ih after due
        simp only [rest]
        exact ⟨last, _, rfl, alike⟩

theorem updateAt (alike : one.Alike backing two) (moments later : Nat → Moment) :
    ∃ engine log, two.updateAt later = { one.updateAt moments with engine, log } ∧
      (one.updateAt moments).engine.Alike backing engine := by
  have network : two.network = one.network := by
    obtain ⟨_, _, _, _, _, rfl⟩ := alike
    rfl
  rw [Engine.updateAt, Engine.updateAt, network]
  apply alike.updateAll
  simp only [List.mapIdx_eq_zipIdx_map, List.map_map, Function.comp_def]

theorem advance (alike : one.Alike backing two) (seconds : Float32) :
    (two.advance seconds).2 = (one.advance seconds).2 ∧
      (one.advance seconds).1.Alike backing (two.advance seconds).1 := by
  obtain ⟨first, second, steady, other, stored, rfl⟩ := alike
  exact ⟨rfl, first, second, steady, other, stored, rfl⟩

end Alike

end Engine

/-- Nothing happens around a run but that time goes by. -/
structure Circumstances.Calm (circumstances : Circumstances) : Prop where
  going : ∀ tick, circumstances.cancelled tick = false
  writable : ∀ tick, circumstances.unwritable tick = false

/-- Of a number of rounds from a tick on, so many come before the first that is found cancelled at its start. -/
structure Circumstances.Admits (circumstances : Circumstances) (tick ticks count : Nat) : Prop where
  within : count ≤ ticks
  going : ∀ earlier < count, circumstances.cancelled (tick + earlier) = false
  stopped : count < ticks → circumstances.cancelled (tick + count) = true

namespace Circumstances

variable {circumstances : Circumstances} {tick ticks count : Nat}

theorem admits_succ (going : circumstances.cancelled tick = false) :
    circumstances.Admits tick (ticks + 1) (count + 1) ↔ circumstances.Admits (tick + 1) ticks count := by
  constructor
  · intro admits
    refine ⟨Nat.le_of_succ_le_succ admits.within, fun earlier before => ?_, fun before => ?_⟩
    · rw [Nat.add_right_comm]
      exact admits.going (earlier + 1) (Nat.succ_lt_succ before)
    · rw [Nat.add_right_comm]
      exact admits.stopped (Nat.succ_lt_succ before)
  · intro admits
    refine ⟨Nat.succ_le_succ admits.within, fun earlier before => ?_, fun before => ?_⟩
    · cases earlier with
      | zero => exact going
      | succ earlier =>
        have later := admits.going earlier (Nat.lt_of_succ_lt_succ before)
        rwa [Nat.add_right_comm] at later
    · have later := admits.stopped (Nat.lt_of_succ_lt_succ before)
      rwa [Nat.add_right_comm] at later

theorem exists_admits (circumstances : Circumstances) (tick ticks : Nat) :
    ∃ count, circumstances.Admits tick ticks count := by
  induction ticks generalizing tick with
  | zero => exact ⟨0, Nat.le_refl 0, fun _ => nofun, nofun⟩
  | succ ticks ih =>
    cases going : circumstances.cancelled tick with
    | true => exact ⟨0, Nat.zero_le _, fun _ => nofun, fun _ => going⟩
    | false =>
      obtain ⟨count, admits⟩ := ih (tick + 1)
      exact ⟨count + 1, (admits_succ going).mpr admits⟩

end Circumstances

namespace Simulation

variable {backing : Backing} {simulation one two : Simulation} {circumstances : Circumstances}

/-- A run that a fault has ended. -/
def Ran.Faulted (ran : Ran) : Prop := ∃ fault, ran.outcome = Outcome.fail (.incomplete fault)

/-- Two simulations that differ in what is cached only. -/
structure Alike (backing : Backing) (one two : Simulation) : Prop where
  engine : one.engine.Alike backing two.engine
  interval : two.interval = one.interval
  watched : two.watched = one.watched

/-- Two runs that differ in the numbers of their ticks, and in what is cached, only. -/
structure Ran.Alike (backing : Backing) (one two : Ran) : Prop where
  simulation : one.simulation.Alike backing two.simulation
  outcome : two.outcome = one.outcome
  events : two.events = one.events
  reports : two.reports.length = one.reports.length

theorem rounds_cancelled {count tick : Nat} (cancelled : circumstances.cancelled tick = true) :
    rounds circumstances (count + 1) tick simulation = { simulation, outcome := Outcome.fail .canceled } := by
  rw [rounds, if_pos cancelled]

theorem rounds_failed {count tick : Nat} (going : circumstances.cancelled tick = false) {error : Error}
    (failed : (simulation.round circumstances tick).outcome = .error error) :
    rounds circumstances (count + 1) tick simulation = simulation.round circumstances tick := by
  rw [rounds, going, if_neg Bool.false_ne_true]
  simp only [failed]
  rw [← failed]

theorem rounds_going {count tick : Nat} (going : circumstances.cancelled tick = false)
    (done : (simulation.round circumstances tick).outcome = .ok ()) :
    rounds circumstances (count + 1) tick simulation =
      let ran := simulation.round circumstances tick
      let rest := rounds circumstances count (tick + 1) ran.simulation
      { rest with reports := ran.reports ++ rest.reports, events := ran.events ++ rest.events } := by
  rw [rounds, going, if_neg Bool.false_ne_true]
  simp only [done]

theorem Alike.round (alike : one.Alike backing two) {other : Circumstances} (calm : circumstances.Calm)
    (still : other.Calm) (tick later : Nat) :
    (one.round circumstances tick).Alike backing (two.round other later) := by
  obtain ⟨engine, log, updated, after⟩ := alike.engine.updateAt (circumstances.moments tick) (other.moments later)
  have moved := after.advance one.interval.seconds.toFloat32
  simp only [Simulation.round, updated, alike.interval, calm.writable, still.writable, moved.1, Bool.false_eq_true,
    if_false]
  cases (one.engine.updateAt (circumstances.moments tick)).fault with
  | some fault => exact ⟨⟨after, rfl, alike.watched⟩, rfl, rfl, rfl⟩
  | none => exact ⟨⟨moved.2, rfl, alike.watched⟩, rfl, rfl, by simp only [List.length_singleton]⟩

theorem Alike.rounds (alike : one.Alike backing two) {other : Circumstances} (calm : circumstances.Calm)
    (still : other.Calm) (count tick later : Nat) :
    (Simulation.rounds circumstances count tick one).Alike backing (Simulation.rounds other count later two) := by
  induction count generalizing tick later one two with
  | zero => exact ⟨alike, rfl, rfl, rfl⟩
  | succ count ih =>
    have first := alike.round calm still tick later
    cases ended : (one.round circumstances tick).outcome with
    | error error =>
      rw [rounds_failed (calm.going tick) ended, rounds_failed (still.going later) (first.outcome.trans ended)]
      exact first
    | ok _ =>
      rw [rounds_going (calm.going tick) ended, rounds_going (still.going later) (first.outcome.trans ended)]
      have rest := ih first.simulation (tick + 1) (later + 1)
      exact ⟨rest.simulation, rest.outcome, by simp only [first.events, rest.events],
        by simp only [List.length_append, first.reports, rest.reports]⟩

/-- The rounds of a run can be cut anywhere. -/
theorem rounds_add (circumstances : Circumstances) (count more tick : Nat) (simulation : Simulation) :
    rounds circumstances (count + more) tick simulation =
      let ran := rounds circumstances count tick simulation
      match ran.outcome with
      | .error _ => ran
      | .ok () =>
        let rest := rounds circumstances more (tick + count) ran.simulation
        { rest with reports := ran.reports ++ rest.reports, events := ran.events ++ rest.events } := by
  induction count generalizing tick simulation with
  | zero => simp [rounds]
  | succ count ih =>
    rw [Nat.add_right_comm]
    cases going : circumstances.cancelled tick with
    | true => rw [rounds_cancelled going, rounds_cancelled going]; rfl
    | false =>
      cases ended : (simulation.round circumstances tick).outcome with
      | error error =>
        rw [rounds_failed going ended, rounds_failed going ended]
        simp only [ended]
      | ok _ =>
        rw [rounds_going going ended, rounds_going going ended]
        simp only [ih, Nat.add_assoc tick 1 count, Nat.add_comm 1 count]
        cases last :
          (rounds circumstances count (tick + 1) (simulation.round circumstances tick).simulation).outcome with
        | error error => simp only [last]
        | ok _ => simp only [List.append_assoc]

/-- The simulation once a tick is over and the train has moved. -/
def moved (simulation : Simulation) (updated : Engine.Updated) : Simulation :=
  { simulation with engine := (updated.engine.advance simulation.interval.seconds.toFloat32).1 }

/-- Complete rounds from a tick on: in each of them every head is evaluated without a fault, the aspects are
reported, and the train moves on. -/
inductive Passes (moments : Nat → Nat → Moment) : Nat → Nat → Simulation → Ran → Prop where
  | none {tick simulation} : Passes moments tick 0 simulation { simulation }
  | round {tick count simulation updated rest} (evaluated : simulation.engine.updateAt (moments tick) = updated)
      (done : updated.fault = none) (later : Passes moments (tick + 1) count (simulation.moved updated) rest) :
      Passes moments tick (count + 1) simulation
        { rest with
          reports := report updated.engine.network tick :: rest.reports
          events := updated.events ++ rest.events }

theorem Passes.reports {moments : Nat → Nat → Moment} {tick count : Nat} {ran : Ran}
    (passes : Passes moments tick count simulation ran) : ran.reports.length = count := by
  induction passes with
  | none => rfl
  | round _ _ _ ih => simp [ih]

theorem Passes.tallied {moments : Nat → Nat → Moment} {tick count : Nat} {ran : Ran}
    (passes : Passes moments tick count simulation ran) :
    Counters.Tallied count (count * simulation.engine.network.heads.length) ran.events simulation.engine.counters
      ran.simulation.engine.counters := by
  induction passes with
  | none => simpa using Counters.Tallied.refl _
  | @round tick count simulation updated rest evaluated done later ih =>
    subst evaluated
    have heads : (simulation.moved (simulation.engine.updateAt (moments tick))).engine.network.heads =
        simulation.engine.network.heads :=
      (Network.heads_advance _ _).trans (Engine.updateAll_heads _ _)
    have first := simulation.engine.updateAt_tallied (moments tick) done
    rw [heads] at ih
    have both := first.trans ih
    rwa [Nat.add_comm 1, Nat.add_comm _ (count * _), ← Nat.succ_mul] at both

theorem round_faulted {tick : Nat} {fault : Fault}
    (failed : (simulation.engine.updateAt (circumstances.moments tick)).fault = some fault) :
    (simulation.round circumstances tick).outcome = Outcome.fail (.incomplete fault) := by
  simp only [round, failed]

/-- In a coherent network no train is lost, so a round is complete unless an evaluation faults. -/
theorem round_done (coherent : simulation.engine.network.Coherent) {tick : Nat}
    (writable : circumstances.unwritable tick = false)
    (done : (simulation.engine.updateAt (circumstances.moments tick)).fault = none) :
    simulation.round circumstances tick =
      let updated := simulation.engine.updateAt (circumstances.moments tick)
      { simulation := simulation.moved updated, events := updated.events
        reports := [report updated.engine.network tick] } := by
  have found : ((simulation.engine.updateAt (circumstances.moments tick)).engine.network.advance
      simulation.interval.seconds.toFloat32).fault = none :=
    ((Network.Coherent.updateAll coherent _).advance _).2
  simp only [round, done, writable, Bool.false_eq_true, if_false, Engine.advance, found, moved]

theorem moved_coherent (coherent : simulation.engine.network.Coherent) (moments : Nat → Moment) :
    (simulation.moved (simulation.engine.updateAt moments)).engine.network.Coherent :=
  ((Network.Coherent.updateAll coherent _).advance _).1

/-- Where nothing faults, the rounds that come before the first cancelled one are complete, and nothing else is
done. -/
theorem rounds_passes (coherent : simulation.engine.network.Coherent)
    (writable : ∀ tick, circumstances.unwritable tick = false) {tick ticks count : Nat}
    (admits : circumstances.Admits tick ticks count)
    (sound : ¬(rounds circumstances ticks tick simulation).Faulted) :
    ∃ ran, Passes circumstances.moments tick count simulation ran ∧
      rounds circumstances ticks tick simulation =
        { ran with outcome := if count < ticks then Outcome.fail .canceled else .ok () } := by
  induction count generalizing simulation tick ticks with
  | zero =>
    refine ⟨_, .none, ?_⟩
    cases ticks with
    | zero => rfl
    | succ ticks =>
      have cancelled : circumstances.cancelled tick = true := admits.stopped (Nat.succ_pos ticks)
      rw [rounds_cancelled cancelled, if_pos (Nat.succ_pos ticks)]
  | succ count ih =>
    obtain ⟨ticks, rfl⟩ : ∃ less, ticks = less + 1 :=
      Nat.exists_eq_add_of_le' (Nat.le_trans (Nat.succ_pos count) admits.within)
    have going : circumstances.cancelled tick = false := admits.going 0 (Nat.succ_pos count)
    cases failed : (simulation.engine.updateAt (circumstances.moments tick)).fault with
    | some fault =>
      have ended := round_faulted failed
      rw [rounds_failed going ended] at sound
      exact absurd ⟨fault, ended⟩ sound
    | none =>
      have done := round_done coherent (writable tick) failed
      have ended : (simulation.round circumstances tick).outcome = .ok () := by rw [done]
      rw [rounds_going going ended, done] at sound ⊢
      obtain ⟨rest, passes, same⟩ := ih (moved_coherent coherent _) ((Circumstances.admits_succ going).mp admits) sound
      refine ⟨_, .round rfl failed passes, ?_⟩
      simp only [same, Nat.add_lt_add_iff_right, List.singleton_append]

/-- A network in one piece, and a store in which nothing stale is cached. -/
structure Sound (simulation : Simulation) : Prop where
  coherent : simulation.engine.network.Coherent
  stored : ∃ store, simulation.engine.store = some store ∧ store.Steady store.backing

namespace Sound

theorem alike (sound : simulation.Sound) : ∃ backing, simulation.Alike backing simulation := by
  obtain ⟨store, stored, steady⟩ := sound.stored
  refine ⟨store.backing, ⟨store, store, steady, steady, stored, ?_⟩, rfl, rfl⟩
  rw [← stored]

/-- What is done in a round, however it ends, is to evaluate heads and to move the train. -/
theorem round (sound : simulation.Sound) (circumstances : Circumstances) (tick : Nat) :
    (simulation.round circumstances tick).simulation.Sound := by
  obtain ⟨backing, alike⟩ := sound.alike
  obtain ⟨_, _, _, store, _, steady, _, stored, _⟩ :=
    alike.engine.updateAt (circumstances.moments tick) (circumstances.moments tick)
  have coherent : (simulation.engine.updateAt (circumstances.moments tick)).engine.network.Coherent :=
    Network.Coherent.updateAll sound.coherent _
  have kept : ∃ store, (simulation.engine.updateAt (circumstances.moments tick)).engine.store = some store ∧
      store.Steady store.backing := ⟨store, stored, steady.backed ▸ steady⟩
  unfold Simulation.round
  dsimp only
  split
  · exact ⟨coherent, kept⟩
  · split
    · exact ⟨coherent, kept⟩
    · exact ⟨(coherent.advance _).1, kept⟩

theorem rounds (sound : simulation.Sound) (circumstances : Circumstances) (count tick : Nat) :
    (Simulation.rounds circumstances count tick simulation).simulation.Sound := by
  induction count generalizing tick simulation with
  | zero => exact sound
  | succ count ih =>
    have first := sound.round circumstances tick
    cases going : circumstances.cancelled tick with
    | true =>
      rw [rounds_cancelled going]
      exact sound
    | false =>
      cases ended : (simulation.round circumstances tick).outcome with
      | error error =>
        rw [rounds_failed going ended]
        exact first
      | ok _ =>
        rw [rounds_going going ended]
        exact ih first (tick + 1)

theorem run (sound : simulation.Sound) (files : Files) (circumstances : Circumstances) (ticks : Int64) :
    (simulation.run files circumstances ticks).simulation.Sound := by
  unfold Simulation.run
  split
  · exact sound
  · exact sound.rounds circumstances _ 1

end Sound

/-- A simulation that was built from files, and in which scripts were reloaded and runs made since. -/
inductive Arises : Simulation → Prop where
  | built {files : Files} {config : Config} {store : Store} {notices : List Notice} {fresh : Simulation}
      {orders : Nat → Nat → Layout.Order} (loaded : loadScripts files config = .ok (store, notices))
      (laid : ofStore files config orders store = .ok fresh) :
      Arises fresh
  | reloaded {before : Simulation} {store : Store} (arises : Arises before) (stored : before.engine.store = some store)
      (files : Files) (directory name : String) :
      Arises { before with engine := { before.engine with store := some (store.follow files directory name).1 } }
  | ran {before : Simulation} (arises : Arises before) (files : Files) (circumstances : Circumstances)
      (ticks : Int64) : Arises (before.run files circumstances ticks).simulation

theorem loadScripts_steady {files : Files} {config : Config} {store : Store} {notices : List Notice}
    (loaded : loadScripts files config = .ok (store, notices)) : store.Steady store.backing := by
  simp only [loadScripts, Store.opened, bind_eq_ok, pure_eq_ok, Except.ok.injEq] at loaded
  obtain ⟨opened, ⟨_, _, rfl⟩, _, _, same⟩ := loaded
  obtain ⟨rfl, _⟩ := Prod.mk.inj same
  obtain ⟨scripts, _, stored⟩ := Store.loadDirectory_store
    ⟨{}, Cache.new config.scripts.cacheSize config.cacheLifetime⟩ files config.scripts.directory
  rw [stored]
  exact Store.Steady.putting (.of_empty rfl) scripts

theorem ofStore_eq_ok {files : Files} {config : Config} {orders : Nat → Nat → Layout.Order} {store : Store}
    (laid : ofStore files config orders store = .ok simulation) :
    simulation.engine.network.Coherent ∧ simulation.engine.store = some store := by
  simp only [ofStore, Layout.load, bind_eq_ok, pure_eq_ok, Except.ok.injEq, Outcome.during_eq_ok] at laid
  obtain ⟨network, ⟨_, _, layout, _, built⟩, rfl⟩ := laid
  exact ⟨Layout.build_coherent built, rfl⟩

theorem Arises.sound (arises : simulation.Arises) : simulation.Sound := by
  induction arises with
  | built loaded laid =>
    obtain ⟨coherent, stored⟩ := ofStore_eq_ok laid
    exact ⟨coherent, _, stored, loadScripts_steady loaded⟩
  | @reloaded before store _ stored files directory name ih =>
    obtain ⟨_, same, steady⟩ := ih.stored
    obtain rfl := Option.some.inj (stored.symm.trans same)
    refine ⟨ih.coherent, _, rfl, ?_⟩
    rcases store.follow_store files directory name with same | ⟨_, _, _, _, done, same⟩
    · rw [same]
      exact steady
    · rw [same]
      exact steady.put done
  | ran _ files circumstances ticks ih => exact ih.run files circumstances ticks

/-- Two simulations between which neither network, counters nor answers of the store tell a difference. -/
structure Agrees (one two : Simulation) : Prop where
  network : one.engine.network = two.engine.network
  counters : one.engine.counters = two.engine.counters
  store : ∃ first second, one.engine.store = some first ∧ two.engine.store = some second ∧ first.AnswersAlike second

theorem Alike.agrees (alike : one.Alike backing two) : one.Agrees two := by
  obtain ⟨first, second, steady, other, stored, same⟩ := alike.engine
  exact ⟨by rw [same], by rw [same], first, second, stored, by rw [same], steady.answersAlike other⟩

/-- A run starts by watching a directory, if there is one to be watched. -/
def Watches (simulation : Simulation) (files : Files) : Prop :=
  ∀ directory, simulation.watched = some directory → ∃ notice, Store.watch files directory = .ok notice

theorem run_eq_rounds {files : Files} (watches : simulation.Watches files) (circumstances : Circumstances)
    (ticks : Int64) : simulation.run files circumstances ticks =
      rounds circumstances ticks.toInt.toNat 1 simulation := by
  cases watched : simulation.watched with
  | none => simp [run, watched]
  | some directory =>
    obtain ⟨notice, done⟩ := watches directory watched
    simp [run, watched, done]

/-- Where the directory cannot be watched, a run does nothing. -/
theorem run_unwatched {files : Files} (unwatched : ¬simulation.Watches files) (circumstances : Circumstances)
    (ticks : Int64) : ∃ error : Error, error.activities ≠ [] ∧
      simulation.run files circumstances ticks = { simulation, outcome := .error error } := by
  simp only [Watches, not_forall] at unwatched
  obtain ⟨directory, watched, refused⟩ := unwatched
  cases tried : Store.watch files directory with
  | ok notice => exact absurd ⟨notice, tried⟩ refused
  | error error =>
    refine ⟨error, ?_, by simp [run, watched, tried]⟩
    simp only [Store.watch, Outcome.during] at tried
    split at tried
    · cases tried
    · cases tried
      exact List.cons_ne_nil _ _

theorem not_faulted_of_activities {ran : Ran} {error : Error} (reason : error.activities ≠ [])
    (ended : ran.outcome = .error error) : ¬ran.Faulted := by
  rintro ⟨fault, faulted⟩
  cases ended.symm.trans faulted
  exact reason rfl

theorem round_watched (simulation : Simulation) (circumstances : Circumstances) (tick : Nat) :
    (simulation.round circumstances tick).simulation.watched = simulation.watched := by
  unfold round
  dsimp only
  split
  · rfl
  · split <;> rfl

theorem rounds_watched (circumstances : Circumstances) (count tick : Nat) (simulation : Simulation) :
    (rounds circumstances count tick simulation).simulation.watched = simulation.watched := by
  induction count generalizing tick simulation with
  | zero => rfl
  | succ count ih =>
    have first := simulation.round_watched circumstances tick
    cases going : circumstances.cancelled tick with
    | true => rw [rounds_cancelled going]
    | false =>
      cases ended : (simulation.round circumstances tick).outcome with
      | error error => rw [rounds_failed going ended, first]
      | ok _ =>
        rw [rounds_going going ended]
        exact (ih (tick + 1) _).trans first

theorem round_ended {tick : Nat} (writable : circumstances.unwritable tick = false) (simulation : Simulation) :
    (simulation.round circumstances tick).outcome = .ok () ∨ (simulation.round circumstances tick).Faulted := by
  simp only [round, writable, Bool.false_eq_true, if_false]
  split
  next fault _ => exact .inr ⟨fault, rfl⟩
  next =>
    cases lost : ((simulation.engine.updateAt (circumstances.moments tick)).engine.advance
      simulation.interval.seconds.toFloat32).2.2 with
    | some fault => exact .inr ⟨fault, rfl⟩
    | none => exact .inl rfl

/-- Only a fault ends a run before its time when nothing else happens. -/
theorem rounds_ended (calm : circumstances.Calm) (count tick : Nat) (simulation : Simulation) :
    (rounds circumstances count tick simulation).outcome = .ok () ∨
      (rounds circumstances count tick simulation).Faulted := by
  induction count generalizing tick simulation with
  | zero => exact .inl rfl
  | succ count ih =>
    have going := calm.going tick
    rcases round_ended (calm.writable tick) simulation with ended | ⟨fault, ended⟩
    · rw [rounds_going going ended]
      exact ih (tick + 1) _
    · rw [rounds_failed going ended]
      exact .inr ⟨fault, ended⟩

/-- Rounds in two goes come to the same as all of them in one. -/
theorem Alike.rounds_compose (alike : simulation.Alike backing simulation) {whole first second : Circumstances}
    (calm : whole.Calm) (early : first.Calm) (late : second.Calm) (count more : Nat) :
    let once := Simulation.rounds whole (count + more) 1 simulation
    let before := Simulation.rounds first count 1 simulation
    let after := Simulation.rounds second more 1 before.simulation
    (once.Faulted ↔ before.Faulted ∨ after.Faulted) ∧
      (¬once.Faulted → once.simulation.Agrees after.simulation ∧ once.events = before.events ++ after.events) := by
  dsimp only
  have start := alike.rounds calm early count 1 1
  rw [rounds_add]
  rcases rounds_ended calm count 1 simulation with ended | ⟨fault, ended⟩
  · have rest := start.simulation.rounds calm late more (1 + count) 1
    have unharmed : ¬(Simulation.rounds first count 1 simulation).Faulted := by
      rintro ⟨fault, faulted⟩
      cases (start.outcome.trans ended).symm.trans faulted
    simp only [ended]
    refine ⟨?_, fun _ => ⟨rest.simulation.agrees, by rw [start.events, rest.events]⟩⟩
    rw [or_iff_right unharmed, Ran.Faulted, Ran.Faulted, rest.outcome]
  · have faulted : (Simulation.rounds whole count 1 simulation).Faulted := ⟨fault, ended⟩
    have same : (Simulation.rounds first count 1 simulation).Faulted := ⟨fault, start.outcome.trans ended⟩
    simp only [ended, Outcome.fail]
    exact ⟨iff_of_true faulted (.inl same), fun sound => absurd faulted sound⟩

/-- Runs one after the other come to the same as one run over all their ticks, and whether one of them faults
comes to the same as well. -/
theorem Sound.run_compose (sound : simulation.Sound) (files : Files) {ticks more all : Int64} (positive : 0 ≤ ticks)
    (further : 0 ≤ more) (sum : all.toInt = ticks.toInt + more.toInt) {whole first second : Circumstances}
    (calm : whole.Calm) (early : first.Calm) (late : second.Calm) :
    let once := simulation.run files whole all
    let before := simulation.run files first ticks
    let after := before.simulation.run files second more
    (once.Faulted ↔ before.Faulted ∨ after.Faulted) ∧
      (¬once.Faulted → once.simulation.Agrees after.simulation ∧ once.events = before.events ++ after.events) := by
  dsimp only
  obtain ⟨backing, alike⟩ := sound.alike
  by_cases watches : simulation.Watches files
  · have count : all.toInt.toNat = ticks.toInt.toNat + more.toInt.toNat := by
      rw [Int64.le_iff_toInt_le, Int64.toInt_zero] at positive further
      omega
    have still : (Simulation.rounds first ticks.toInt.toNat 1 simulation).simulation.Watches files := by
      intro directory watched
      rw [rounds_watched] at watched
      exact watches directory watched
    rw [run_eq_rounds watches, run_eq_rounds watches, run_eq_rounds still, count]
    exact alike.rounds_compose calm early late _ _
  · obtain ⟨error, reason, once⟩ := run_unwatched watches whole all
    obtain ⟨_, other, before⟩ := run_unwatched watches first ticks
    obtain ⟨_, last, after⟩ := run_unwatched watches second more
    rw [once, before, after]
    refine ⟨iff_of_false (not_faulted_of_activities reason rfl) ?_, fun _ => ⟨alike.agrees, rfl⟩⟩
    rintro (faulted | faulted)
    · exact not_faulted_of_activities other rfl faulted
    · exact not_faulted_of_activities last rfl faulted

/-- A simulation can be run in two goes or in one: as long as no evaluation faults, the network, the counters and
all that can be asked of the store are the same. A run that is found cancelled has gone through the complete rounds
before that one and has done nothing else; and over every run the counters grow by what was evaluated and reported
in its rounds. -/
theorem run_composes {simulation : Simulation} (arises : simulation.Arises) (files : Files) :
    (∀ ticks more all : Int64, 0 ≤ ticks → 0 ≤ more → all.toInt = ticks.toInt + more.toInt →
      ∀ whole first second : Circumstances, whole.Calm → first.Calm → second.Calm →
        let once := simulation.run files whole all
        let before := simulation.run files first ticks
        let after := before.simulation.run files second more
        (once.Faulted ↔ before.Faulted ∨ after.Faulted) ∧
          (¬once.Faulted → once.simulation.Agrees after.simulation ∧ once.events = before.events ++ after.events)) ∧
    (∀ (circumstances : Circumstances) (ticks : Int64), (∀ tick, circumstances.unwritable tick = false) →
      simulation.Watches files → ¬(simulation.run files circumstances ticks).Faulted →
        ∃ count ran, circumstances.Admits 1 ticks.toInt.toNat count ∧
          Passes circumstances.moments 1 count simulation ran ∧ ran.reports.length = count ∧
          simulation.run files circumstances ticks =
            { ran with outcome := if count < ticks.toInt.toNat then Outcome.fail .canceled else .ok () } ∧
          Counters.Tallied count (count * simulation.engine.network.heads.length) ran.events
            simulation.engine.counters ran.simulation.engine.counters) ∧
    ∀ (circumstances : Circumstances) (tick : Nat), circumstances.unwritable tick = false →
      ((simulation.round circumstances tick).Faulted ↔
        (simulation.engine.updateAt (circumstances.moments tick)).fault.isSome) := by
  have sound := arises.sound
  refine ⟨fun ticks more all positive further sum whole first second calm early late =>
    sound.run_compose files positive further sum calm early late, ?_, ?_⟩
  · intro circumstances ticks writable watches unharmed
    rw [run_eq_rounds watches] at unharmed ⊢
    obtain ⟨count, admits⟩ := circumstances.exists_admits 1 ticks.toInt.toNat
    obtain ⟨ran, passes, same⟩ := rounds_passes sound.coherent writable admits unharmed
    exact ⟨count, ran, admits, passes, passes.reports, same, passes.tallied⟩
  · intro circumstances tick writable
    cases failed : (simulation.engine.updateAt (circumstances.moments tick)).fault with
    | some fault => exact iff_of_true ⟨fault, round_faulted failed⟩ rfl
    | none =>
      refine iff_of_false ?_ nofun
      rw [round_done sound.coherent writable failed]
      rintro ⟨fault, faulted⟩
      cases faulted

end Simulation

/-- A signal with two heads, of which one has a script, and this one returns. -/
private def station : Files where
  read path := .ok (if path = "layout.yaml" then "signals:\n- id: home\n  heads:\n  - type: main\n  - type: shunt"
    else "name: main\nstatements:\n- kind: return").toUTF8
  list _ := .ok [{ name := "main.yaml" }]

theorem run_composes_station : ∃ simulation : Simulation, simulation.Arises ∧
    simulation.engine.network.heads.length = 2 ∧
    (simulation.run station {} 3).simulation.engine.counters =
      { scripts := 3, fallbacks := 3, returns := 3, ticks := 3 } ∧
    (simulation.run station {} 3).simulation.Agrees
      ((simulation.run station {} 1).simulation.run station {} 2).simulation := by
  have computed : (do
      let loaded ← Simulation.loadScripts station {}
      let simulation ← Simulation.ofStore station {} (fun _ _ _ => 0) loaded.1
      let ran := simulation.run station {} 3
      ran.outcome
      return (simulation.engine.network.heads.length, ran.simulation.engine.counters) :
        Outcome (Nat × Counters)).toOption =
      some (2, { scripts := 3, fallbacks := 3, returns := 3, ticks := 3 }) := by
    decide +kernel
  rw [toOption_eq_some] at computed
  simp only [bind_eq_ok, pure_eq_ok, Except.ok.injEq, Prod.mk.injEq] at computed
  obtain ⟨⟨store, notices⟩, loaded, simulation, laid, _, ended, heads, counted⟩ := computed
  have arises : simulation.Arises := .built loaded laid
  have calm : Circumstances.Calm {} := ⟨fun _ => rfl, fun _ => rfl⟩
  obtain ⟨composes, _, _⟩ := Simulation.run_composes arises station
  obtain ⟨_, agrees⟩ := composes 1 2 3 (by decide) (by decide) (by decide) {} {} {} calm calm calm
  refine ⟨simulation, arises, heads, counted, (agrees ?_).1⟩
  rintro ⟨fault, faulted⟩
  cases ended.symm.trans faulted

end Lineside
