import Lineside.Proofs.NetworkCoherence
import Mathlib.Data.List.Perm.Subperm

/-! What a head can see of the line ahead. The signals ahead are the longest route along the links that
passes no signal twice and does not come back to the head's own signal, wherever the links lead; and each
question about them has the answer that this route gives. -/

namespace Lineside

namespace Network

variable {network : Network}

/-- Signals that exist and follow one another by their links, the first of them under a name. -/
def Linked (network : Network) : String → List Signal → Prop
  | _, [] => True
  | id, signal :: rest => network.signal? id = some signal ∧ network.Linked signal.next rest

/-- Signals that follow a signal, none of them twice and none of them the signal itself. -/
structure Route (network : Network) (origin : Signal) (path : List Signal) : Prop where
  linked : network.Linked origin.next path
  distinct : (origin.id :: path.map (·.id)).Nodup

theorem Linked.subset {id : String} {path : List Signal} (linked : network.Linked id path) : path ⊆ network.cells := by
  induction path generalizing id with
  | nil => exact List.nil_subset _
  | cons first rest ih =>
    obtain ⟨found, linked⟩ := linked
    exact List.cons_subset.mpr ⟨mem_cells_of_signal? found, ih linked⟩

/-- A route cannot be longer than the network. -/
theorem Route.length_lt {origin : Signal} {path : List Signal} (route : network.Route origin path)
    (present : origin ∈ network.cells) : path.length < network.cells.length := by
  have inside : origin.id :: path.map (·.id) ⊆ network.cells.map (·.id) :=
    List.map_subset Signal.id (List.cons_subset.mpr ⟨present, route.linked.subset⟩)
  have bound := route.distinct.length_le_of_subset inside
  simp only [List.length_cons, List.length_map] at bound
  omega

/-! Following the links. -/

/-- No signal has an id that was seen before it. -/
def Unseen : List String → List Signal → Prop
  | _, [] => True
  | seen, signal :: rest => signal.id ∉ seen ∧ Unseen (signal.id :: seen) rest

theorem unseen_iff {seen : List String} {path : List Signal} :
    Unseen seen path ↔ (path.map (·.id)).Nodup ∧ ∀ signal ∈ path, signal.id ∉ seen := by
  induction path generalizing seen with
  | nil => simp [Unseen]
  | cons first rest ih =>
    rw [Unseen, ih, List.map_cons, List.nodup_cons, List.forall_mem_cons]
    simp only [List.mem_cons, not_or, List.mem_map, not_exists, not_and]
    constructor
    · rintro ⟨fresh, distinct, apart⟩
      exact ⟨⟨fun signal member => (apart signal member).1, distinct⟩, fresh, fun signal member => (apart signal member).2⟩
    · rintro ⟨⟨apart, distinct⟩, fresh, unseen⟩
      exact ⟨fresh, distinct, fun signal member => ⟨apart signal member, unseen signal member⟩⟩

theorem route_iff {origin : Signal} {path : List Signal} :
    network.Route origin path ↔ network.Linked origin.next path ∧ Unseen [origin.id] path := by
  rw [unseen_iff]
  constructor
  · rintro ⟨linked, distinct⟩
    obtain ⟨apart, distinct⟩ := List.nodup_cons.mp distinct
    refine ⟨linked, distinct, ?_⟩
    intro signal member back
    exact apart (List.mem_map.mpr ⟨signal, member, List.mem_singleton.mp back⟩)
  · rintro ⟨linked, distinct, apart⟩
    refine ⟨linked, List.nodup_cons.mpr ⟨?_, distinct⟩⟩
    intro back
    obtain ⟨signal, member, same⟩ := List.mem_map.mp back
    exact apart signal member (List.mem_singleton.mpr same)

/-- One step of following finds nothing, or a signal that is new, from which it goes on. -/
theorem follow_succ (network : Network) (seen : List String) (id : String) :
    (∀ more, network.follow (more + 1) seen id = []) ∨
      ∃ signal, network.signal? id = some signal ∧ signal.id ∉ seen ∧
        ∀ more, network.follow (more + 1) seen id = signal :: network.follow more (signal.id :: seen) signal.next := by
  cases found : network.signal? id with
  | none => exact .inl fun more => by simp [follow, found]
  | some signal =>
    by_cases before : signal.id ∈ seen
    · exact .inl fun more => by simp [follow, found, before]
    · exact .inr ⟨signal, rfl, before, fun more => by simp [follow, found, before]⟩

theorem follow_sound (steps : Nat) (seen : List String) (id : String) :
    network.Linked id (network.follow steps seen id) ∧ Unseen seen (network.follow steps seen id) := by
  induction steps generalizing seen id with
  | zero => exact ⟨trivial, trivial⟩
  | succ steps ih =>
    obtain none | ⟨signal, found, fresh, next⟩ := network.follow_succ seen id
    · rw [none]
      exact ⟨trivial, trivial⟩
    · obtain ⟨linked, unseen⟩ := ih (signal.id :: seen) signal.next
      rw [next]
      exact ⟨⟨found, linked⟩, fresh, unseen⟩

theorem follow_complete {steps : Nat} {seen : List String} {id : String} {path : List Signal}
    (linked : network.Linked id path) (unseen : Unseen seen path) (short : path.length ≤ steps) :
    path <+: network.follow steps seen id := by
  induction path generalizing steps seen id with
  | nil => exact List.nil_prefix
  | cons first rest ih =>
    cases steps with
    | zero => simp at short
    | succ steps =>
      obtain ⟨found, linked⟩ := linked
      obtain ⟨fresh, unseen⟩ := unseen
      have next : network.follow (steps + 1) seen id = first :: network.follow steps (first.id :: seen) first.next := by
        simp [follow, found, fresh]
      rw [next, List.prefix_cons_inj]
      exact ih linked unseen (by simpa using short)

theorem follow_take {steps more : Nat} (less : steps ≤ more) (seen : List String) (id : String) :
    network.follow steps seen id = (network.follow more seen id).take steps := by
  induction steps generalizing more seen id with
  | zero => simp [follow]
  | succ steps ih =>
    cases more with
    | zero => simp at less
    | succ more =>
      obtain none | ⟨signal, _, _, next⟩ := network.follow_succ seen id
      · simp [none]
      · rw [next, next, List.take_succ_cons, ih (Nat.le_of_succ_le_succ less)]

theorem route_follow (steps : Nat) (origin : Signal) :
    network.Route origin (network.follow steps [origin.id] origin.next) :=
  route_iff.mpr (follow_sound steps [origin.id] origin.next)

section Ahead

variable {origin : Signal}

theorem route_ahead : network.Route origin (network.ahead origin) := route_follow network.cells.length origin

variable (present : origin ∈ network.cells)

include present

theorem Route.isPrefix {path : List Signal} (route : network.Route origin path) : path <+: network.ahead origin := by
  obtain ⟨linked, unseen⟩ := route_iff.mp route
  exact follow_complete linked unseen (Nat.le_of_lt (route.length_lt present))

/-- However many steps are taken, they lead along the signals ahead and no further. -/
theorem follow_eq_take (steps : Nat) :
    network.follow steps [origin.id] origin.next = (network.ahead origin).take steps := by
  by_cases few : steps ≤ network.cells.length
  · exact follow_take few [origin.id] origin.next
  · have enough : network.cells.length ≤ steps := by omega
    have bound : (network.follow steps [origin.id] origin.next).length < network.cells.length :=
      (route_follow steps origin).length_lt present
    have whole : network.ahead origin = network.follow steps [origin.id] origin.next := by
      rw [ahead, follow_take enough, List.take_of_length_le (by omega)]
    rw [whole, List.take_of_length_le (by omega)]

end Ahead

end Network

/-! The states that heads show. -/

namespace Head

/-- Of the states that heads of a role show, one that none of the others exceeds. -/
structure Foremost (below : Int64 → Int64 → Prop) (heads : List Head) (role : Role) (answer : Aspect) : Prop where
  shown : ∃ head ∈ heads, head.role = role ∧ head.state = answer
  bound : ∀ head ∈ heads, head.role = role → below head.state.code answer.code

/-- The maximum of the states of a role. -/
def IsFreest : List Head → Role → Aspect → Prop := Foremost (· ≤ ·)

/-- The minimum of the states of a role. -/
def IsStrictest : List Head → Role → Aspect → Prop := Foremost (· ≥ ·)

/-- What a choice between two aspects leads to when it is repeated along a list. -/
theorem foldl_choice (choice : Aspect → Aspect → Aspect) (below : Int64 → Int64 → Prop)
    (refl : ∀ code, below code code) (trans : ∀ {a b c}, below a b → below b c → below a c)
    (picks : ∀ a b, choice a b = a ∨ choice a b = b)
    (exceeds : ∀ a b, below a.code (choice a b).code ∧ below b.code (choice a b).code) (first : Aspect)
    (rest : List Aspect) :
    rest.foldl choice first ∈ first :: rest ∧
      ∀ aspect ∈ first :: rest, below aspect.code (rest.foldl choice first).code := by
  induction rest generalizing first with
  | nil => simp [refl]
  | cons second rest ih =>
    obtain ⟨member, bound⟩ := ih (choice first second)
    obtain ⟨left, right⟩ := exceeds first second
    rw [List.foldl_cons]
    constructor
    · rcases List.mem_cons.mp member with same | inside
      · rw [same]
        rcases picks first second with same | same <;> simp [same]
      · simp [inside]
    · have chosen := bound _ List.mem_cons_self
      simp only [List.forall_mem_cons]
      exact ⟨trans left chosen, trans right chosen, fun aspect inside => bound aspect (List.mem_cons_of_mem _ inside)⟩

theorem freest_cons (first : Aspect) (rest : List Aspect) :
    ∃ answer, freest (first :: rest) = some answer ∧ answer ∈ first :: rest ∧
      ∀ aspect ∈ first :: rest, aspect.code ≤ answer.code := by
  refine ⟨_, rfl, foldl_choice Aspect.freer (· ≤ ·) (fun _ => Int64.le_rfl) Int64.le_trans ?_ ?_ first rest⟩
  · intro a b
    unfold Aspect.freer
    split <;> simp
  · intro a b
    unfold Aspect.freer
    split
    next below => exact ⟨Int64.le_of_lt below, Int64.le_rfl⟩
    next above => exact ⟨Int64.le_rfl, Int64.not_lt.mp above⟩

theorem strictest_cons (first : Aspect) (rest : List Aspect) :
    ∃ answer, strictest (first :: rest) = some answer ∧ answer ∈ first :: rest ∧
      ∀ aspect ∈ first :: rest, aspect.code ≥ answer.code := by
  refine ⟨_, rfl, foldl_choice Aspect.stricter (· ≥ ·) (fun _ => Int64.le_rfl)
    (fun one two => Int64.le_trans two one) ?_ ?_ first rest⟩
  · intro a b
    unfold Aspect.stricter
    split <;> simp
  · intro a b
    unfold Aspect.stricter
    split
    next below => exact ⟨Int64.le_of_lt below, Int64.le_rfl⟩
    next above => exact ⟨Int64.le_rfl, Int64.not_lt.mp above⟩

/-- The states of the heads of a role. -/
def shown (heads : List Head) (role : Role) : List Aspect := (heads.filter (·.role == role)).map (·.state)

theorem mem_shown {heads : List Head} {role : Role} {aspect : Aspect} :
    aspect ∈ shown heads role ↔ ∃ head ∈ heads, head.role = role ∧ head.state = aspect := by
  simp [shown, and_assoc]

theorem shown_eq_nil {heads : List Head} {role : Role} :
    shown heads role = [] ↔ ∀ head ∈ heads, head.role ≠ role := by
  simp [shown]

theorem foremost_shown {pick : List Aspect → Option Aspect} {below : Int64 → Int64 → Prop}
    (picked : ∀ first rest, ∃ answer, pick (first :: rest) = some answer ∧ answer ∈ first :: rest ∧
      ∀ aspect ∈ first :: rest, below aspect.code answer.code)
    {heads : List Head} {role : Role} (carried : ∃ head ∈ heads, head.role = role) :
    Foremost below heads role ((pick (shown heads role)).getD .stop) := by
  cases states : shown heads role with
  | nil =>
    obtain ⟨head, member, same⟩ := carried
    exact absurd same (shown_eq_nil.mp states head member)
  | cons first rest =>
    obtain ⟨answer, chosen, member, bound⟩ := picked first rest
    rw [← states] at member bound
    rw [chosen, Option.getD_some]
    exact ⟨mem_shown.mp member, fun head inside same => bound _ (mem_shown.mpr ⟨head, inside, same, rfl⟩)⟩

end Head

namespace Signal

def carries (signal : Signal) (role : Role) : Bool := signal.heads.any (·.role == role)

theorem carries_iff {signal : Signal} {role : Role} :
    signal.carries role = true ↔ ∃ head ∈ signal.heads, head.role = role := by
  simp [carries]

theorem headsOf_isEmpty (signal : Signal) (role : Role) : (signal.headsOf role).isEmpty = !signal.carries role := by
  rw [Bool.eq_iff_iff]
  simp [headsOf, carries]

/-- A signal is the one that carries a role for the n-th time along a path. -/
def Nth (path : List Signal) (role : Role) (n : Int) (signal : Signal) : Prop :=
  ∃ front back, path = front ++ signal :: back ∧ signal.carries role = true ∧ front.countP (·.carries role) + 1 = n

theorem Nth.carried {path : List Signal} {role : Role} {n : Int} {signal : Signal} (nth : Nth path role n signal) :
    ∃ head ∈ signal.heads, head.role = role := by
  obtain ⟨_, _, _, carried, _⟩ := nth
  exact carries_iff.mp carried

/-- The signals of a path that carry a role, as they are counted. -/
theorem getElem?_carrying {path : List Signal} {role : Role} {index : Nat} {signal : Signal} :
    (path.filter (·.carries role))[index]? = some signal ↔ Nth path role (index + 1) signal := by
  constructor
  · intro found
    induction path generalizing index with
    | nil => simp at found
    | cons first rest ih =>
      by_cases carried : first.carries role = true
      · simp only [List.filter_cons, carried, if_true] at found
        cases index with
        | zero =>
          obtain rfl : first = signal := by simpa using found
          exact ⟨[], rest, rfl, carried, by simp⟩
        | succ index =>
          obtain ⟨front, back, rfl, here, count⟩ := ih (by simpa using found)
          refine ⟨first :: front, back, rfl, here, ?_⟩
          simp only [List.countP_cons, carried, if_true]
          omega
      · simp only [List.filter_cons, carried] at found
        obtain ⟨front, back, rfl, here, count⟩ := ih found
        refine ⟨first :: front, back, rfl, here, ?_⟩
        simp only [List.countP_cons, carried]
        exact count
  · rintro ⟨front, back, rfl, here, count⟩
    have position : index = (front.filter (·.carries role)).length := by
      rw [← List.countP_eq_length_filter]
      omega
    simp only [List.filter_append, List.filter_cons, here, if_true, position]
    simp

end Signal

/-! The questions. -/

namespace Scene

variable {scene : Scene}

theorem nthAspects_of_nth {role : Role} (count : Int64) {found : Signal}
    (nth : Signal.Nth scene.ahead role (max count.toInt 1) found) :
    scene.nthAspects role count = Head.shown found.heads role := by
  have index : ((count.toInt - 1).toNat : Int) + 1 = max count.toInt 1 := by omega
  rw [← index, ← Signal.getElem?_carrying] at nth
  simp only [nthAspects, Signal.headsOf_isEmpty, Bool.not_not, nth]
  rfl

theorem nthAspects_eq_nil {role : Role} {count : Int64}
    (fewer : ∀ found, ¬ Signal.Nth scene.ahead role (max count.toInt 1) found) : scene.nthAspects role count = [] := by
  have index : ((count.toInt - 1).toNat : Int) + 1 = max count.toInt 1 := by omega
  simp only [nthAspects, Signal.headsOf_isEmpty, Bool.not_not]
  cases at_ : (scene.ahead.filter (·.carries role))[(count.toInt - 1).toNat]? with
  | none => rfl
  | some found =>
    rw [Signal.getElem?_carrying, index] at at_
    exact absurd at_ (fewer found)

theorem isFreest_nextLeast {role : Role} (count : Int64) {found : Signal}
    (nth : Signal.Nth scene.ahead role (max count.toInt 1) found) :
    Head.IsFreest found.heads role (scene.nextLeast role count) := by
  rw [nextLeast, nthAspects_of_nth count nth]
  exact Head.foremost_shown Head.freest_cons nth.carried

theorem isStrictest_nextMost {role : Role} {found : Signal} (nth : Signal.Nth scene.ahead role 1 found) :
    Head.IsStrictest found.heads role (scene.nextMost role) := by
  rw [nextMost, nthAspects_of_nth 1 nth]
  exact Head.foremost_shown Head.strictest_cons nth.carried

theorem nextMost_le_nextLeast (role : Role) : (scene.nextMost role).code ≤ (scene.nextLeast role 1).code := by
  by_cases found : ∃ found, Signal.Nth scene.ahead role 1 found
  · obtain ⟨found, nth⟩ := found
    obtain ⟨⟨head, member, same, shown⟩, _⟩ := isFreest_nextLeast 1 nth
    rw [← shown]
    exact (isStrictest_nextMost nth).bound head member same
  · have none : scene.nthAspects role 1 = [] := nthAspects_eq_nil fun signal nth => found ⟨signal, nth⟩
    rw [nextMost, nextLeast, none]
    exact Int64.le_rfl

theorem shown_flatMap (front : List Signal) (role : Role) :
    front.flatMap (·.shown role) = Head.shown (front.flatMap (·.heads)) role := by
  rw [Head.shown, List.filter_flatMap, List.map_flatMap]
  rfl

/-- What a head is told about the heads of a role on the signals of a path before the first that carries a stop role. -/
def DistantAlong (scene : Scene) (path : List Signal) (role stopRole : Role) : Prop :=
  ∃ front back, path = front ++ back ∧ (∀ signal ∈ front, signal.carries stopRole = false) ∧
    (∀ signal ∈ back.head?, signal.carries stopRole = true) ∧
    ((∃ signal ∈ front, signal.carries role = true) →
      Head.IsStrictest (front.flatMap (·.heads)) role (scene.distantMost role stopRole)) ∧
    ((∀ signal ∈ front, signal.carries role = false) → scene.distantMost role stopRole = .stop)

/-- What a head is told about the heads of a role, where a path of signals lies ahead of it. -/
structure AnswersAlong (scene : Scene) (path : List Signal) (role : Role) : Prop where
  nth : ∀ count found, Signal.Nth path role (max count.toInt 1) found →
    Head.IsFreest found.heads role (scene.nextLeast role count)
  fewer : ∀ count, (∀ found, ¬ Signal.Nth path role (max count.toInt 1) found) → scene.nextLeast role count = .stop
  next : ∀ found, Signal.Nth path role 1 found →
    Head.IsFreest found.heads role (scene.nextLeast role 1) ∧ Head.IsStrictest found.heads role (scene.nextMost role)
  bare : (∀ found, ¬ Signal.Nth path role 1 found) → scene.nextLeast role 1 = .stop ∧ scene.nextMost role = .stop
  ordered : (scene.nextMost role).code ≤ (scene.nextLeast role 1).code
  distant : ∀ stopRole, scene.DistantAlong path role stopRole

theorem distantAlong_ahead (scene : Scene) (role stopRole : Role) :
    scene.DistantAlong scene.ahead role stopRole := by
  refine ⟨scene.ahead.takeWhile fun signal => !signal.carries stopRole,
    scene.ahead.dropWhile fun signal => !signal.carries stopRole, List.takeWhile_append_dropWhile.symm, ?_, ?_, ?_, ?_⟩
  · intro signal member
    simpa using List.all_eq_true.mp List.all_takeWhile signal member
  · intro signal first
    have stops := List.head?_dropWhile_not (fun signal : Signal => !signal.carries stopRole) scene.ahead
    rw [Option.mem_def.mp first] at stops
    simpa using stops
  · rintro ⟨signal, member, carried⟩
    obtain ⟨head, inside, same⟩ := Signal.carries_iff.mp carried
    simp only [distantMost, Signal.headsOf_isEmpty, shown_flatMap]
    exact Head.foremost_shown Head.strictest_cons ⟨head, List.mem_flatMap.mpr ⟨signal, member, inside⟩, same⟩
  · intro bare
    have none : Head.shown ((scene.ahead.takeWhile fun signal => !signal.carries stopRole).flatMap (·.heads)) role = [] := by
      rw [Head.shown_eq_nil]
      intro head inside same
      obtain ⟨signal, member, inside⟩ := List.mem_flatMap.mp inside
      have carried : signal.carries role = true := Signal.carries_iff.mpr ⟨head, inside, same⟩
      simp [bare signal member] at carried
    simp only [distantMost, Signal.headsOf_isEmpty, shown_flatMap, none]
    rfl

theorem answersAlong_ahead (scene : Scene) (role : Role) : scene.AnswersAlong scene.ahead role where
  nth count found nth := isFreest_nextLeast count nth
  fewer count fewer := by
    rw [nextLeast, nthAspects_eq_nil fewer]
    rfl
  next found nth := ⟨isFreest_nextLeast 1 nth, isStrictest_nextMost nth⟩
  bare fewer := by
    have none : scene.nthAspects role 1 = [] := nthAspects_eq_nil fewer
    rw [nextLeast, nextMost, none]
    exact ⟨rfl, rfl⟩
  ordered := nextMost_le_nextLeast role
  distant := scene.distantAlong_ahead role

theorem mem_cells_of_own? {signal : Signal} {head : Head} (own : scene.own? = some (signal, head)) :
    signal ∈ scene.network.cells := by
  simp only [own?, Option.bind_eq_some_iff, Option.map_eq_some_iff] at own
  obtain ⟨_, _, _, ⟨address, _, here⟩, same⟩ := own
  cases same
  exact Network.mem_cells.mpr ⟨address, here⟩

/-- Ahead of a mounted head lies the longest route from its signal: every route begins it, following the links for any
number of steps leads along it, and it is shorter than the network. What the head is told about the signals ahead is
what this route says. -/
theorem ahead_longest {signal : Signal} {head : Head} (own : scene.own? = some (signal, head)) :
    ∃ path, scene.network.Route signal path ∧ (∀ other, scene.network.Route signal other → other <+: path) ∧
      path.length < scene.network.cells.length ∧
      (∀ steps, scene.network.follow steps [signal.id] signal.next = path.take steps) ∧
      ∀ role, scene.AnswersAlong path role := by
  have present := mem_cells_of_own? own
  have along : scene.ahead = scene.network.ahead signal := by
    simp only [ahead, own]
  refine ⟨scene.network.ahead signal, Network.route_ahead, ?_, Network.route_ahead.length_lt present, ?_, ?_⟩
  · intro other route
    exact route.isPrefix present
  · intro steps
    exact Network.follow_eq_take present steps
  · intro role
    rw [← along]
    exact scene.answersAlong_ahead role

end Scene

/-- A line that leads back to where it begins, past a distant signal without main heads. -/
private def circle : Network := .holding
  [{ id := "A", next := "B", heads := [{ kind := "home" }] },
    { id := "B", next := "C", heads := [{ kind := "distant", role := ⟨1⟩, aspects := [⟨3⟩] }] },
    { id := "C", next := "A", heads := [{ kind := "home", aspects := [⟨6⟩] }, { kind := "home", aspects := [⟨4⟩] }] }]
  none

private def circling : Scene where
  network := circle
  subject := .mounted ⟨0, 0⟩

theorem ahead_longest_circle :
    circling.own?.isSome ∧ ∃ path, path.map (·.id) = ["B", "C"] ∧
      (∀ steps, circling.network.follow steps ["A"] "B" = path.take steps) ∧ ∀ role, circling.AnswersAlong path role := by
  have own : circling.own? = some (_, _) := rfl
  obtain ⟨path, _, _, short, steps, answers⟩ := Scene.ahead_longest own
  have whole : path = circling.network.follow 3 ["A"] "B" :=
    (List.take_of_length_le (Nat.le_of_lt short)).symm.trans (steps 3).symm
  exact ⟨by rw [own]; rfl, path, by rw [whole]; rfl, steps, answers⟩

end Lineside
