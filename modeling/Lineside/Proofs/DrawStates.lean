import Lineside.Proofs.Outcomes
import Lineside.Track.Layout
import Mathlib.Data.List.Induction
import Mathlib.Data.List.Nodup

/-! What the names of a layout mean, and the draw states of a head. Draw states are met in no particular order, and an
aspect has two spellings. So they are the same in every order exactly as long as no aspect is given different numbers
under its two spellings. -/

namespace Lineside

/-- A list of steps gives what its members give one by one. -/
theorem mapM_eq_ok_forall₂ {α β ε : Type} {f : α → Except ε β} {items : List α} {results : List β} :
    items.mapM f = .ok results ↔ List.Forall₂ (fun item result => f item = .ok result) items results := by
  induction items generalizing results with
  | nil => simp [eq_comm]
  | cons item items ih =>
    rw [List.mapM_cons, bind_eq_ok, List.forall₂_cons_left_iff]
    simp only [bind_eq_ok, pure_eq_ok, Except.ok.injEq, ih]
    constructor
    · rintro ⟨first, here, rest, others, rfl⟩
      exact ⟨first, rest, here, others, rfl⟩
    · rintro ⟨first, rest, here, others, rfl⟩
      exact ⟨first, here, rest, others, rfl⟩

namespace NameTable

variable {table : NameTable} {name : String} {code : Int64}

/-- A name stands for a code, alone or with the lead in front. -/
def Means (table : NameTable) (name : String) (code : Int64) : Prop :=
  (name, code) ∈ table.entries ∨ ∃ bare, name = table.lead ++ bare ∧ (bare, code) ∈ table.entries

/-- A name that may be left out stands for a code, and an empty one for what is usual. -/
def MeansOr (table : NameTable) (usual : Int64) (name : String) (code : Int64) : Prop :=
  name = "" ∧ code = usual ∨ name ≠ "" ∧ table.Means name code

/-- The names of a table differ from each other, and their beginnings from the lead. -/
structure Unambiguous (table : NameTable) : Prop where
  distinct : (table.entries.map (·.1)).Nodup
  bare : ∀ entry ∈ table.entries, table.bare entry.1 = entry.1
  led : ∀ entry ∈ table.entries, table.bare (table.lead ++ entry.1) = entry.1

theorem bare_cases (table : NameTable) (name : String) :
    table.bare name = name ∨ name = table.lead ++ table.bare name := by
  unfold bare
  split
  next led =>
    obtain ⟨rest, split⟩ := List.isPrefixOf_iff_prefix.mp led.2.2
    right
    rw [← String.toList_inj, String.toList_append, String.toList_ofList, ← split]
    rw [← String.length_toList, List.drop_left]
  next => exact .inl rfl

theorem lookup_entries (clear : table.Unambiguous) : table.entries.lookup name = some code ↔ (name, code) ∈ table.entries := by
  rw [List.lookup_eq_some_iff]
  constructor
  · rintro ⟨front, back, split, _⟩
    simp [split]
  · intro member
    obtain ⟨front, back, split⟩ := List.append_of_mem member
    refine ⟨front, back, split, fun entry inside => ?_⟩
    have distinct := clear.distinct
    rw [split, List.map_append, List.map_cons, List.nodup_append] at distinct
    have apart := distinct.2.2 entry.1 (List.mem_map_of_mem inside) name (by simp)
    simpa using apart.symm

theorem resolve_eq_ok (clear : table.Unambiguous) : table.resolve name = .ok code ↔ table.Means name code := by
  have found : table.resolve name = .ok code ↔ (table.bare name, code) ∈ table.entries := by
    rw [← lookup_entries clear, resolve]
    cases table.entries.lookup (table.bare name) <;> simp
  rw [found]
  constructor
  · intro member
    rcases table.bare_cases name with plain | led
    · exact .inl (plain ▸ member)
    · exact .inr ⟨table.bare name, led, member⟩
  · rintro (member | ⟨bare, rfl, member⟩)
    · rwa [clear.bare _ member]
    · rwa [clear.led _ member]

theorem Means.unique (clear : table.Unambiguous) {other : Int64} (one : table.Means name code)
    (two : table.Means name other) : code = other := by
  rw [← resolve_eq_ok clear] at one two
  exact Except.ok.inj (one.symm.trans two)

end NameTable

theorem Aspect.table_unambiguous : Aspect.table.Unambiguous where
  distinct := by decide
  bare := by decide
  led := by decide

theorem Block.table_unambiguous : Block.table.Unambiguous where
  distinct := by decide
  bare := by decide
  led := by decide

theorem Role.table_unambiguous : Role.table.Unambiguous where
  distinct := by decide
  bare := by decide
  led := by decide

theorem Role.ofName_eq_ok {name : String} {role : Role} :
    Role.ofName name = .ok role ↔ Role.table.Means name role.code := by
  obtain ⟨code⟩ := role
  rw [← NameTable.resolve_eq_ok Role.table_unambiguous, ofName]
  cases Role.table.resolve name <;> simp [Except.map]

theorem Block.ofName_eq_ok {name : String} {block : Block} :
    Block.ofName name = .ok block ↔ Block.table.Means name block.code := by
  obtain ⟨code⟩ := block
  rw [← NameTable.resolve_eq_ok Block.table_unambiguous, ofName]
  cases Block.table.resolve name <;> simp [Except.map]

theorem Aspect.ofName_eq_ok {name : String} {aspect : Aspect} :
    Aspect.ofName name = .ok aspect ↔ Aspect.table.Means name aspect.code := by
  obtain ⟨code⟩ := aspect
  rw [← NameTable.resolve_eq_ok Aspect.table_unambiguous, ofName]
  cases Aspect.table.resolve name <;> simp [Except.map]

namespace Layout

open Aspect (table)

/-- A name that may be left out. -/
theorem optional_eq_ok {α : Type} {name : String} {usual value : α} {resolved : Except UnknownName α} :
    (if name = "" then .ok usual else named resolved) = .ok value ↔
      name = "" ∧ value = usual ∨ name ≠ "" ∧ resolved = .ok value := by
  by_cases bare : name = ""
  · simp [bare, eq_comm]
  · simp [bare, named, Outcome.because_eq_ok]

/-- The last of some entries that names an aspect gives it a number. -/
def Settles (entries : List (String × Int64)) (aspect : Aspect) (value : Int64) : Prop :=
  ∃ front name back, entries = front ++ (name, value) :: back ∧ table.Means name aspect.code ∧
    ∀ entry ∈ back, ¬ table.Means entry.1 aspect.code

/-- Some entries give different numbers to an aspect. -/
def Disputed (entries : List (String × Int64)) (aspect : Aspect) : Prop :=
  ∃ one ∈ entries, ∃ two ∈ entries, table.Means one.1 aspect.code ∧ table.Means two.1 aspect.code ∧ one.2 ≠ two.2

variable {entries order : List (String × Int64)} {states : List (Aspect × Int64)} {aspect : Aspect} {value : Int64}

theorem settles_concat {name : String} {number : Int64} :
    Settles (entries ++ [(name, number)]) aspect value ↔
      table.Means name aspect.code ∧ number = value ∨ ¬ table.Means name aspect.code ∧ Settles entries aspect value := by
  constructor
  · rintro ⟨front, other, back, split, means, last⟩
    rcases back.eq_nil_or_concat' with rfl | ⟨back, entry, rfl⟩
    · obtain ⟨rfl, same⟩ := List.append_inj' split rfl
      obtain ⟨rfl, rfl⟩ := Prod.mk.inj (List.cons.inj same).1
      exact .inl ⟨means, rfl⟩
    · rw [← List.cons_append, ← List.append_assoc] at split
      obtain ⟨rfl, same⟩ := List.append_inj' split rfl
      obtain rfl := (List.cons.inj same).1
      have apart := last (name, number) (by simp)
      exact .inr ⟨apart, front, other, back, rfl, means, fun entry inside => last entry (by simp [inside])⟩
  · rintro (⟨means, rfl⟩ | ⟨other, front, settled, back, rfl, means, last⟩)
    · exact ⟨entries, name, [], rfl, means, by simp⟩
    · refine ⟨front, settled, back ++ [(name, number)], by simp, means, fun entry inside => ?_⟩
      rcases List.mem_append.mp inside with early | late
      · exact last entry early
      · rwa [List.mem_singleton.mp late]

theorem lookup_filter_ne (states : List (Aspect × Int64)) {other : Aspect} (apart : other ≠ aspect) :
    (states.filter (·.1 != aspect)).lookup other = states.lookup other := by
  induction states with
  | nil => rfl
  | cons entry states ih =>
    obtain ⟨key, number⟩ := entry
    by_cases dropped : key = aspect
    · subst dropped
      have skipped : (other == key) = false := by simpa using apart
      rw [List.filter_cons_of_neg (by simp), List.lookup_cons, skipped, ih]
    · simp [dropped, List.lookup_cons, ih]

theorem lookup_setDrawState (states : List (Aspect × Int64)) (aspect other : Aspect) (value : Int64) :
    (setDrawState states aspect value).lookup other = if other = aspect then some value else states.lookup other := by
  by_cases same : other = aspect
  · simp [setDrawState, same]
  · have apart : (other == aspect) = false := by simpa using same
    rw [if_neg same, setDrawState, List.lookup_cons, apart]
    exact lookup_filter_ne states same

theorem resolveDrawStates_concat {name : String} {number : Int64} :
    resolveDrawStates (entries ++ [(name, number)]) = .ok states ↔
      ∃ earlier named, resolveDrawStates entries = .ok earlier ∧ table.Means name named.code ∧
        states = setDrawState earlier named number := by
  simp only [resolveDrawStates, List.foldlM_append, List.foldlM_cons, List.foldlM_nil, bind_eq_ok, named,
    Outcome.because_eq_ok, Aspect.ofName_eq_ok, pure_eq_ok, Except.ok.injEq]
  constructor
  · rintro ⟨earlier, resolved, _, ⟨named, means, rfl⟩, rfl⟩
    exact ⟨earlier, named, resolved, means, rfl⟩
  · rintro ⟨earlier, named, resolved, means, rfl⟩
    exact ⟨earlier, resolved, _, ⟨named, means, rfl⟩, rfl⟩

/-- Draw states resolve exactly if all their names do. -/
theorem exists_resolveDrawStates :
    (∃ states, resolveDrawStates entries = .ok states) ↔ ∀ entry ∈ entries, ∃ code, table.Means entry.1 code := by
  induction entries using List.reverseRecOn with
  | nil => exact ⟨by simp, fun _ => ⟨[], rfl⟩⟩
  | append_singleton entries entry ih =>
    obtain ⟨name, number⟩ := entry
    simp only [resolveDrawStates_concat, List.forall_mem_append, ← ih, List.forall_mem_singleton]
    constructor
    · rintro ⟨_, earlier, named, resolved, means, rfl⟩
      exact ⟨⟨earlier, resolved⟩, named.code, means⟩
    · rintro ⟨⟨earlier, resolved⟩, code, means⟩
      exact ⟨_, earlier, ⟨code⟩, resolved, means, rfl⟩

/-- The draw state of an aspect is what the last entry for it says. -/
theorem lookup_resolveDrawStates (resolved : resolveDrawStates entries = .ok states) :
    states.lookup aspect = some value ↔ Settles entries aspect value := by
  induction entries using List.reverseRecOn generalizing states with
  | nil =>
    cases resolved
    simp [Settles]
  | append_singleton entries entry ih =>
    obtain ⟨name, number⟩ := entry
    obtain ⟨earlier, named, before, means, rfl⟩ := resolveDrawStates_concat.mp resolved
    rw [lookup_setDrawState, settles_concat, ← ih before]
    by_cases same : aspect = named
    · subst same
      simp [means]
    · have apart : ¬ table.Means name aspect.code := by
        intro also
        exact same (congrArg Aspect.mk (also.unique Aspect.table_unambiguous means))
      simp [same, apart]

/-! The order of the entries. -/

namespace Order

variable {α : Type} {items other : List α}

theorem arrange_perm (order : Order) (items : List α) : (order.arrange items).Perm items := by
  induction items with
  | nil => exact .nil
  | cons item rest ih =>
    rw [arrange]
    apply (List.perm_insertIdx item _ ?_).trans (ih.cons item)
    rw [ih.length_eq]
    exact Nat.le_of_lt_succ (Nat.mod_lt _ (Nat.succ_pos _))

theorem insertIdx_length_append (item : α) (front back : List α) :
    (front ++ back).insertIdx front.length item = front ++ item :: back := by
  induction front with
  | nil => rfl
  | cons first front ih => rw [List.length_cons, List.cons_append, List.insertIdx_succ_cons, ih, List.cons_append]

theorem arrange_congr {one two : Order} (same : ∀ count < items.length, one count = two count) :
    one.arrange items = two.arrange items := by
  induction items with
  | nil => rfl
  | cons item rest ih =>
    rw [arrange, arrange, ih fun count few => same count (Nat.lt_succ_of_lt few), same rest.length (by simp)]

/-- The entries of a mapping can be met in every order. -/
theorem exists_arrange (perm : other.Perm items) : ∃ order : Order, order.arrange items = other := by
  induction items generalizing other with
  | nil => exact ⟨fun _ => 0, perm.symm.nil_eq⟩
  | cons item rest ih =>
    obtain ⟨front, back, rfl⟩ := List.append_of_mem (perm.symm.subset List.mem_cons_self)
    have others : (front ++ back).Perm rest := (List.perm_middle.symm.trans perm).cons_inv
    obtain ⟨order, arranged⟩ := ih others
    -- The first entry is put where it is to be among the others, which stay as they are.
    refine ⟨fun count => if count = rest.length then front.length else order count, ?_⟩
    have below : front.length < rest.length + 1 := by
      rw [← others.length_eq, List.length_append]
      omega
    have same : arrange (fun count => if count = rest.length then front.length else order count) rest = front ++ back := by
      rw [← arranged]
      apply arrange_congr
      intro count few
      rw [if_neg (Nat.ne_of_lt few)]
    rw [arrange, same, if_pos rfl, Nat.mod_eq_of_lt below, insertIdx_length_append]

end Order

theorem exists_settles (named : ∃ entry ∈ entries, table.Means entry.1 aspect.code) : ∃ value, Settles entries aspect value := by
  induction entries using List.reverseRecOn with
  | nil =>
    obtain ⟨entry, inside, _⟩ := named
    cases inside
  | append_singleton entries entry ih =>
    obtain ⟨name, number⟩ := entry
    by_cases means : table.Means name aspect.code
    · exact ⟨number, settles_concat.mpr (.inl ⟨means, rfl⟩)⟩
    · obtain ⟨other, inside, also⟩ := named
      rcases List.mem_append.mp inside with early | late
      · obtain ⟨value, settles⟩ := ih ⟨other, early, also⟩
        exact ⟨value, settles_concat.mpr (.inr ⟨means, settles⟩)⟩
      · rw [List.mem_singleton.mp late] at also
        exact absurd also means

/-- Where an aspect is not disputed it does not matter which entry for it comes last. -/
theorem settles_iff_mem (agreed : ¬ Disputed entries aspect) :
    Settles entries aspect value ↔ ∃ name, (name, value) ∈ entries ∧ table.Means name aspect.code := by
  constructor
  · rintro ⟨front, name, back, rfl, means, _⟩
    exact ⟨name, by simp, means⟩
  · rintro ⟨name, inside, means⟩
    obtain ⟨last, settles⟩ := exists_settles ⟨_, inside, means⟩
    have same : last = value := by
      by_contra apart
      obtain ⟨front, other, back, split, also, _⟩ := settles
      exact agreed ⟨(other, last), by simp [split], (name, value), inside, also, means, apart⟩
    rwa [← same]

theorem Disputed.perm (perm : order.Perm entries) (disputed : Disputed order aspect) : Disputed entries aspect := by
  obtain ⟨one, first, two, second, disagree⟩ := disputed
  exact ⟨one, perm.subset first, two, perm.subset second, disagree⟩

theorem lookup_of_perm (perm : order.Perm entries) (agreed : ¬ Disputed entries aspect)
    {ordered : List (Aspect × Int64)} (resolved : resolveDrawStates entries = .ok states)
    (reordered : resolveDrawStates order = .ok ordered) : ordered.lookup aspect = states.lookup aspect := by
  have also : ¬ Disputed order aspect := fun disputed => agreed (disputed.perm perm)
  apply Option.ext
  intro value
  rw [lookup_resolveDrawStates resolved, lookup_resolveDrawStates reordered, settles_iff_mem agreed, settles_iff_mem also]
  simp only [perm.mem_iff]

/-- Any entry can come last, and then it gives its aspect the number. -/
theorem exists_order_lookup {entry : String × Int64} (resolved : resolveDrawStates entries = .ok states)
    (inside : entry ∈ entries) (means : table.Means entry.1 aspect.code) :
    ∃ order ordered, order.Perm entries ∧ resolveDrawStates order = .ok ordered ∧
      ordered.lookup aspect = some entry.2 := by
  obtain ⟨front, back, rfl⟩ := List.append_of_mem inside
  have perm : (front ++ back ++ [entry]).Perm (front ++ entry :: back) :=
    (List.perm_append_singleton _ _).trans List.perm_middle.symm
  obtain ⟨ordered, reordered⟩ : ∃ ordered, resolveDrawStates (front ++ back ++ [entry]) = .ok ordered := by
    rw [exists_resolveDrawStates]
    have names := exists_resolveDrawStates.mp ⟨states, resolved⟩
    exact fun other member => names other (perm.subset member)
  refine ⟨_, ordered, perm, reordered, ?_⟩
  rw [lookup_resolveDrawStates reordered, settles_concat]
  exact .inl ⟨means, rfl⟩

/-- With no entry written twice, an aspect is disputed by its two spellings. -/
theorem disputed_iff (distinct : (entries.map (·.1)).Nodup) :
    Disputed entries aspect ↔ ∃ bare one two, (bare, aspect.code) ∈ table.entries ∧ (bare, one) ∈ entries ∧
      (table.lead ++ bare, two) ∈ entries ∧ one ≠ two := by
  have same_name {name other : String} (first : (name, aspect.code) ∈ table.entries)
      (second : (other, aspect.code) ∈ table.entries) : name = other := by
    have codes : (table.entries.map (·.2)).Nodup := by decide
    exact congrArg Prod.fst (List.inj_on_of_nodup_map codes first second rfl)
  have same_entry {one two : String × Int64} (first : one ∈ entries) (second : two ∈ entries) (same : one.1 = two.1) :
      one.2 = two.2 := congrArg Prod.snd (List.inj_on_of_nodup_map distinct first second same)
  constructor
  · rintro ⟨⟨name, one⟩, first, ⟨other, two⟩, second, plain | ⟨bare, rfl, plain⟩, also | ⟨back, rfl, also⟩, apart⟩
    · exact absurd (same_entry first second (same_name plain also)) apart
    · obtain rfl := same_name plain also
      exact ⟨name, one, two, plain, first, second, apart⟩
    · obtain rfl := same_name plain also
      exact ⟨bare, two, one, plain, second, first, apart.symm⟩
    · exact absurd (same_entry first second (congrArg (table.lead ++ ·) (same_name plain also))) apart
  · rintro ⟨bare, one, two, plain, first, second, apart⟩
    exact ⟨_, first, _, second, .inl plain, .inr ⟨bare, rfl, plain⟩, apart⟩

namespace Head

theorem role_eq_ok {name : String} {role : Role} :
    (if name = "" then .ok Role.normal else named (Role.ofName name)) = .ok role ↔
      Role.table.MeansOr Role.normal.code name role.code := by
  obtain ⟨code⟩ := role
  simp [optional_eq_ok, Role.ofName_eq_ok, NameTable.MeansOr, Role.normal]

theorem build_eq_ok {head : Head} {order : Order} {built : Lineside.Head} :
    head.build order = .ok built ↔ head.kind ≠ "" ∧ ∃ role aspects drawStates,
      Role.table.MeansOr Role.normal.code head.role role.code ∧
      List.Forall₂ (fun name aspect => table.Means name aspect.code) head.aspects aspects ∧
      resolveDrawStates (order.arrange head.drawStates) = .ok drawStates ∧
      { number := head.number, kind := head.kind, role, aspects, drawStates } = built := by
  have steps : head.build order = if head.kind = "" then Outcome.fail .missingKind else do
      let role ← (if head.role = "" then .ok Role.normal else named (Role.ofName head.role) : Outcome Role)
      let aspects ← head.aspects.mapM fun name => named (Aspect.ofName name)
      let drawStates ← resolveDrawStates (order.arrange head.drawStates)
      return { number := head.number, kind := head.kind, role, aspects, drawStates } := by
    unfold build
    split
    · rfl
    · split <;> rfl
  have aspects (aspects : List Aspect) : (head.aspects.mapM fun name => named (Aspect.ofName name)) = .ok aspects ↔
      List.Forall₂ (fun name aspect => table.Means name aspect.code) head.aspects aspects := by
    simp only [mapM_eq_ok_forall₂, named, Outcome.because_eq_ok, Aspect.ofName_eq_ok]
  rw [steps]
  by_cases unnamed : head.kind = ""
  · simp [unnamed, Outcome.fail]
  · simp only [unnamed, if_false, bind_eq_ok, role_eq_ok, aspects, pure_eq_ok, Except.ok.injEq, ne_eq, not_false_eq_true,
      true_and, exists_and_left]

/-- The draw states are filled in last. -/
theorem build_eq (head : Head) (order : Order) :
    head.build order = do
      let bare ← build { head with drawStates := [] } fun _ => 0
      let drawStates ← resolveDrawStates (order.arrange head.drawStates)
      return { bare with drawStates } := by
  have none : resolveDrawStates (Order.arrange (fun _ => 0) []) = .ok [] := rfl
  unfold build
  by_cases unnamed : head.kind = ""
  · simp [unnamed, Outcome.fail]
  · by_cases bare : head.role = ""
    · cases head.aspects.mapM fun name => named (Aspect.ofName name) <;> simp [unnamed, bare, none]
    · cases named (Role.ofName head.role) <;> cases head.aspects.mapM fun name => named (Aspect.ofName name) <;>
        simp [unnamed, bare, none]

section Orders

variable {head : Head} {order other : Order} {built rebuilt : Lineside.Head}

/-- Another order decides on nothing but the draw states. -/
theorem build_again (ok : head.build order = .ok built) :
    head.build other = .ok rebuilt ↔
      ∃ states, resolveDrawStates (other.arrange head.drawStates) = .ok states ∧
        { built with drawStates := states } = rebuilt := by
  rw [build_eq] at ok ⊢
  obtain ⟨bare, first, ok⟩ := bind_eq_ok.mp ok
  obtain ⟨_, _, ok⟩ := bind_eq_ok.mp ok
  cases ok
  simp only [first, ok_bind, bind_eq_ok, pure_eq_ok, Except.ok.injEq]

theorem resolve_of_build (ok : head.build order = .ok built) :
    resolveDrawStates (order.arrange head.drawStates) = .ok built.drawStates := by
  obtain ⟨states, resolved, same⟩ := (build_again ok).mp ok
  rw [resolved, ← same]

theorem exists_build (ok : head.build order = .ok built) (other : Order) : ∃ rebuilt, head.build other = .ok rebuilt := by
  have names := exists_resolveDrawStates.mp ⟨_, resolve_of_build ok⟩
  have perm : (other.arrange head.drawStates).Perm (order.arrange head.drawStates) :=
    (other.arrange_perm head.drawStates).trans (order.arrange_perm head.drawStates).symm
  obtain ⟨states, resolved⟩ := exists_resolveDrawStates.mpr fun entry inside => names entry (perm.subset inside)
  exact ⟨_, (build_again ok).mpr ⟨states, resolved, rfl⟩⟩

theorem drawStates_eq_iff (ok : head.build order = .ok built) (aspect : Aspect) :
    (∀ other rebuilt, head.build other = .ok rebuilt →
      rebuilt.drawStates.lookup aspect = built.drawStates.lookup aspect) ↔ ¬ Disputed head.drawStates aspect := by
  have resolved := resolve_of_build ok
  have arranged := order.arrange_perm head.drawStates
  constructor
  · rintro same ⟨one, first, two, second, means, also, apart⟩
    -- Each of the two entries can come last, so it would give the aspect its number in every order.
    have last {entry : String × Int64} (inside : entry ∈ head.drawStates) (means : table.Means entry.1 aspect.code) :
        built.drawStates.lookup aspect = some entry.2 := by
      obtain ⟨entries, states, perm, reordered, settled⟩ :=
        exists_order_lookup resolved (arranged.symm.subset inside) means
      obtain ⟨other, rfl⟩ := Order.exists_arrange (perm.trans arranged)
      rw [← same other _ ((build_again ok).mpr ⟨states, reordered, rfl⟩)]
      exact settled
    exact apart (Option.some.inj ((last first means).symm.trans (last second also)))
  · intro agreed other rebuilt again
    obtain ⟨states, settled, rfl⟩ := (build_again ok).mp again
    exact lookup_of_perm ((other.arrange_perm _).trans arranged.symm)
      (fun disputed => agreed (disputed.perm arranged)) resolved settled

end Orders

/-- The entries for the draw states of a head can be met in any order. It is refused in every order or in none, and but
for its draw states it is the same in all of them. The draw state of an aspect is the same in all of them exactly if
no two entries dispute it, which takes both spellings of its name. -/
theorem build_orders (head : Head) :
    (∀ entries, entries.Perm head.drawStates ↔ ∃ order : Order, order.arrange head.drawStates = entries) ∧
    (∀ order other, (∃ built, head.build order = .ok built) ↔ ∃ built, head.build other = .ok built) ∧
    (∀ order built, head.build order = .ok built →
      (∀ other rebuilt, head.build other = .ok rebuilt → rebuilt = { built with drawStates := rebuilt.drawStates }) ∧
      ∀ aspect, (∀ other rebuilt, head.build other = .ok rebuilt →
        rebuilt.drawStates.lookup aspect = built.drawStates.lookup aspect) ↔ ¬ Disputed head.drawStates aspect) ∧
    ((head.drawStates.map (·.1)).Nodup → ∀ aspect, Disputed head.drawStates aspect ↔
      ∃ bare one two, (bare, aspect.code) ∈ table.entries ∧ (bare, one) ∈ head.drawStates ∧
        (table.lead ++ bare, two) ∈ head.drawStates ∧ one ≠ two) := by
  refine ⟨?_, ?_, ?_, fun distinct aspect => disputed_iff distinct⟩
  · intro entries
    constructor
    · exact Order.exists_arrange
    · rintro ⟨order, rfl⟩
      exact order.arrange_perm head.drawStates
  · intro order other
    constructor
    · rintro ⟨built, ok⟩
      exact exists_build ok other
    · rintro ⟨built, ok⟩
      exact exists_build ok order
  · intro order built ok
    refine ⟨?_, drawStates_eq_iff ok⟩
    intro other rebuilt again
    obtain ⟨states, _, rfl⟩ := (build_again ok).mp again
    rfl

/-- Two spellings of one aspect, with different numbers: the order decides which of them counts. -/
theorem build_orders_differ :
    let entries : List (String × Int64) := [("STOP", 100), ("SIGASP_STOP", 200)]
    let head : Head := { kind := "probe", drawStates := entries }
    (entries.map (·.1)).Nodup ∧ ∃ one two, head.build (fun _ => 0) = .ok one ∧ head.build (fun rest => rest) = .ok two ∧
      one.drawStates.lookup .stop = some 200 ∧ two.drawStates.lookup .stop = some 100 := by
  exact ⟨by decide, _, _, rfl, rfl, by decide, by decide⟩

end Head

end Layout

end Lineside
