import Lineside.Script.Evaluation

/-! Only the order within a level matters. A term list is worth what its levels are worth: of two lists
that agree level by level, from the starting level on and up to the first return marker, neither can be
told from the other. -/

namespace Lineside

/-- The terms of a level, up to the first return marker. -/
def levelTerms (terms : List Term) (level : Int64) : List Term :=
  (terms.takeWhile (!·.returns)).filter (·.sublevel == level)

/-- Folds terms, all of them on one level, into a running value. -/
def foldTerms (deeper : Eval Int64) (terms : List Term) (total : Int64) : Eval Int64 :=
  terms.foldlM (fun total term => term.operator.apply total <$> term.value deeper) total

theorem levelTerms_cons (term : Term) (rest : List Term) (level : Int64) :
    levelTerms (term :: rest) level =
      if term.returns then [] else if term.sublevel = level then term :: levelTerms rest level
      else levelTerms rest level := by
  by_cases returns : term.returns = true
  · simp [levelTerms, returns]
  · by_cases here : term.sublevel = level
    · simp [levelTerms, returns, here]
    · simp [levelTerms, returns, here]

theorem levelTerms_append {front : List Term} (continues : ∀ term ∈ front, term.returns = false) (back : List Term)
    (level : Int64) : levelTerms (front ++ back) level = levelTerms front level ++ levelTerms back level := by
  induction front with
  | nil => rfl
  | cons term front ih =>
    obtain ⟨first, others⟩ := List.forall_mem_cons.mp continues
    rw [List.cons_append, levelTerms_cons, levelTerms_cons, ih others]
    by_cases here : term.sublevel = level
    · simp [first, here]
    · simp [first, here]

theorem levelTerms_self {terms : List Term} {level : Int64} (here : ∀ term ∈ terms, term.sublevel = level)
    (continues : ∀ term ∈ terms, term.returns = false) : levelTerms terms level = terms := by
  induction terms with
  | nil => rfl
  | cons term rest ih =>
    obtain ⟨place, places⟩ := List.forall_mem_cons.mp here
    obtain ⟨first, others⟩ := List.forall_mem_cons.mp continues
    simp [levelTerms_cons, place, first, ih places others]

theorem mem_levelTerms {terms : List Term} {level : Int64} {term : Term} (member : term ∈ levelTerms terms level) :
    term ∈ terms ∧ term.sublevel = level := by
  obtain ⟨inside, here⟩ := List.mem_filter.mp member
  exact ⟨(List.takeWhile_sublist _).subset inside, by simpa using here⟩

theorem levelTerms_eq_nil {terms : List Term} {level : Int64} (elsewhere : ∀ term ∈ terms, term.sublevel ≠ level) :
    levelTerms terms level = [] := by
  rw [List.eq_nil_iff_forall_not_mem]
  intro term member
  obtain ⟨inside, here⟩ := mem_levelTerms member
  exact elsewhere term inside here

theorem foldTerms_cons (deeper : Eval Int64) (term : Term) (rest : List Term) (total : Int64) :
    foldTerms deeper (term :: rest) total = (do
      let value ← term.unsigned deeper
      foldTerms deeper rest (term.operator.apply total (term.signed value))) := by
  simp only [foldTerms, List.foldlM_cons, Term.value, bind_map_left]

theorem foldTerms_append (deeper : Eval Int64) (first last : List Term) (total : Int64) :
    foldTerms deeper (first ++ last) total = foldTerms deeper first total >>= foldTerms deeper last :=
  List.foldlM_append

theorem foldLevel_eq (deeper : Eval Int64) (level : Int64) (terms : List Term) (total : Int64) :
    foldLevel deeper level (terms.map some) total = foldTerms deeper (levelTerms terms level) total := by
  induction terms generalizing total with
  | nil => rfl
  | cons term rest ih =>
    rw [List.map_cons, foldLevel, levelTerms_cons]
    by_cases returns : term.returns = true
    · simp [foldTerms, returns]
    · by_cases here : term.sublevel = level
      · simp [returns, here, ih, foldTerms]
      · simp [returns, here, ih]

/-- Only a term that opens a level asks for the value below it. -/
theorem Term.value_congr {term : Term} {deeper other : Eval Int64} (same : term.opens = true → deeper = other) :
    term.value deeper = term.value other := by
  unfold Term.value Term.unsigned
  by_cases opens : term.opens = true
  · rw [same opens]
  · simp only [opens, Bool.false_eq_true, if_false]

theorem foldTerms_congr {deeper other : Eval Int64} {terms : List Term}
    (same : ∀ term ∈ terms, term.opens = true → deeper = other) (total : Int64) :
    foldTerms deeper terms total = foldTerms other terms total := by
  unfold foldTerms
  induction terms generalizing total with
  | nil => rfl
  | cons term rest ih =>
    have first : term.value deeper = term.value other := Term.value_congr (same term List.mem_cons_self)
    have others := ih fun term member => same term (List.mem_cons_of_mem _ member)
    simp only [List.foldlM_cons, first, others]

theorem opensAt_of_mem {terms : List Term} {level : Int64} {term : Term} (member : term ∈ levelTerms terms level)
    (opens : term.opens = true) : opensAt (terms.map some) level = true := by
  obtain ⟨inside, here⟩ := mem_levelTerms member
  refine List.any_eq_true.mpr ⟨some term, List.mem_map_of_mem inside, ?_⟩
  simp [here, opens]

theorem Term.lt_succ_of_opens {term : Term} (opens : term.opens = true) : term.sublevel < term.sublevel + 1 := by
  simp only [Term.opens, Bool.and_eq_true, decide_eq_true_eq] at opens
  exact level_lt_succ opens.2

/-- The value of a list is the fold of one level, in which openers stand for the value of the next. -/
theorem evalTerms_eq (terms : List Term) (level : Int64) :
    evalTerms (terms.map some) level =
      foldTerms (evalTerms (terms.map some) (level + 1)) (levelTerms terms level) 0 := by
  rw [evalTerms, foldLevel_eq]
  apply foldTerms_congr
  intro term member opens
  exact if_pos (opensAt_of_mem member opens)

theorem evalTerms_congr {first second : List Term} (level : Int64)
    (same : ∀ deeper, level ≤ deeper → levelTerms first deeper = levelTerms second deeper) :
    evalTerms (first.map some) level = evalTerms (second.map some) level := by
  rw [evalTerms_eq first, evalTerms_eq second, ← same level Int64.le_rfl]
  apply foldTerms_congr
  intro term member opens
  have here : term.sublevel = level := (mem_levelTerms member).2
  have below : level < level + 1 := here ▸ term.lt_succ_of_opens opens
  apply evalTerms_congr
  intro deeper deep
  exact same deeper (Int64.le_trans (Int64.le_of_lt below) deep)
termination_by depthFrom (first.map some) level
decreasing_by exact depthFrom_succ_lt (opensAt_of_mem member opens)

/-! What no level notices. -/

theorem levelTerms_append_marker {marker : Term} (returns : marker.returns = true) (front rest : List Term)
    (level : Int64) : levelTerms (front ++ marker :: rest) level = levelTerms front level := by
  induction front with
  | nil => simp [levelTerms, returns]
  | cons term front ih => rw [List.cons_append, levelTerms_cons, levelTerms_cons, ih]

theorem levelTerms_reduced {level deeper : Int64} (deep : level ≤ deeper) (terms : List Term) :
    levelTerms (terms.filter fun term => term.returns || decide (level ≤ term.sublevel)) deeper =
      levelTerms terms deeper := by
  induction terms with
  | nil => rfl
  | cons term rest ih =>
    rw [List.filter_cons]
    split
    next => rw [levelTerms_cons, levelTerms_cons, ih]
    next dropped =>
      rw [ih, levelTerms_cons]
      simp only [Bool.or_eq_true, decide_eq_true_eq, not_or] at dropped
      have elsewhere : term.sublevel ≠ deeper := by
        intro here
        exact dropped.2 (here ▸ deep)
      rw [if_neg dropped.1, if_neg elsewhere]

theorem levelTerms_swap {one two : Term} (apart : one.sublevel ≠ two.sublevel) (first : one.returns = false)
    (second : two.returns = false) (front back : List Term) (level : Int64) :
    levelTerms (front ++ one :: two :: back) level = levelTerms (front ++ two :: one :: back) level := by
  induction front with
  | nil =>
    simp only [List.nil_append, levelTerms_cons, first, second, Bool.false_eq_true, if_false]
    by_cases here : one.sublevel = level
    · have elsewhere : two.sublevel ≠ level := fun also => apart (here.trans also.symm)
      simp only [here, elsewhere, if_true, if_false]
    · simp only [here, if_false]
  | cons term front ih => rw [List.cons_append, List.cons_append, levelTerms_cons, levelTerms_cons, ih]

/-- Two term lists that have the same terms on every level from the starting one on, as far as the first return
marker, do the same to every invocation. So it matters neither what follows a return marker, on whatever level the
marker is, nor what lies below the starting level, nor how terms of different levels are interleaved. -/
theorem evalTerms_levelwise (level : Int64) (before : Invocation) :
    (∀ first second : List Term,
      (∀ deeper, level ≤ deeper → levelTerms first deeper = levelTerms second deeper) →
        (evalTerms (first.map some) level).run.run before = (evalTerms (second.map some) level).run.run before) ∧
    (∀ (front rest : List Term) (marker : Term), marker.returns = true →
      (evalTerms ((front ++ marker :: rest).map some) level).run.run before =
        (evalTerms (front.map some) level).run.run before) ∧
    (∀ terms : List Term,
      (evalTerms ((terms.filter fun term => term.returns || decide (level ≤ term.sublevel)).map some) level).run.run
          before = (evalTerms (terms.map some) level).run.run before) ∧
    ∀ (front back : List Term) (one two : Term), one.sublevel ≠ two.sublevel → one.returns = false →
      two.returns = false →
        (evalTerms ((front ++ one :: two :: back).map some) level).run.run before =
          (evalTerms ((front ++ two :: one :: back).map some) level).run.run before := by
  refine ⟨?_, ?_, ?_, ?_⟩
  · intro first second same
    rw [evalTerms_congr level same]
  · intro front rest marker returns
    rw [evalTerms_congr level fun deeper _ => levelTerms_append_marker returns front rest deeper]
  · intro terms
    rw [evalTerms_congr level fun deeper deep => levelTerms_reduced deep terms]
  · intro front back one two apart first second
    rw [evalTerms_congr level fun deeper _ => levelTerms_swap apart first second front back deeper]

private def amount (operator : Operator) (value level : Int64) : Term :=
  { params := [some { operand := .constant value }], operator, sublevel := level }

/-- `(1 + 2 + 4) * 3`, with the group in one piece. -/
private def gathered : List Term :=
  [{ sublevel2 := 1 }, amount .none 1 1, amount .plus 2 1, amount .plus 4 1, amount .multiply 3 0]

/-- The same with the group in two pieces, and with terms that no level from zero on can see. -/
private def spread : List Term :=
  [amount .none 9 (-1), { sublevel2 := 1 }, amount .none 1 1, amount .plus 2 1, amount .multiply 3 0,
    amount .plus 4 1, { function := .returning, sublevel := 7 }, amount .plus 100 0]

private theorem spread_alike (deeper : Int64) (deep : 0 ≤ deeper) :
    levelTerms spread deeper = levelTerms gathered deeper := by
  have above : deeper ≠ -1 := by
    rintro rfl
    exact absurd deep (by decide)
  by_cases top : deeper = 0
  · subst top
    rfl
  · by_cases inner : deeper = 1
    · subst inner
      rfl
    · simp [levelTerms, spread, gathered, amount, Term.returns, Ne.symm above, Ne.symm top, Ne.symm inner]

theorem evalTerms_levelwise_spread :
    (∀ deeper, 0 ≤ deeper → levelTerms spread deeper = levelTerms gathered deeper) ∧
      ∀ before, (evalTerms (spread.map some) 0).run.run before = (.ok 21, before) := by
  refine ⟨spread_alike, ?_⟩
  intro before
  have inner : evalTerms (gathered.map some) (0 + 1) = pure 7 := by
    rw [evalTerms_eq]
    rfl
  rw [(evalTerms_levelwise 0 before).1 spread gathered spread_alike, evalTerms_eq, inner]
  rfl

end Lineside
