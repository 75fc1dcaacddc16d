import Mathlib.Data.Finset.Dedup
import Mathlib.Data.Finset.Filter
import Mathlib.Data.Finset.Card
import Mathlib.Logic.Function.Iterate
import Lineside.Proofs.TermLevels

/-! Evaluating a term list goes down one level at a time. Every nested evaluation reads the same list from its start,
so what grows less is not the list but the set of levels that are still to come, and a level is only left for the one
below it where the level number can be counted up. -/

namespace Lineside

/-- One pass over a term list, for the terms of a level. What an opener stands for is asked of `deeper`, by number of
level. -/
def pass (terms : List Term) (deeper : Int64 → Eval Int64) (level : Int64) : Eval Int64 :=
  go terms 0
where
  go : List Term → Int64 → Eval Int64
    | [], total => pure total
    | term :: rest, total =>
      if term.returns then pure total
      else if term.sublevel ≠ level then go rest total
      else do
        let value ← term.value (deeper (term.sublevel + 1))
        go rest (term.operator.apply total value)

/-- The levels on which a list has terms. -/
def sublevels (terms : List Term) : Finset Int64 := (terms.map (·.sublevel)).toFinset

section Pass

variable (terms : List Term) (deeper : Int64 → Eval Int64) (level : Int64)

private theorem pass_go_eq (rest : List Term) (total : Int64) :
    pass.go deeper level rest total = foldTerms (deeper (level + 1)) (levelTerms rest level) total := by
  induction rest generalizing total with
  | nil => rfl
  | cons term rest ih =>
    rw [pass.go, levelTerms_cons]
    by_cases returns : term.returns = true
    · simp [foldTerms, returns]
    · by_cases here : term.sublevel = level
      · simp [returns, here, ih, foldTerms]
      · simp [returns, here, ih]

/-- The openers of a level all ask for the same one. -/
theorem pass_eq : pass terms deeper level = foldTerms (deeper (level + 1)) (levelTerms terms level) 0 :=
  pass_go_eq deeper level terms 0

theorem evalTerms_eq_pass : evalTerms (terms.map some) level = pass terms (evalTerms (terms.map some)) level := by
  rw [evalTerms_eq, pass_eq]

end Pass

variable {terms : List Term} {level : Int64} {deeper other : Int64 → Eval Int64}

/-- An opener leaves room for the level below it, also next to the largest number. -/
theorem toInt_succ_of_lt {bound : Int64} (below : level < bound) : (level + 1).toInt = level.toInt + 1 := by
  rw [Int64.lt_iff_toInt_lt] at below
  have upper := bound.toInt_lt
  have lower := level.le_toInt
  rw [Int64.toInt_add, Int64.toInt_one, Int.bmod_eq_of_le (by omega) (by omega)]

theorem Term.lt_of_opens {term : Term} (opens : term.opens = true) : term.sublevel < term.sublevel2 := by
  simp only [Term.opens, Bool.and_eq_true, decide_eq_true_eq] at opens
  exact opens.2

/-- A pass asks for nothing but the next level, and for that only if there is one. -/
theorem pass_congr (same : ∀ next, level < next → next.toInt = level.toInt + 1 → deeper next = other next) :
    pass terms deeper level = pass terms other level := by
  rw [pass_eq, pass_eq]
  apply foldTerms_congr
  intro term member opens
  obtain ⟨_, rfl⟩ := mem_levelTerms member
  exact same _ (term.lt_succ_of_opens opens) (toInt_succ_of_lt (Term.lt_of_opens opens))

/-- Below a level that is opened, one level fewer is to come. -/
theorem sublevels_succ_lt {term : Term} (member : term ∈ levelTerms terms level) (opens : term.opens = true) :
    ((sublevels terms).filter (level + 1 ≤ ·)).card < ((sublevels terms).filter (level ≤ ·)).card := by
  obtain ⟨inside, rfl⟩ := mem_levelTerms member
  have below := term.lt_succ_of_opens opens
  apply Finset.card_lt_card
  refine Finset.ssubset_iff_subset_ne.mpr ⟨?_, ?_⟩
  · refine Finset.monotone_filter_right _ fun next _ deep => ?_
    exact Int64.le_trans (Int64.le_of_lt below) deep
  · intro same
    have here : term.sublevel ∈ (sublevels terms).filter (term.sublevel ≤ ·) :=
      Finset.mem_filter.mpr ⟨List.mem_toFinset.mpr (List.mem_map_of_mem inside), Int64.le_rfl⟩
    rw [← same] at here
    exact Int64.not_lt.mpr (Finset.mem_filter.mp here).2 below

/-- As many passes inside each other as there are levels to come, and one more, leave nothing to be asked. -/
theorem pass_iterate (count : Nat) (enough : ((sublevels terms).filter (level ≤ ·)).card < count) :
    (pass terms)^[count] deeper level = evalTerms (terms.map some) level := by
  induction count generalizing level with
  | zero => omega
  | succ count ih =>
    rw [Function.iterate_succ_apply', pass_eq, evalTerms_eq]
    apply foldTerms_congr
    intro term member opens
    apply ih
    have fewer := sublevels_succ_lt member opens
    omega

/-- Evaluation is the recursion that asks for the value of a level by passing over the list once more. It asks only
for the level whose number is one greater than that of the current one, and never for one that this number would wrap
around to. Nor does it matter what would answer `beyond` as many evaluations inside each other as the list has
different levels, and one more, on whatever level the outermost one is: there evaluation has come to an end. -/
theorem evalTerms_descends (terms : List Term) :
    (∀ level, evalTerms (terms.map some) level = pass terms (evalTerms (terms.map some)) level) ∧
    (∀ (level : Int64) (deeper other : Int64 → Eval Int64),
      (∀ next, level < next → next.toInt = level.toInt + 1 → deeper next = other next) →
        pass terms deeper level = pass terms other level) ∧
    ∀ (level : Int64) (beyond : Int64 → Eval Int64),
      (pass terms)^[(sublevels terms).card + 1] beyond level = evalTerms (terms.map some) level := by
  refine ⟨evalTerms_eq_pass terms, ?_, ?_⟩
  · intro level deeper other same
    exact pass_congr same
  · intro level beyond
    apply pass_iterate
    exact Nat.lt_succ_of_le (Finset.card_filter_le _ _)

/-- Two groups inside each other, and a term on the greatest level that would wrap around if it were an opener. -/
private def stairs : List Term :=
  [{ sublevel2 := 1 }, { sublevel := 1, sublevel2 := 9 },
    { params := [some { operand := .constant 7 }], sublevel := 2 },
    { sublevel := Int64.maxValue, sublevel2 := Int64.maxValue }]

theorem evalTerms_descends_stairs :
    (sublevels stairs).card = 4 ∧
      (∀ before, ((pass stairs)^[5] (fun _ => throw .missingTerm) 0).run.run before = (.ok 7, before)) ∧
      ∀ deeper other, pass stairs deeper Int64.maxValue = pass stairs other Int64.maxValue := by
  have four : (sublevels stairs).card = 4 := by decide
  obtain ⟨_, next, enough⟩ := evalTerms_descends stairs
  refine ⟨four, ?_, ?_⟩
  · intro before
    have same := enough 0 fun _ => throw .missingTerm
    rw [four] at same
    rw [same, evalTerms_eq_pass, pass_eq, evalTerms_eq_pass, pass_eq, evalTerms_eq_pass]
    rfl
  · intro deeper other
    apply next
    intro level above
    exact absurd above (Int64.not_lt.mpr (Int64.le_maxValue level))

end Lineside
