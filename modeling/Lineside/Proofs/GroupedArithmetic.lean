import Lineside.Proofs.EvaluationSteps
import Lineside.Proofs.TermLevels
import Mathlib

/-! Parentheses as levels. An arithmetic expression with at most one group on each level of nesting is
written down as a flat list of terms; the list is worth what the expression is worth, and it makes the same
calls. The expression is reckoned in integers that wrap around at 64 bits. -/

namespace Lineside

/-- The integer that 64 bits make of a result. -/
def wrap (value : Int) : Int := value.bmod (2 ^ 64)

/-- Division truncates; dividing by zero gives zero, and so does its remainder. -/
def Operator.reckon : Operator → Int → Int → Int
  | .none, _, value => value
  | .multiply, total, value => wrap (total * value)
  | .plus, total, value => wrap (total + value)
  | .minus, total, value => wrap (total - value)
  | .divide, total, value => if value = 0 then 0 else wrap (total.tdiv value)
  | .modulo, total, value => if value = 0 then 0 else total.tmod value

def Parameter.reckon (parameter : Parameter) : Eval Int := do
  let value ← parameter.operand.value
  return if parameter.minus then wrap (-value.toInt) else value.toInt

namespace Expression

/-- The signs of an operand, and how it joins what stands before it. -/
structure Joining where
  operator : Operator := .none
  minus : Bool := false
  negate : Bool := false

/-- A call of a function, be it in the table or not. -/
structure Call where
  callee : Callee
  params : List Parameter := []
  called : callee ≠ .none
  continues : callee ≠ .returning

/-- An operand that is not a group. -/
inductive Atom where
  | leaf (parameter : Parameter)
  | call (call : Call)

namespace Joining

/-- The minus comes before the logical opposite. -/
def signed (joining : Joining) (value : Int) : Int :=
  let value := if joining.minus then wrap (-value) else value
  if joining.negate then if value = 0 then 1 else 0 else value

def join (joining : Joining) (total value : Int) : Int := joining.operator.reckon total (joining.signed value)

end Joining

namespace Call

/-- A parameter that is not given is zero. -/
def param (call : Call) (index : Nat) : Eval Int :=
  match call.params[index]? with
  | some parameter => parameter.reckon
  | none => pure 0

def value (call : Call) : Eval Int := do
  let p1 ← call.param 0
  let p2 ← call.param 1
  Int64.toInt <$> (Step.call call.callee call.params.length (.ofInt p1) (.ofInt p2)).run

end Call

def Atom.value : Atom → Eval Int
  | .leaf parameter => parameter.reckon
  | .call request => request.value

/-- Reckons from left to right, without precedence. -/
def fold (operands : List (Joining × Atom)) (total : Int) : Eval Int :=
  operands.foldlM (fun total operand => operand.1.join total <$> operand.2.value) total

end Expression

open Expression in
/-- An arithmetic expression in which no level of nesting has a second group. -/
inductive Expression where
  | simple (operands : List (Joining × Atom))
  | grouped (front : List (Joining × Atom)) (joining : Joining) (group : Expression) (back : List (Joining × Atom))

namespace Expression

def value : Expression → Eval Int
  | .simple operands => fold operands 0
  | .grouped front joining group back => do
    let total ← fold front 0
    let inner ← group.value
    fold back (joining.join total inner)

/-! How an expression is written. -/

structure Joining.Writes (joining : Joining) (term : Term) : Prop where
  operator : term.operator = joining.operator
  minus : term.minus = joining.minus
  negate : term.negate = joining.negate

def Atom.Writes : Atom → Term → Prop
  | .leaf parameter, term => term.function = .none ∧ term.params = [some parameter]
  | .call request, term => term.function = request.callee ∧ term.params = request.params.map some

def Writes (operand : Joining × Atom) (term : Term) : Prop := operand.1.Writes term ∧ operand.2.Writes term

/-- A list has the operands of an expression on the level of their depth, in their order, with an opener in
place of the group. Where terms of different levels stand is left open, and so is by how much the second level
of an opener exceeds its first. -/
def Written : Expression → Int64 → List Term → Prop
  | .simple operands, level, terms => List.Forall₂ Writes operands (levelTerms terms level)
  | .grouped front joining group back, level, terms =>
    ∃ first opener last, levelTerms terms level = first ++ opener :: last ∧ List.Forall₂ Writes front first ∧
      joining.Writes opener ∧ opener.opens = true ∧ List.Forall₂ Writes back last ∧ group.Written (level + 1) terms

end Expression

/-! The arithmetic of terms, in integers. -/

theorem toInt_eq_zero (value : Int64) : value.toInt = 0 ↔ value = 0 := by
  rw [← Int64.toInt_zero, Int64.toInt_inj]

theorem toInt_ofBool (b : Bool) : (ofBool b).toInt = if b then 1 else 0 := by
  cases b <;> rfl

theorem Operator.toInt_apply (operator : Operator) (total value : Int64) :
    (operator.apply total value).toInt = operator.reckon total.toInt value.toInt := by
  cases operator with
  | none => rfl
  | multiply => exact Int64.toInt_mul total value
  | plus => exact Int64.toInt_add total value
  | minus => exact Int64.toInt_sub total value
  | divide =>
    by_cases zero : value = 0
    · simp [apply, reckon, zero]
    · simp [apply, reckon, zero, toInt_eq_zero, wrap, Int64.toInt_div]
  | modulo =>
    by_cases zero : value = 0
    · simp [apply, reckon, zero]
    · simp [apply, reckon, zero, toInt_eq_zero, Int64.toInt_mod]

theorem toInt_parameterValue (parameter : Parameter) :
    Int64.toInt <$> parameterValue (some parameter) = parameter.reckon := by
  simp only [parameterValue, Parameter.reckon, map_bind, map_pure]
  congr 1
  funext value
  by_cases minus : parameter.minus = true
  · simp [minus, wrap, Int64.toInt_neg]
  · simp [minus]

namespace Expression

theorem Joining.Writes.toInt_signed {joining : Joining} {term : Term} (writes : joining.Writes term) (value : Int64) :
    (term.signed value).toInt = joining.signed value.toInt := by
  have minus : (if term.minus then -value else value).toInt =
      if joining.minus then wrap (-value.toInt) else value.toInt := by
    rw [writes.minus]
    by_cases minus : joining.minus = true
    · simp [minus, wrap, Int64.toInt_neg]
    · simp [minus]
  simp only [Term.signed, Joining.signed, writes.negate, ← minus]
  by_cases negate : joining.negate = true
  · simp only [negate, if_true, toInt_eq_zero, toInt_ofBool, beq_iff_eq]
  · simp [negate]

theorem Joining.Writes.toInt_join {joining : Joining} {term : Term} (writes : joining.Writes term)
    (total value : Int64) :
    (term.operator.apply total (term.signed value)).toInt = joining.join total.toInt value.toInt := by
  rw [Operator.toInt_apply, writes.toInt_signed, writes.operator, Joining.join]

theorem Call.toInt_param (call : Call) (index : Nat) :
    Int64.toInt <$> parameterValueAt (call.params.map some) index = call.param index := by
  unfold parameterValueAt Call.param
  rw [List.getElem?_map]
  cases call.params[index]? with
  | none => rfl
  | some parameter => exact toInt_parameterValue parameter

theorem Atom.Writes.toInt_unsigned {atom : Atom} {term : Term} (writes : atom.Writes term) (deeper : Eval Int64) :
    Int64.toInt <$> term.unsigned deeper = atom.value := by
  cases atom with
  | leaf parameter =>
    obtain ⟨function, params⟩ := writes
    have closed : term.opens = false := by simp [Term.opens, params]
    simp only [Term.unsigned, function, closed, params]
    exact toInt_parameterValue parameter
  | call request =>
    obtain ⟨function, params⟩ := writes
    simp only [Term.unsigned, function, params, Atom.value, Call.value, ← Call.toInt_param]
    simp [request.called, Step.run]

theorem fold_cons (operand : Joining × Atom) (rest : List (Joining × Atom)) (total : Int) :
    fold (operand :: rest) total = (do
      let value ← operand.2.value
      fold rest (operand.1.join total value)) := by
  simp only [fold, List.foldlM_cons, bind_map_left]

theorem toInt_foldTerms {operands : List (Joining × Atom)} {terms : List Term}
    (writes : List.Forall₂ Writes operands terms) (deeper : Eval Int64) (total : Int64) :
    Int64.toInt <$> foldTerms deeper terms total = fold operands total.toInt := by
  induction writes generalizing total with
  | nil => rfl
  | @cons operand term operands terms first _ ih =>
    rw [foldTerms_cons, fold_cons, ← first.2.toInt_unsigned deeper, map_bind, bind_map_left]
    simp only [ih, first.1.toInt_join]

/-- The group is evaluated where its opener stands. -/
theorem toInt_foldTerms_opener {joining : Joining} {opener : Term} (writes : joining.Writes opener)
    (opens : opener.opens = true) {back : List (Joining × Atom)} {last : List Term}
    (after : List.Forall₂ Writes back last) (deeper : Eval Int64) (total : Int64) :
    Int64.toInt <$> foldTerms deeper (opener :: last) total = (do
      let inner ← Int64.toInt <$> deeper
      fold back (joining.join total.toInt inner)) := by
  have unsigned : opener.unsigned deeper = deeper := by
    have plain : opener.function = .none := by
      simp only [Term.opens, Bool.and_eq_true, beq_iff_eq] at opens
      exact opens.1.1
    simp [Term.unsigned, plain, opens]
  rw [foldTerms_cons, unsigned, map_bind, bind_map_left]
  simp only [toInt_foldTerms after, writes.toInt_join]

theorem toInt_evalTerms {expression : Expression} {level : Int64} {terms : List Term}
    (written : expression.Written level terms) :
    Int64.toInt <$> evalTerms (terms.map some) level = expression.value := by
  induction expression generalizing level with
  | simple operands =>
    rw [evalTerms_eq]
    exact toInt_foldTerms written _ 0
  | grouped front joining group back ih =>
    obtain ⟨first, opener, last, here, before, writes, opens, after, inside⟩ := written
    rw [evalTerms_eq, here, foldTerms_append, map_bind]
    simp only [toInt_foldTerms_opener writes opens after, ih inside]
    have beginning := toInt_foldTerms before (evalTerms (terms.map some) (level + 1)) 0
    rw [Expression.value, ← Int64.toInt_zero, ← beginning, bind_map_left]

/-! The text of an expression. -/

/-- How often groups are nested. -/
def depth : Expression → Nat
  | .simple _ => 0
  | .grouped _ _ group _ => group.depth + 1

def Joining.opener (joining : Joining) (level : Int64) : Term :=
  { operator := joining.operator, minus := joining.minus, negate := joining.negate, sublevel := level
    sublevel2 := level + 1 }

def term (level : Int64) : Joining × Atom → Term
  | (joining, .leaf parameter) => { joining.opener level with params := [some parameter] }
  | (joining, .call request) =>
    { joining.opener level with function := request.callee, params := request.params.map some }

/-- The terms in the order in which the operands are read, each group behind its opener. -/
def text : Expression → Int64 → List Term
  | .simple operands, level => operands.map (term level)
  | .grouped front joining group back, level =>
    front.map (term level) ++ [joining.opener level] ++ group.text (level + 1) ++ back.map (term level)

theorem mem_terms {operands : List (Joining × Atom)} {level : Int64} {entry : Term}
    (member : entry ∈ operands.map (term level)) : entry.sublevel = level ∧ entry.returns = false := by
  obtain ⟨⟨joining, parameter | request⟩, _, rfl⟩ := List.mem_map.mp member
  · exact ⟨rfl, rfl⟩
  · exact ⟨rfl, by simp [term, Term.returns, request.continues]⟩

theorem writes_terms (operands : List (Joining × Atom)) (level : Int64) :
    List.Forall₂ Writes operands (operands.map (term level)) := by
  rw [List.forall₂_map_right_iff, List.forall₂_same]
  intro ⟨joining, atom⟩ _
  cases atom <;> exact ⟨⟨rfl, rfl, rfl⟩, rfl, rfl⟩

theorem levelTerms_terms (operands : List (Joining × Atom)) (level : Int64) :
    levelTerms (operands.map (term level)) level = operands.map (term level) := by
  apply levelTerms_self
  · intro entry member
    exact (mem_terms member).1
  · intro entry member
    exact (mem_terms member).2

theorem toInt_succ {level : Int64} (room : level.toInt + 1 < 2 ^ 63) : (level + 1).toInt = level.toInt + 1 := by
  have lower := level.le_toInt
  rw [Int64.toInt_add, Int64.toInt_one, Int.bmod_eq_of_le] <;> omega

/-- No term of a text lies below its level, and none is a return marker. -/
theorem mem_text {expression : Expression} {level : Int64} (room : level.toInt + expression.depth < 2 ^ 63)
    {entry : Term} (member : entry ∈ expression.text level) :
    level.toInt ≤ entry.sublevel.toInt ∧ entry.returns = false := by
  induction expression generalizing level with
  | simple operands =>
    obtain ⟨here, continues⟩ := mem_terms member
    exact ⟨Int.le_of_eq (by rw [here]), continues⟩
  | grouped front joining group back ih =>
    simp only [depth] at room
    have next : (level + 1).toInt = level.toInt + 1 := toInt_succ (by omega)
    simp only [text, List.mem_append, List.mem_singleton] at member
    obtain ((inside | rfl) | inside) | inside := member
    · obtain ⟨here, continues⟩ := mem_terms inside
      exact ⟨Int.le_of_eq (by rw [here]), continues⟩
    · exact ⟨Int.le_refl _, rfl⟩
    · have deep := ih (by omega) inside
      exact ⟨by omega, deep.2⟩
    · obtain ⟨here, continues⟩ := mem_terms inside
      exact ⟨Int.le_of_eq (by rw [here]), continues⟩

/-- Whether a list holds an expression depends on the levels from the first one on. -/
theorem Written.congr {expression : Expression} {level : Int64} {terms others : List Term}
    (written : expression.Written level terms)
    (same : ∀ deeper, level ≤ deeper → levelTerms terms deeper = levelTerms others deeper) :
    expression.Written level others := by
  induction expression generalizing level with
  | simple operands =>
    rw [Written, ← same level Int64.le_rfl]
    exact written
  | grouped front joining group back ih =>
    obtain ⟨first, opener, last, here, before, writes, opens, after, inside⟩ := written
    refine ⟨first, opener, last, (same level Int64.le_rfl).symm.trans here, before, writes, opens, after, ?_⟩
    have place : opener.sublevel = level := (mem_levelTerms (here ▸ by simp : opener ∈ levelTerms terms level)).2
    have below : level < level + 1 := place ▸ opener.lt_succ_of_opens opens
    apply ih inside
    intro deeper deep
    exact same deeper (Int64.le_trans (Int64.le_of_lt below) deep)

theorem written_text {expression : Expression} {level : Int64} (room : level.toInt + expression.depth < 2 ^ 63) :
    expression.Written level (expression.text level) := by
  induction expression generalizing level with
  | simple operands =>
    rw [Written, text, levelTerms_terms]
    exact writes_terms operands level
  | grouped front joining group back ih =>
    have split (deeper : Int64) : levelTerms ((grouped front joining group back).text level) deeper =
        levelTerms (front.map (term level)) deeper ++ levelTerms [joining.opener level] deeper ++
          levelTerms (group.text (level + 1)) deeper ++ levelTerms (back.map (term level)) deeper := by
      have continues := fun entry (member : entry ∈ (grouped front joining group back).text level) =>
        (mem_text room member).2
      rw [text] at continues ⊢
      simp only [List.forall_mem_append] at continues
      rw [levelTerms_append, levelTerms_append, levelTerms_append]
      · exact continues.1.1.1
      · exact List.forall_mem_append.mpr continues.1.1
      · simpa only [List.forall_mem_append] using continues.1
    simp only [depth] at room
    have next : (level + 1).toInt = level.toInt + 1 := toInt_succ (by omega)
    have inner : (level + 1).toInt + group.depth < 2 ^ 63 := by omega
    refine ⟨front.map (term level), joining.opener level, back.map (term level), ?_, writes_terms front level,
      ⟨rfl, rfl, rfl⟩, ?_, writes_terms back level, ?_⟩
    · have group : levelTerms (group.text (level + 1)) level = [] := by
        apply levelTerms_eq_nil
        intro entry member here
        have deep := (mem_text inner member).1
        rw [here] at deep
        omega
      have opener : levelTerms [joining.opener level] level = [joining.opener level] := by
        apply levelTerms_self <;> simp [Joining.opener, Term.returns]
      rw [split, levelTerms_terms, levelTerms_terms, group, opener]
      simp
    · have below : level < level + 1 := by
        rw [Int64.lt_iff_toInt_lt, next]
        omega
      simp [Term.opens, Joining.opener, below]
    · apply (ih inner).congr
      intro deeper deep
      have apart : level ≠ deeper := by
        rintro rfl
        rw [Int64.le_iff_toInt_le, next] at deep
        omega
      have outer (operands : List (Joining × Atom)) : levelTerms (operands.map (term level)) deeper = [] := by
        apply levelTerms_eq_nil
        intro entry member here
        exact apart ((mem_terms member).1.symm.trans here)
      have opener : levelTerms [joining.opener level] deeper = [] := by
        apply levelTerms_eq_nil
        simpa [Joining.opener] using apart
      rw [split, outer, outer, opener]
      simp

/-- Every list that holds an expression level by level is worth what the expression is worth, and leaves every
invocation as reckoning the expression does, calls and their order included. The text of an expression is such a
list, as long as its levels can be numbered. -/
theorem evalTerms_expression (expression : Expression) :
    (∀ terms, expression.Written 0 terms → ∀ before,
      (Int64.toInt <$> evalTerms (terms.map some) 0).run.run before = expression.value.run.run before) ∧
    (expression.depth < 2 ^ 63 → expression.Written 0 (expression.text 0)) := by
  constructor
  · intro terms written before
    rw [toInt_evalTerms written]
  · intro room
    apply written_text
    rw [Int64.toInt_zero]
    omega

private def number (value : Int64) : Atom := .leaf { operand := .constant value }

/-- `-2^63 / -1 - NOT (3 + -(4 - 1))`. -/
private def extreme : Expression :=
  .grouped [({}, number (-9223372036854775808)), ({ operator := .divide }, number (-1))]
    { operator := .minus, negate := true }
    (.grouped [({}, number 3)] { operator := .plus, minus := true }
      (.simple [({}, number 4), ({ operator := .minus }, number 1)]) []) []

/-- Its operands with the innermost group in front, and openers that exceed their level by different amounts. -/
private def scattered : List Term :=
  [{ params := [some { operand := .constant 4 }], sublevel := 2 },
    { params := [some { operand := .constant (-9223372036854775808) }] },
    { params := [some { operand := .constant 1 }], operator := .minus, sublevel := 2 },
    { params := [some { operand := .constant (-1) }], operator := .divide, sublevel2 := 3 },
    { params := [some { operand := .constant 3 }], sublevel := 1 },
    { operator := .minus, negate := true, sublevel2 := 9 },
    { operator := .plus, minus := true, sublevel := 1, sublevel2 := 2 }]

theorem evalTerms_expression_scattered :
    extreme.Written 0 scattered ∧ extreme.depth < 2 ^ 63 ∧ extreme.Written 0 (extreme.text 0) ∧
      ∀ before, (Int64.toInt <$> evalTerms (scattered.map some) 0).run.run before = (.ok 9223372036854775807, before) := by
  have written : extreme.Written 0 scattered := by
    refine ⟨[_, _], { operator := .minus, negate := true, sublevel2 := 9 }, [], rfl, ?_, ⟨rfl, rfl, rfl⟩, rfl, .nil, ?_⟩
    · exact .cons ⟨⟨rfl, rfl, rfl⟩, rfl, rfl⟩ (.cons ⟨⟨rfl, rfl, rfl⟩, rfl, rfl⟩ .nil)
    · refine ⟨[_], { operator := .plus, minus := true, sublevel := 1, sublevel2 := 2 }, [], rfl, ?_, ⟨rfl, rfl, rfl⟩, rfl,
        .nil, ?_⟩
      · exact .cons ⟨⟨rfl, rfl, rfl⟩, rfl, rfl⟩ .nil
      · exact .cons ⟨⟨rfl, rfl, rfl⟩, rfl, rfl⟩ (.cons ⟨⟨rfl, rfl, rfl⟩, rfl, rfl⟩ .nil)
  have shallow : extreme.depth < 2 ^ 63 := by decide
  refine ⟨written, shallow, (evalTerms_expression extreme).2 shallow, ?_⟩
  intro before
  exact (evalTerms_expression extreme).1 scattered written before

end Expression

end Lineside
