import Lineside.Proofs.Outcomes
import Lineside.Proofs.WellFormed

/-! The verdict of the validator, node by node. A node may stand anywhere inside a script: in a body, an else-if body
or an else body at any depth. The validator reaches a verdict unless some statement begins with a missing term, and it
passes a script exactly if each of its nodes is sound for itself. -/

namespace Lineside

/-- A node stands in a list of nodes, or somewhere inside one of them. -/
inductive Occurs (node : Node) : List Node → Prop where
  | here {nodes : List Node} (member : node ∈ nodes) : Occurs node nodes
  | body {nodes body otherwise : List Node} {conditions : List Element} {arms : List Arm}
      (member : .branch conditions body arms otherwise ∈ nodes) (inside : Occurs node body) : Occurs node nodes
  | arm {nodes body otherwise tried : List Node} {conditions condition : List Element} {arms : List Arm}
      (member : .branch conditions body arms otherwise ∈ nodes) (arm : .arm condition tried ∈ arms)
      (inside : Occurs node tried) : Occurs node nodes
  | otherwise {nodes body otherwise : List Node} {conditions : List Element} {arms : List Arm}
      (member : .branch conditions body arms otherwise ∈ nodes) (inside : Occurs node otherwise) : Occurs node nodes

theorem Occurs.later {node first : Node} {rest : List Node} (occurs : Occurs node rest) :
    Occurs node (first :: rest) := by
  cases occurs with
  | here member => exact .here (List.mem_cons_of_mem first member)
  | body member inside => exact .body (List.mem_cons_of_mem first member) inside
  | arm member arm inside => exact .arm (List.mem_cons_of_mem first member) arm inside
  | otherwise member inside => exact .otherwise (List.mem_cons_of_mem first member) inside

section

variable {motive : List Node → Prop} (nil : motive []) (absent : ∀ rest, motive rest → motive (.absent :: rest))
  (statement : ∀ entry rest, motive rest → motive (.statement entry :: rest))
  (branch : ∀ conditions body arms otherwise rest, motive body →
    (∀ condition tried, .arm condition tried ∈ arms → motive tried) → motive otherwise → motive rest →
    motive (.branch conditions body arms otherwise :: rest))

include nil absent statement branch

set_option linter.unusedSectionVars false in
mutual

/-- Induction on lists of nodes, along with all lists of nodes inside them. -/
theorem nodes_induction : (nodes : List Node) → motive nodes
  | [] => nil
  | .absent :: rest => absent rest (nodes_induction rest)
  | .statement entry :: rest => statement entry rest (nodes_induction rest)
  | .branch conditions body arms otherwise :: rest =>
    branch conditions body arms otherwise rest (nodes_induction body) (arms_induction arms) (nodes_induction otherwise)
      (nodes_induction rest)

theorem arms_induction : (arms : List Arm) → ∀ condition tried, .arm condition tried ∈ arms → motive tried
  | [], _, _, member => by cases member
  | .absent :: rest, condition, tried, member =>
    arms_induction rest condition tried (List.mem_of_ne_of_mem (by simp) member)
  | .arm conditions body :: rest, condition, tried, member => by
    rcases List.mem_cons.mp member with same | inside
    · cases same
      exact nodes_induction body
    · exact arms_induction rest condition tried inside

end

end

/-- An else-if arm is there and has conditions to try. -/
def Arm.Sound (count : Int64) : Arm → Prop
  | .absent => False
  | .arm conditions _ => Conditions count conditions

/-- What is asked of a node, whatever stands inside its bodies. Nothing else is asked of a return. -/
def Node.Sound (count : Int64) : Node → Prop
  | .absent => False
  | .statement entry => entry.returns = .ok true ∨ entry.WellFormed count
  | .branch conditions _ arms _ => Conditions count conditions ∧ ∀ arm ∈ arms, arm.Sound count

section

variable {count : Int64}

theorem Node.WellFormed.sound {node : Node} (valid : node.WellFormed count) : node.Sound count := by
  cases valid with
  | leave returns => exact .inl returns
  | assign valid => exact .inr valid
  | branch test inside tried left =>
    refine ⟨test, ?_⟩
    intro arm member
    cases tried arm member with
    | arm test inside => exact test

/-- All that occurs in well-formed nodes is sound. -/
theorem Occurs.sound {node : Node} {nodes : List Node} (occurs : Occurs node nodes)
    (valid : ∀ node ∈ nodes, node.WellFormed count) : node.Sound count := by
  induction occurs with
  | here member => exact (valid _ member).sound
  | body member _ ih =>
    obtain ⟨_, inside, _⟩ := Node.wellFormed_branch.mp (valid _ member)
    exact ih inside
  | arm member arm _ ih =>
    obtain ⟨_, _, tried, _⟩ := Node.wellFormed_branch.mp (valid _ member)
    exact ih (Arm.wellFormed_arm.mp (tried _ arm)).2
  | otherwise member _ ih =>
    obtain ⟨_, _, _, left⟩ := Node.wellFormed_branch.mp (valid _ member)
    exact ih left

/-- Nodes are well formed if whatever occurs in them is sound. -/
theorem wellFormed_of_sound (nodes : List Node) (sound : ∀ node, Occurs node nodes → node.Sound count) :
    ∀ node ∈ nodes, node.WellFormed count := by
  induction nodes using nodes_induction with
  | nil =>
    intro node member
    cases member
  | absent rest ih => exact (sound .absent (.here List.mem_cons_self)).elim
  | statement entry rest ih =>
    rw [List.forall_mem_cons, Node.wellFormed_statement]
    refine ⟨sound (.statement entry) (.here List.mem_cons_self), ih ?_⟩
    intro node inside
    exact sound node inside.later
  | branch conditions body arms otherwise rest inside tried left ih =>
    have first := List.mem_cons_self (a := Node.branch conditions body arms otherwise) (l := rest)
    obtain ⟨test, present⟩ := sound _ (.here first)
    rw [List.forall_mem_cons, Node.wellFormed_branch]
    refine ⟨⟨test, inside ?_, ?_, left ?_⟩, ih ?_⟩
    · intro node occurs
      exact sound node (.body first occurs)
    · intro arm member
      cases arm with
      | absent => exact (present .absent member).elim
      | arm condition body =>
        rw [Arm.wellFormed_arm]
        refine ⟨present _ member, tried condition body member ?_⟩
        intro node occurs
        exact sound node (.arm first member occurs)
    · intro node occurs
      exact sound node (.otherwise first occurs)
    · intro node occurs
      exact sound node occurs.later

theorem wellFormed_iff_sound {nodes : List Node} :
    (∀ node ∈ nodes, node.WellFormed count) ↔ ∀ node, Occurs node nodes → node.Sound count := by
  constructor
  · intro valid node occurs
    exact occurs.sound valid
  · exact wellFormed_of_sound nodes

end

/-- Whether the statement is a return cannot be told, since its first term is missing. -/
def Statement.Headless (statement : Statement) : Prop := statement.terms.head? = some none

namespace Validation

variable (count : Int64)

theorem statement_total {entry : Statement} (headed : ¬ entry.Headless) :
    ∃ found, statement count entry = .ok found := by
  obtain ⟨target, terms⟩ := entry
  -- A first term that is there tells whether this is a return, and so do no terms at all.
  rcases terms with _ | ⟨_ | term, rest⟩
  · exact ⟨_, rfl⟩
  · exact absurd rfl headed
  · simp only [statement, Statement.returns, ok_bind]
    split <;> exact ⟨_, rfl⟩

/-- The validator does not get stuck on arms if it gets through their bodies. -/
theorem arms_total {others : List Arm}
    (tried : ∀ condition body, .arm condition body ∈ others → ∃ found, nodes count body = .ok found) :
    ∃ found, arms count others = .ok found := by
  induction others with
  | nil => exact ⟨[], rfl⟩
  | cons first rest ih =>
    have later : ∀ condition body, .arm condition body ∈ rest → ∃ found, nodes count body = .ok found := by
      intro condition body member
      exact tried condition body (List.mem_cons_of_mem _ member)
    obtain ⟨others, checked⟩ := ih later
    cases first with
    | absent => simp [arms, checked]
    | arm condition body =>
      obtain ⟨inside, through⟩ := tried condition body List.mem_cons_self
      rw [arms]
      split <;> simp [checked, through]

/-- The validator gets through all nodes, unless a statement that occurs in them begins with a missing term. -/
theorem nodes_total (entries : List Node)
    (headed : ∀ entry, Occurs (.statement entry) entries → ¬ entry.Headless) :
    ∃ found, nodes count entries = .ok found := by
  induction entries using nodes_induction with
  | nil => exact ⟨[], rfl⟩
  | absent rest ih =>
    obtain ⟨others, checked⟩ := ih fun entry inside => headed entry inside.later
    simp [nodes, node, checked]
  | statement entry rest ih =>
    obtain ⟨found, first⟩ := statement_total count (headed entry (.here List.mem_cons_self))
    obtain ⟨others, checked⟩ := ih fun entry inside => headed entry inside.later
    simp [nodes, node, first, checked]
  | branch conditions body others otherwise rest inside tried left ih =>
    have first := List.mem_cons_self (a := Node.branch conditions body others otherwise) (l := rest)
    obtain ⟨one, checkedBody⟩ := inside fun entry occurs => headed entry (.body first occurs)
    obtain ⟨two, checkedArms⟩ := arms_total count fun condition body member =>
      tried condition body member fun entry occurs => headed entry (.arm first member occurs)
    obtain ⟨three, checkedElse⟩ := left fun entry occurs => headed entry (.otherwise first occurs)
    obtain ⟨four, checked⟩ := ih fun entry inside => headed entry inside.later
    simp [nodes, node, checkedBody, checkedArms, checkedElse, checked]

end Validation

namespace Script

/-- A node stands somewhere in the script. -/
def Holds (script : Script) (node : Node) : Prop := Occurs node script.nodes

/-- Where no statement begins with a missing term, the validator comes to a verdict, and it finds nothing wrong exactly
if the script has a name and no negative number of locals and every node in it, however deep, is sound. -/
theorem validate_exact (script : Script) (headed : ∀ statement, script.Holds (.statement statement) → ¬ statement.Headless) :
    ∃ verdict, validate (some script) = .ok verdict ∧
      (verdict = none ↔
        script.name ≠ "" ∧ 0 ≤ script.localCount ∧ ∀ node, script.Holds node → node.Sound script.localCount) := by
  obtain ⟨found, checked⟩ := Validation.nodes_total script.localCount script.nodes headed
  have decided : ∃ verdict, validate (some script) = .ok verdict := by
    simp only [validate, violations, checked, ok_bind, pure_eq_ok]
    split <;> exact ⟨_, rfl⟩
  obtain ⟨verdict, decided⟩ := decided
  refine ⟨verdict, decided, ?_⟩
  have passes : verdict = none ↔ script.WellFormed := by
    rw [← validate_eq_none, decided, Except.ok.injEq]
  rw [passes]
  constructor
  · intro valid
    exact ⟨valid.name, valid.localCount, wellFormed_iff_sound.mp valid.nodes⟩
  · rintro ⟨name, localCount, sound⟩
    exact ⟨name, localCount, wellFormed_iff_sound.mpr sound⟩

end Script

/-- A branch that returns, with something missing behind the return, and an arm whose test is a group. -/
private def diversion : Script where
  name := "DIVERSION"
  localCount := 1
  nodes := [.branch [.condition { first := some { function := .builtin .routeSet } }]
    [.statement { terms := [some { function := .returning }, none] }]
    [.arm [.negation, .group [.condition { first := some { params := [some ⟨.localVar 0, false⟩] } }]]
      [.statement { target := .localVar 0, terms := [some { params := [some ⟨.constant 3, true⟩] }] }]] []]

private theorem diversion_headed (statement : Statement) (held : diversion.Holds (.statement statement)) :
    ¬ statement.Headless := by
  have elsewhere : ∀ {other : Statement}, Occurs (.statement statement) [.statement other] → statement = other := by
    intro other held
    cases held <;> simp_all
  cases held with
  | here member => simp [diversion] at member
  | body member inside =>
    cases List.mem_singleton.mp member
    simp [elsewhere inside, Statement.Headless]
  | arm member arm inside =>
    cases List.mem_singleton.mp member
    cases List.mem_singleton.mp arm
    simp [elsewhere inside, Statement.Headless]
  | otherwise member inside =>
    cases List.mem_singleton.mp member
    cases inside <;> contradiction

theorem validate_exact_diversion :
    Script.validate (some diversion) = .ok none ∧ ∀ node, diversion.Holds node → node.Sound 1 := by
  obtain ⟨verdict, decided, passed⟩ := Script.validate_exact diversion diversion_headed
  have passes : Script.validate (some diversion) = .ok none :=
    Script.validate_eq_none_iff.mpr ⟨by simp [diversion], by decide, by dsimp only [diversion]; cbv⟩
  obtain rfl : none = verdict := by simpa [passes] using decided
  exact ⟨passes, (passed.mp rfl).2.2⟩

end Lineside
