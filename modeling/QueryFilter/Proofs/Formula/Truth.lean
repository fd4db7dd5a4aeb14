import QueryFilter.Proofs.Formula.RoundTrip

/-!
# What a formula says

The text of a formula does not show an AND inside an AND, an OR inside an OR, or a node
with one operand, so a formula that was not read from a text may be read back as another
one. It says the same: about the same rows, and true or false with them, as long as it
has a group wherever NOT or AND would otherwise take only the first part of its operand.
-/

namespace QueryFilter
namespace Formula

/-! ### Truth -/

mutual

/-- Whether a formula is true where its rows are true or false as given. -/
def holds (truth : Nat → Bool) : Formula → Bool
  | row number => truth number
  | not body => !holds truth body
  | all parts => eachHolds truth parts
  | any parts => someHolds truth parts
  | group body => holds truth body

def eachHolds (truth : Nat → Bool) : List Formula → Bool
  | [] => true
  | part :: rest => holds truth part && eachHolds truth rest

def someHolds (truth : Nat → Bool) : List Formula → Bool
  | [] => false
  | part :: rest => holds truth part || someHolds truth rest

end

section

variable (truth : Nat → Bool) (parts : List Formula)

@[simp] theorem eachHolds_eq_all : eachHolds truth parts = parts.all (holds truth) := by
  induction parts with
  | nil => rfl
  | cons part rest ih => simp [eachHolds, ih]

@[simp] theorem someHolds_eq_any : someHolds truth parts = parts.any (holds truth) := by
  induction parts with
  | nil => rfl
  | cons part rest ih => simp [someHolds, ih]

theorem holds_conjunction : (conjunction parts).holds truth = parts.all (holds truth) := by
  unfold conjunction
  split <;> simp [holds]

theorem holds_disjunction : (disjunction parts).holds truth = parts.any (holds truth) := by
  unfold disjunction
  split <;> simp [holds]

end

/-- Formulas with a group around each OR under AND or NOT, and around each AND under NOT.
No node is without operands, but a node may have one. -/
inductive Grouped : Formula → Prop
  | row (number : Nat) : Grouped (row number)
  | not {body : Formula} (operand : body.IsOperand) (grouped : Grouped body) :
      Grouped (not body)
  | all {parts : List Formula} (inhabited : parts ≠ []) (apart : ∀ part ∈ parts, ¬part.IsAny)
      (grouped : ∀ part ∈ parts, Grouped part) : Grouped (all parts)
  | any {parts : List Formula} (inhabited : parts ≠ [])
      (grouped : ∀ part ∈ parts, Grouped part) : Grouped (any parts)
  | group {body : Formula} (grouped : Grouped body) : Grouped (group body)

/-! ### Phrases that say the same -/

/-- An operand with the tokens of a formula that says what the formula says. -/
structure Operand.Says (o : Operand) (f : Formula) : Prop where
  tokens : o.tokens = f.tokens
  leaves : o.formula.leaves = f.leaves
  holds : ∀ truth, o.formula.holds truth = f.holds truth

/-- Operands of AND with the tokens of a formula that together say what the formula says. -/
structure Conjuncts.Says (c : Conjuncts) (f : Formula) : Prop where
  tokens : c.tokens = f.tokens
  leaves : c.formulas.flatMap Formula.leaves = f.leaves
  holds : ∀ truth, c.formulas.all (Formula.holds truth) = f.holds truth

/-- Operands of OR with the tokens of a formula that together say what the formula says. -/
structure Disjuncts.Says (d : Disjuncts) (f : Formula) : Prop where
  tokens : d.tokens = f.tokens
  leaves : d.formulas.flatMap Formula.leaves = f.leaves
  holds : ∀ truth, d.formulas.any (Formula.holds truth) = f.holds truth

theorem Operand.Says.conjuncts {o : Operand} {f : Formula} (h : o.Says f) :
    (Conjuncts.one o).Says f := by
  constructor
  · exact h.tokens
  · simpa [Conjuncts.formulas] using h.leaves
  · simpa [Conjuncts.formulas] using h.holds

theorem Conjuncts.Says.disjuncts {c : Conjuncts} {f : Formula} (h : c.Says f) :
    (Disjuncts.one c).Says f := by
  constructor
  · exact h.tokens
  · simpa [Disjuncts.formulas, ← c.formula_eq, leaves_conjunction] using h.leaves
  · simpa [Disjuncts.formulas, ← c.formula_eq, holds_conjunction] using h.holds

/-! ### Phrases one after another -/

/-- The operands of two phrases of AND as one phrase. -/
def Conjuncts.append : Conjuncts → Conjuncts → Conjuncts
  | .one first, second => .more first second
  | .more first rest, second => .more first (rest.append second)

/-- The operands of two phrases of OR as one phrase. -/
def Disjuncts.append : Disjuncts → Disjuncts → Disjuncts
  | .one first, second => .more first second
  | .more first rest, second => .more first (rest.append second)

theorem Conjuncts.tokens_append : ∀ c second : Conjuncts,
    (c.append second).tokens = c.tokens ++ .and :: second.tokens
  | .one first, second => rfl
  | .more first rest, second => by simp [append, tokens, rest.tokens_append second]

theorem Conjuncts.formulas_append : ∀ c second : Conjuncts,
    (c.append second).formulas = c.formulas ++ second.formulas
  | .one first, second => rfl
  | .more first rest, second => by simp [append, formulas, rest.formulas_append second]

theorem Disjuncts.tokens_append : ∀ d second : Disjuncts,
    (d.append second).tokens = d.tokens ++ .or :: second.tokens
  | .one first, second => rfl
  | .more first rest, second => by simp [append, tokens, rest.tokens_append second]

theorem Disjuncts.formulas_append : ∀ d second : Disjuncts,
    (d.append second).formulas = d.formulas ++ second.formulas
  | .one first, second => rfl
  | .more first rest, second => by simp [append, formulas, rest.formulas_append second]

theorem Conjuncts.exists_says_all {parts : List Formula} (hne : parts ≠ [])
    (h : ∀ part ∈ parts, ∃ c : Conjuncts, c.Says part) : ∃ c : Conjuncts, c.Says (all parts) := by
  induction parts with
  | nil => exact absurd rfl hne
  | cons first rest ih =>
    obtain ⟨c, hc⟩ := h first (by simp)
    cases rest with
    | nil =>
      exact ⟨c, by simpa [Formula.tokens] using hc.tokens, by simpa [leaves] using hc.leaves,
        by simpa [holds] using hc.holds⟩
    | cons second rest =>
      obtain ⟨more, hmore⟩ := ih (by simp) fun part hpart => h part (by simp [hpart])
      refine ⟨c.append more, ?_, ?_, fun truth => ?_⟩
      · simp [c.tokens_append, hc.tokens, hmore.tokens, Formula.tokens]
      · simp [c.formulas_append, hc.leaves, hmore.leaves, leaves]
      · simp [c.formulas_append, hc.holds, hmore.holds, holds]

theorem Disjuncts.exists_says_any {parts : List Formula} (hne : parts ≠ [])
    (h : ∀ part ∈ parts, ∃ d : Disjuncts, d.Says part) : ∃ d : Disjuncts, d.Says (any parts) := by
  induction parts with
  | nil => exact absurd rfl hne
  | cons first rest ih =>
    obtain ⟨d, hd⟩ := h first (by simp)
    cases rest with
    | nil =>
      exact ⟨d, by simpa [Formula.tokens] using hd.tokens, by simpa [leaves] using hd.leaves,
        by simpa [holds] using hd.holds⟩
    | cons second rest =>
      obtain ⟨more, hmore⟩ := ih (by simp) fun part hpart => h part (by simp [hpart])
      refine ⟨d.append more, ?_, ?_, fun truth => ?_⟩
      · simp [d.tokens_append, hd.tokens, hmore.tokens, Formula.tokens]
      · simp [d.formulas_append, hd.leaves, hmore.leaves, leaves]
      · simp [d.formulas_append, hd.holds, hmore.holds, holds]

/-! ### Reading a grouped formula back -/

/-- Whether a phrase of each level that a formula can stand at says what it says. -/
structure IsSaid (f : Formula) : Prop where
  operand : f.IsOperand → ∃ o : Operand, o.Says f
  conjuncts : ¬f.IsAny → ∃ c : Conjuncts, c.Says f
  disjuncts : ∃ d : Disjuncts, d.Says f

theorem Operand.Says.isSaid {o : Operand} {f : Formula} (h : o.Says f) : f.IsSaid :=
  ⟨fun _ => ⟨o, h⟩, fun _ => ⟨_, h.conjuncts⟩, _, h.conjuncts.disjuncts⟩

theorem Grouped.isSaid {f : Formula} (h : f.Grouped) : f.IsSaid := by
  induction h with
  | row number =>
    have hnumber : (Operand.number (Nat.toDigits 10 number)).formula = Formula.row number := by
      rw [Operand.formula, decimal_toDigits]
    exact Operand.Says.isSaid (o := .number (Nat.toDigits 10 number))
      ⟨rfl, by rw [hnumber], fun truth => by rw [hnumber]⟩
  | not operand _ ih =>
    obtain ⟨o, ho⟩ := ih.operand operand
    refine Operand.Says.isSaid (o := .negation o) ⟨?_, ?_, fun truth => ?_⟩
    · rw [Operand.tokens, ho.tokens, tokens]
    · rw [Operand.formula, leaves, ho.leaves, leaves]
    · rw [Operand.formula, holds, ho.holds, holds]
  | group _ ih =>
    obtain ⟨d, hd⟩ := ih.disjuncts
    refine Operand.Says.isSaid (o := .group d) ⟨?_, ?_, fun truth => ?_⟩
    · rw [Operand.tokens, hd.tokens, tokens]
    · rw [Operand.formula, leaves, ← d.formula_eq, leaves_disjunction, hd.leaves, leaves]
    · rw [Operand.formula, holds, ← d.formula_eq, holds_disjunction, hd.holds, holds]
  | all inhabited apart _ ih =>
    obtain ⟨c, hc⟩ := Conjuncts.exists_says_all inhabited fun part hpart =>
      (ih part hpart).conjuncts (apart part hpart)
    exact ⟨fun h => absurd h id, fun _ => ⟨c, hc⟩, _, hc.disjuncts⟩
  | any inhabited _ ih =>
    obtain ⟨d, hd⟩ := Disjuncts.exists_says_any inhabited fun part hpart =>
      (ih part hpart).disjuncts
    exact ⟨fun h => absurd h id, fun h => absurd trivial h, d, hd⟩

/-- The text of a grouped formula is read as a formula that mentions the same rows and is
true under the same truth values of the rows. -/
theorem meaning_of_text {f : Formula} (h : f.Grouped) (hsmall : ∀ n ∈ f.leaves, n ≤ maxRow) :
    ∃ written g, f.display = .ok written ∧ parse written = .ok g ∧ g.numbers = f.numbers ∧
      ∀ truth, g.holds truth = f.holds truth := by
  obtain ⟨d, hd⟩ := h.isSaid.disjuncts
  have hleaves : d.formula.leaves = f.leaves := by
    rw [← d.formula_eq, leaves_disjunction, hd.leaves]
  refine ⟨f.text, d.formula, display_eq f, ?_, ?_, fun truth => ?_⟩
  · exact parse_text_of_tokens hd.tokens (by rwa [hleaves])
  · rw [numbers, numbers, hleaves]
  · rw [← d.formula_eq, holds_disjunction, hd.holds]

/-- An OR in an OR, an AND in an AND and a single operand do not show in the text. -/
theorem meaning_of_text_nested :
    let f := any [any [row 1, all [all [row 2], not (group (any [row 3]))]], row 1]
    f.Grouped ∧ ∃ g, parse "1 OR 2 AND NOT (3) OR 1" = .ok g ∧ g.numbers = [1, 2, 3] ∧
      ∀ truth, g.holds truth = (truth 1 || truth 2 && !truth 3) := by
  intro f
  have hnot : (not (group (any [row 3]))).Grouped :=
    .not trivial (.group (.any (by simp) (by simp [Grouped.row])))
  have hall : (all [all [row 2], not (group (any [row 3]))]).Grouped :=
    .all (by simp) (by simp [IsAny])
      (by simpa [hnot] using Grouped.all (by simp) (by simp [IsAny]) (by simp [Grouped.row]))
  have hinner : (any [row 1, all [all [row 2], not (group (any [row 3]))]]).Grouped :=
    .any (by simp) (by simp [Grouped.row, hall])
  have hgrouped : f.Grouped := .any (by simp) (by simp [Grouped.row, hinner])
  obtain ⟨written, g, hdisplay, hparse, hnumbers, hholds⟩ :=
    meaning_of_text hgrouped (by simp [f, leaves, maxRow, UInt64.size])
  have hwritten : written = "1 OR 2 AND NOT (3) OR 1" := by
    rw [display_eq] at hdisplay
    exact (Except.ok.inj hdisplay).symm.trans (by decide +kernel)
  refine ⟨hgrouped, g, hwritten ▸ hparse, hnumbers.trans (by decide +kernel), fun truth => ?_⟩
  rw [hholds]
  cases htruth : truth 1 <;> simp [f, holds, htruth]

end Formula
end QueryFilter
