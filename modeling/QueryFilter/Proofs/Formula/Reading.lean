import QueryFilter.Proofs.Formula.Layout
import QueryFilter.Proofs.Formula.Unambiguity

/-!
# The reader follows the grammar

Reading the tokens of a phrase adds the phrase's formula to the level that the
reader is at, and tokens that the reader accepts are the tokens of a phrase. So
the texts that are read are those that the grammar derives, and the formula is
that of the derivation.
-/

namespace QueryFilter
namespace Formula

theorem negate_succ (n : Nat) (f : Formula) : negate (n + 1) f = negate n (not f) := by
  induction n with
  | zero => rfl
  | succ n ih => rw [negate, ih, negate]

/-! ### Phrases and levels -/

theorem Conjuncts.formula_eq (c : Conjuncts) : conjunction c.formulas = c.formula := by
  cases c with
  | one first => rfl
  | more first rest => cases rest <;> rfl

theorem Disjuncts.formula_eq (d : Disjuncts) : disjunction d.formulas = d.formula := by
  cases d with
  | one first => rfl
  | more first rest => cases rest <;> rfl

/-- The level that the reader is at after some operands of OR and those of a phrase. -/
def Disjuncts.level (alternatives : List Formula) : Disjuncts → Level
  | .one first => ⟨alternatives, first.formulas.reverse⟩
  | .more first rest => rest.level (first.formula :: alternatives)

theorem Disjuncts.alternatives_level : ∀ (d : Disjuncts) (alternatives : List Formula),
    (d.level alternatives).endAlternative.alternatives = d.formulas.reverse ++ alternatives
  | .one first, alternatives => by
    simp [level, Level.endAlternative, formulas, first.formula_eq]
  | .more first rest, alternatives => by
    rw [level, rest.alternatives_level, formulas, List.reverse_cons, List.append_assoc,
      List.singleton_append]

@[simp] theorem Disjuncts.formula_level (d : Disjuncts) : (d.level []).formula = d.formula := by
  rw [Level.formula, d.alternatives_level, List.append_nil, List.reverse_reverse, d.formula_eq]

/-! ### Tokens that are read -/

namespace ReaderState

/-- The state after some tokens, if a formula can go on with them. -/
def advance (state : ReaderState) (tokens : List Token) : Option ReaderState :=
  tokens.foldlM next? state

/-- The formula that some tokens complete. -/
def run (state : ReaderState) (tokens : List Token) : Option Formula :=
  (state.advance tokens).bind finish?

@[simp] theorem advance_nil (state : ReaderState) : state.advance [] = some state := rfl

@[simp] theorem advance_cons (state : ReaderState) (t : Token) (tokens : List Token) :
    state.advance (t :: tokens) = (state.next? t).bind (·.advance tokens) := by
  simp [advance]

theorem advance_append (state : ReaderState) (first second : List Token) :
    state.advance (first ++ second) = (state.advance first).bind (·.advance second) := by
  simp [advance, List.foldlM_append]

@[simp] theorem run_nil (state : ReaderState) : state.run [] = state.finish? := rfl

@[simp] theorem run_cons (state : ReaderState) (t : Token) (tokens : List Token) :
    state.run (t :: tokens) = (state.next? t).bind (·.run tokens) := by
  simp only [run, advance_cons, Option.bind_assoc]

theorem run_append {state next : ReaderState} {ts : List Token} (h : state.advance ts = some next)
    (us : List Token) : state.run (ts ++ us) = next.run us := by
  rw [run, advance_append, h, Option.bind_some, run]

end ReaderState

open ReaderState

mutual

theorem Operand.advance_tokens : ∀ (o : Operand) (n : Nat) (level : Level) (outer : List Frame),
    (needsOperand n level outer).advance o.tokens =
      some (hasOperand (level.push (negate n o.formula)) outer)
  | .number digits, n, level, outer => by
    simp [Operand.tokens, next?, Operand.formula]
  | .group inner, n, level, outer => by
    simp [Operand.tokens, next?, Operand.formula, advance_append, inner.advance_tokens,
      Level.empty]
  | .negation body, n, level, outer => by
    simp [Operand.tokens, next?, Operand.formula, body.advance_tokens, negate_succ]

theorem Conjuncts.advance_tokens : ∀ (c : Conjuncts) (alternatives conjuncts : List Formula)
    (outer : List Frame),
    (needsOperand 0 ⟨alternatives, conjuncts⟩ outer).advance c.tokens =
      some (hasOperand ⟨alternatives, c.formulas.reverse ++ conjuncts⟩ outer)
  | .one first, alternatives, conjuncts, outer => by
    simp [Conjuncts.tokens, Conjuncts.formulas, first.advance_tokens, Level.push, negate]
  | .more first rest, alternatives, conjuncts, outer => by
    simp [Conjuncts.tokens, Conjuncts.formulas, advance_append, first.advance_tokens, next?,
      Level.push, negate, rest.advance_tokens]

theorem Disjuncts.advance_tokens : ∀ (d : Disjuncts) (alternatives : List Formula)
    (outer : List Frame),
    (needsOperand 0 ⟨alternatives, []⟩ outer).advance d.tokens =
      some (hasOperand (d.level alternatives) outer)
  | .one first, alternatives, outer => by
    simp [Disjuncts.tokens, Disjuncts.level, first.advance_tokens]
  | .more first rest, alternatives, outer => by
    simp [Disjuncts.tokens, Disjuncts.level, advance_append, first.advance_tokens, next?,
      Level.endAlternative, first.formula_eq, rest.advance_tokens]

end

/-! ### Tokens that are accepted -/

mutual

/-- Where an accepting run needs an operand, the tokens begin with one. -/
theorem Operand.of_run {f : Formula} (ts : List Token) (n : Nat) (level : Level)
    (outer : List Frame) (h : (needsOperand n level outer).run ts = some f) :
    ∃ (o : Operand) (rest : List Token), ts = o.tokens ++ rest ∧
      (hasOperand (level.push (negate n o.formula)) outer).run rest = some f := by
  cases ts with
  | nil => simp [finish?] at h
  | cons t ts =>
    cases t with
    | number digits => exact ⟨.number digits, ts, rfl, by simpa [next?, Operand.formula] using h⟩
    | not =>
      obtain ⟨o, rest, rfl, hrest⟩ := Operand.of_run ts (n + 1) level outer (by simpa [next?] using h)
      exact ⟨.negation o, rest, rfl, by simpa [negate_succ, Operand.formula] using hrest⟩
    | opening =>
      obtain ⟨d, rest, rfl, hrest, hand, hor⟩ := Disjuncts.of_run ts [] (⟨level, n⟩ :: outer)
        (by simpa [next?, Level.empty] using h)
      cases rest with
      | nil => simp [finish?] at hrest
      | cons t rest =>
        cases t with
        | closing =>
          exact ⟨.group d, rest, by simp [Operand.tokens],
            by simpa [next?, Operand.formula] using hrest⟩
        | and => simp at hand
        | or => simp at hor
        | number digits => simp [next?] at hrest
        | not => simp [next?] at hrest
        | opening => simp [next?] at hrest
        | stray characters => simp [next?] at hrest
    | and => simp [next?] at h
    | or => simp [next?] at h
    | closing => simp [next?] at h
    | stray characters => simp [next?] at h
termination_by (ts.length, 0)

theorem Conjuncts.of_run {f : Formula} (ts : List Token) (alternatives conjuncts : List Formula)
    (outer : List Frame) (h : (needsOperand 0 ⟨alternatives, conjuncts⟩ outer).run ts = some f) :
    ∃ (c : Conjuncts) (rest : List Token), ts = c.tokens ++ rest ∧
      (hasOperand ⟨alternatives, c.formulas.reverse ++ conjuncts⟩ outer).run rest = some f ∧
      .and ∉ rest.head? := by
  obtain ⟨o, rest, hts, hrest⟩ := Operand.of_run ts 0 ⟨alternatives, conjuncts⟩ outer h
  by_cases hand : .and ∈ rest.head?
  · obtain ⟨rest, rfl⟩ := List.head?_eq_some_iff.mp hand
    have hshorter : rest.length < ts.length := by simp [hts]; omega
    obtain ⟨c, rest, rfl, hrest, hhead⟩ := Conjuncts.of_run rest alternatives
      (o.formula :: conjuncts) outer (by simpa [next?, Level.push, negate] using hrest)
    exact ⟨.more o c, rest, by simp [hts, Conjuncts.tokens],
      by simpa [Conjuncts.formulas] using hrest, hhead⟩
  · exact ⟨.one o, rest, hts, by simpa [Conjuncts.formulas, Level.push, negate] using hrest, hand⟩
termination_by (ts.length, 1)

theorem Disjuncts.of_run {f : Formula} (ts : List Token) (alternatives : List Formula)
    (outer : List Frame) (h : (needsOperand 0 ⟨alternatives, []⟩ outer).run ts = some f) :
    ∃ (d : Disjuncts) (rest : List Token), ts = d.tokens ++ rest ∧
      (hasOperand (d.level alternatives) outer).run rest = some f ∧
      .and ∉ rest.head? ∧ .or ∉ rest.head? := by
  obtain ⟨c, rest, hts, hrest, hand⟩ := Conjuncts.of_run ts alternatives [] outer h
  by_cases hor : .or ∈ rest.head?
  · obtain ⟨rest, rfl⟩ := List.head?_eq_some_iff.mp hor
    have hshorter : rest.length < ts.length := by simp [hts]; omega
    obtain ⟨d, rest, rfl, hrest, hhead⟩ := Disjuncts.of_run rest (c.formula :: alternatives) outer
      (by simpa [next?, Level.endAlternative, c.formula_eq] using hrest)
    exact ⟨.more c d, rest, by simp [hts, Disjuncts.tokens], hrest, hhead⟩
  · exact ⟨.one c, rest, hts, by simpa [Disjuncts.level] using hrest, hand, hor⟩
termination_by (ts.length, 2)

end

/-- The reader accepts the tokens of phrases, and reads the formula of the phrase. -/
theorem run_start_eq_some {ts : List Token} {f : Formula} :
    start.run ts = some f ↔ ∃ d : Disjuncts, d.tokens = ts ∧ d.formula = f := by
  constructor
  · intro h
    obtain ⟨d, rest, rfl, hrest, hand, hor⟩ := Disjuncts.of_run ts [] [] h
    cases rest with
    | nil => exact ⟨d, by simp, by simpa [finish?] using hrest⟩
    | cons t rest => cases t <;> simp [next?] at hrest hand hor
  · rintro ⟨d, rfl, rfl⟩
    have hread := d.advance_tokens [] []
    simp only [run, start, Level.empty, hread, Option.bind_some, finish?, d.formula_level]

end Formula
end QueryFilter
