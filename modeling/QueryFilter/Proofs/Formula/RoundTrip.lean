import QueryFilter.Formula.Check
import QueryFilter.Proofs.Formula.Parse
import QueryFilter.Proofs.Formula.Written

/-!
# Reading what is written

A canonical formula has all the parentheses that its text needs and no node that
the grammar does not make. Every text is read as such a formula, and each of them
is read back from its own text, whether that is written directly or filled in.
-/

namespace QueryFilter
namespace Formula

/-! ### Canonical formulas -/

/-- Whether a formula can stand under NOT and between ANDs. -/
def IsOperand : Formula → Prop
  | row _ | not _ | group _ => True
  | all _ | any _ => False

def IsAny : Formula → Prop
  | any _ => True
  | _ => False

/-- Formulas in which each node stands for what is written: AND and OR have two
operands or more, and no operand that its neighbours would split. -/
inductive Canonical : Formula → Prop
  | row (number : Nat) : Canonical (row number)
  | not {body : Formula} (operand : body.IsOperand) (canonical : Canonical body) :
      Canonical (not body)
  | all {parts : List Formula} (several : 2 ≤ parts.length)
      (operands : ∀ part ∈ parts, part.IsOperand)
      (canonical : ∀ part ∈ parts, Canonical part) : Canonical (all parts)
  | any {parts : List Formula} (several : 2 ≤ parts.length)
      (apart : ∀ part ∈ parts, ¬part.IsAny)
      (canonical : ∀ part ∈ parts, Canonical part) : Canonical (any parts)
  | group {body : Formula} (canonical : Canonical body) : Canonical (group body)

theorem IsOperand.not_isAny {f : Formula} (h : f.IsOperand) : ¬f.IsAny := by
  cases f with
  | any parts => exact absurd h id
  | _ => exact id

theorem canonical_conjunction {parts : List Formula} (hne : parts ≠ [])
    (h : ∀ part ∈ parts, part.Canonical ∧ part.IsOperand) :
    (conjunction parts).Canonical ∧ ¬(conjunction parts).IsAny := by
  match parts, hne with
  | [part], _ =>
    obtain ⟨hcanonical, hoperand⟩ := h part (by simp)
    exact ⟨hcanonical, hoperand.not_isAny⟩
  | first :: second :: rest, _ =>
    refine ⟨.all (by simp) (fun part hpart => (h part hpart).2) fun part hpart => ?_, id⟩
    exact (h part hpart).1

theorem canonical_disjunction {parts : List Formula} (hne : parts ≠ [])
    (h : ∀ part ∈ parts, part.Canonical ∧ ¬part.IsAny) : (disjunction parts).Canonical := by
  match parts, hne with
  | [part], _ => exact (h part (by simp)).1
  | first :: second :: rest, _ =>
    exact .any (by simp) (fun part hpart => (h part hpart).2) fun part hpart => (h part hpart).1

/-! ### What is read is canonical -/

theorem Conjuncts.formulas_ne_nil (c : Conjuncts) : c.formulas ≠ [] := by
  cases c <;> simp [Conjuncts.formulas]

theorem Disjuncts.formulas_ne_nil (d : Disjuncts) : d.formulas ≠ [] := by
  cases d <;> simp [Disjuncts.formulas]

theorem Conjuncts.canonical_formula {c : Conjuncts}
    (h : ∀ part ∈ c.formulas, part.Canonical ∧ part.IsOperand) :
    c.formula.Canonical ∧ ¬c.formula.IsAny := by
  rw [← c.formula_eq]
  exact canonical_conjunction c.formulas_ne_nil h

theorem Disjuncts.canonical_formula {d : Disjuncts}
    (h : ∀ part ∈ d.formulas, part.Canonical ∧ ¬part.IsAny) : d.formula.Canonical := by
  rw [← d.formula_eq]
  exact canonical_disjunction d.formulas_ne_nil h

mutual

theorem Operand.canonical : ∀ o : Operand, o.formula.Canonical ∧ o.formula.IsOperand
  | .number digits => ⟨.row _, trivial⟩
  | .group inner => ⟨.group (Disjuncts.canonical_formula inner.canonical), trivial⟩
  | .negation body => by
    obtain ⟨hcanonical, hoperand⟩ := body.canonical
    exact ⟨.not hoperand hcanonical, trivial⟩

theorem Conjuncts.canonical : ∀ c : Conjuncts, ∀ part ∈ c.formulas,
    part.Canonical ∧ part.IsOperand
  | .one first => List.forall_mem_singleton.mpr first.canonical
  | .more first rest => List.forall_mem_cons.mpr ⟨first.canonical, rest.canonical⟩

theorem Disjuncts.canonical : ∀ d : Disjuncts, ∀ part ∈ d.formulas,
    part.Canonical ∧ ¬part.IsAny
  | .one first => List.forall_mem_singleton.mpr (Conjuncts.canonical_formula first.canonical)
  | .more first rest =>
    List.forall_mem_cons.mpr ⟨Conjuncts.canonical_formula first.canonical, rest.canonical⟩

end

theorem canonical_of_parse {s : String} {f : Formula} (h : parse s = .ok f) : f.Canonical := by
  obtain ⟨d, -, rfl⟩ := parse_eq_ok_iff.mp h
  exact Disjuncts.canonical_formula d.phrase.canonical

/-! ### What is canonical is read back -/

theorem leaves_conjunction (parts : List Formula) :
    (conjunction parts).leaves = parts.flatMap leaves := by
  unfold conjunction
  split <;> simp [leaves]

theorem leaves_disjunction (parts : List Formula) :
    (disjunction parts).leaves = parts.flatMap leaves := by
  unfold disjunction
  split <;> simp [leaves]

mutual

theorem Operand.map_decimal_tokens : ∀ o : Operand,
    (o.tokens.filterMap Token.digits?).map decimal = o.formula.leaves
  | .number digits => rfl
  | .group inner => by
    simp [Operand.tokens, Operand.formula, leaves, List.filterMap_cons, Token.digits?,
      inner.map_decimal_tokens, ← inner.formula_eq, leaves_disjunction]
  | .negation body => by
    simpa [Operand.tokens, Operand.formula, leaves, List.filterMap_cons, Token.digits?] using
      body.map_decimal_tokens

theorem Conjuncts.map_decimal_tokens : ∀ c : Conjuncts,
    (c.tokens.filterMap Token.digits?).map decimal = c.formulas.flatMap leaves
  | .one first => by
    simp [Conjuncts.tokens, Conjuncts.formulas, first.map_decimal_tokens]
  | .more first rest => by
    simp [Conjuncts.tokens, Conjuncts.formulas, first.map_decimal_tokens, List.filterMap_cons,
      Token.digits?, rest.map_decimal_tokens]

theorem Disjuncts.map_decimal_tokens : ∀ d : Disjuncts,
    (d.tokens.filterMap Token.digits?).map decimal = d.formulas.flatMap leaves
  | .one first => by
    simp [Disjuncts.tokens, Disjuncts.formulas, first.map_decimal_tokens, ← first.formula_eq,
      leaves_conjunction]
  | .more first rest => by
    simp [Disjuncts.tokens, Disjuncts.formulas, first.map_decimal_tokens, List.filterMap_cons,
      Token.digits?, ← first.formula_eq, leaves_conjunction, rest.map_decimal_tokens]

end

/-- The numbers of a derivation are the leaves of its formula. -/
theorem Derivation.map_decimal_numbers {cs : List Char} (d : Derivation cs) :
    d.numbers.map decimal = d.formula.leaves := by
  rw [numbers, d.phrase.map_decimal_tokens, formula, ← d.phrase.formula_eq, leaves_disjunction]

theorem Conjuncts.exists_of_operands {parts : List Formula} (hne : parts ≠ [])
    (h : ∀ part ∈ parts, ∃ o : Operand, o.formula = part ∧ o.tokens = part.tokens) :
    ∃ c : Conjuncts, c.formulas = parts ∧
      c.tokens = [Token.and].intercalate (parts.map Formula.tokens) := by
  induction parts with
  | nil => exact absurd rfl hne
  | cons first rest ih =>
    obtain ⟨o, hformula, htokens⟩ := h first (by simp)
    cases rest with
    | nil =>
      exact ⟨.one o, by simp [Conjuncts.formulas, hformula], by simp [Conjuncts.tokens, htokens]⟩
    | cons second rest =>
      obtain ⟨c, hformulas, hrest⟩ := ih (by simp) fun part hpart => h part (by simp [hpart])
      refine ⟨.more o c, by simp [Conjuncts.formulas, hformula, hformulas], ?_⟩
      simp only [List.map_cons] at hrest ⊢
      rw [Conjuncts.tokens, htokens, hrest, List.intercalate_cons_cons, List.append_assoc,
        List.singleton_append]

theorem Disjuncts.exists_of_conjuncts {parts : List Formula} (hne : parts ≠ [])
    (h : ∀ part ∈ parts, ∃ c : Conjuncts, c.formula = part ∧ c.tokens = part.tokens) :
    ∃ d : Disjuncts, d.formulas = parts ∧
      d.tokens = [Token.or].intercalate (parts.map Formula.tokens) := by
  induction parts with
  | nil => exact absurd rfl hne
  | cons first rest ih =>
    obtain ⟨c, hformula, htokens⟩ := h first (by simp)
    cases rest with
    | nil =>
      exact ⟨.one c, by simp [Disjuncts.formulas, hformula], by simp [Disjuncts.tokens, htokens]⟩
    | cons second rest =>
      obtain ⟨d, hformulas, hrest⟩ := ih (by simp) fun part hpart => h part (by simp [hpart])
      refine ⟨.more c d, by simp [Disjuncts.formulas, hformula, hformulas], ?_⟩
      simp only [List.map_cons] at hrest ⊢
      rw [Disjuncts.tokens, htokens, hrest, List.intercalate_cons_cons, List.append_assoc,
        List.singleton_append]

/-- Whether a formula is that of an operand of OR, of AND and of NOT, as far as it
can be one, with its own tokens. -/
structure IsPhrase (f : Formula) : Prop where
  operand : f.IsOperand → ∃ o : Operand, o.formula = f ∧ o.tokens = f.tokens
  conjuncts : ¬f.IsAny → ∃ c : Conjuncts, c.formula = f ∧ c.tokens = f.tokens
  disjuncts : ∃ d : Disjuncts, d.formula = f ∧ d.tokens = f.tokens

theorem IsPhrase.of_conjuncts {f : Formula} (hnot : ¬f.IsOperand)
    (h : ∃ c : Conjuncts, c.formula = f ∧ c.tokens = f.tokens) : IsPhrase f := by
  refine ⟨fun hoperand => absurd hoperand hnot, fun _ => h, ?_⟩
  obtain ⟨c, hformula, htokens⟩ := h
  exact ⟨.one c, hformula, htokens⟩

theorem IsPhrase.of_operand {f : Formula}
    (h : ∃ o : Operand, o.formula = f ∧ o.tokens = f.tokens) : IsPhrase f := by
  obtain ⟨o, hformula, htokens⟩ := h
  exact ⟨fun _ => ⟨o, hformula, htokens⟩, fun _ => ⟨.one o, hformula, htokens⟩,
    .one (.one o), hformula, htokens⟩

theorem Canonical.isPhrase {f : Formula} (h : f.Canonical) : IsPhrase f := by
  induction h with
  | row number =>
    refine .of_operand ⟨.number (Nat.toDigits 10 number), ?_, rfl⟩
    rw [Operand.formula, decimal_toDigits]
  | not operand _ ih =>
    obtain ⟨o, hformula, htokens⟩ := ih.operand operand
    exact .of_operand ⟨.negation o, by rw [Operand.formula, hformula],
      by rw [Operand.tokens, htokens, tokens]⟩
  | group _ ih =>
    obtain ⟨d, hformula, htokens⟩ := ih.disjuncts
    exact .of_operand ⟨.group d, by rw [Operand.formula, hformula],
      by rw [Operand.tokens, htokens, tokens]⟩
  | @all parts several operands _ ih =>
    obtain ⟨c, hformulas, htokens⟩ := Conjuncts.exists_of_operands
      (List.ne_nil_of_length_pos (by omega)) fun part hpart =>
        (ih part hpart).operand (operands part hpart)
    refine .of_conjuncts id ⟨c, ?_, by rw [htokens, tokens, tokensOf_eq_map]⟩
    rw [← c.formula_eq, hformulas]
    match parts, several with
    | _ :: _ :: _, _ => rfl
  | @any parts several apart _ ih =>
    obtain ⟨d, hformulas, htokens⟩ := Disjuncts.exists_of_conjuncts
      (List.ne_nil_of_length_pos (by omega)) fun part hpart =>
        (ih part hpart).conjuncts (apart part hpart)
    refine ⟨fun h => absurd h id, fun h => absurd trivial h, d, ?_,
      by rw [htokens, tokens, tokensOf_eq_map]⟩
    rw [← d.formula_eq, hformulas]
    match parts, several with
    | _ :: _ :: _, _ => rfl

/-- A formula with the tokens of a phrase is read from its text as the phrase's formula. -/
theorem parse_text_of_tokens {f : Formula} {phrase : Disjuncts} (htokens : phrase.tokens = f.tokens)
    (hsmall : ∀ n ∈ phrase.formula.leaves, n ≤ maxRow) : parse f.text = .ok phrase.formula := by
  have hscan : scan f.text.toList = phrase.tokens := by
    rw [scan_text, htokens]
  obtain ⟨d, hd⟩ := Derivation.exists_of_scan hscan
  have hformula : d.formula = phrase.formula := by
    rw [Derivation.formula, hd]
  have hnone : d.numbers.find? (maxRow < decimal ·) = none := by
    rw [List.find?_eq_none]
    intro digits hdigits
    have hleaf : decimal digits ∈ phrase.formula.leaves := by
      rw [← hformula, ← d.map_decimal_numbers]
      exact List.mem_map_of_mem hdigits
    have hle := hsmall _ hleaf
    simpa using hle
  rw [parse_of_derivation d hnone, hformula]

theorem Canonical.parse_text {f : Formula} (h : f.Canonical)
    (hsmall : ∀ n ∈ f.leaves, n ≤ maxRow) : parse f.text = .ok f := by
  obtain ⟨phrase, rfl, htokens⟩ := h.isPhrase.disjuncts
  exact parse_text_of_tokens htokens hsmall

/-! ### Filling in the row numbers -/

theorem trimStart_toString (n : Nat) : Text.trimStart (toString n) = toString n := by
  have hhead : ∀ c ∈ (Nat.toDigits 10 n).head?, Text.isBlank c = false := fun c hc =>
    not_isBlank_of_isAlphanum (isAlphanum_of_isDigit
      (Nat.isDigit_of_mem_toDigits (by decide) (by decide) (List.mem_of_mem_head? hc)))
  rw [Text.trimStart, Nat.toString_eq_ofList_toDigits, String.toList_ofList,
    (takeWhile_of_head? hhead).2]

mutual

theorem display_eq : ∀ f : Formula, f.display = .ok f.text
  | row number => congrArg Except.ok (trimStart_toString number)
  | not body => by
    have hbody := body.display_eq
    unfold display at hbody ⊢
    rw [fill, hbody, text]
    rfl
  | all parts => by
    rw [display, fill, fillEach_toString parts, text]
    rfl
  | any parts => by
    rw [display, fill, fillEach_toString parts, text]
    rfl
  | group body => by
    have hbody := body.display_eq
    unfold display at hbody ⊢
    rw [fill, hbody, text]
    rfl

theorem fillEach_toString : ∀ parts : List Formula,
    fillEach (fun number => some (toString number)) parts = .ok (texts parts)
  | [] => rfl
  | first :: rest => by
    have hfirst := first.display_eq
    unfold display at hfirst
    rw [fillEach, hfirst, fillEach_toString rest, texts]
    rfl

end

/-- Reading and writing are inverse: what is read is canonical, a canonical formula
whose numbers are small enough is read from its text, and every formula filled in
with its own numbers is its text. -/
theorem parse_text_roundtrip :
    (∀ s f, parse s = .ok f → f.Canonical) ∧
    (∀ f : Formula, f.Canonical → (∀ n ∈ f.leaves, n ≤ maxRow) → parse f.text = .ok f) ∧
    (∀ f : Formula, f.display = .ok f.text) :=
  ⟨fun _ _ h => canonical_of_parse h, fun _ h hsmall => h.parse_text hsmall, display_eq⟩

theorem parse_text_roundtrip_nested :
    parse "1 AND NOT (2 OR 3) OR 4" =
        .ok (any [all [row 1, not (group (any [row 2, row 3]))], row 4]) ∧
      (any [all [row 1, not (group (any [row 2, row 3]))], row 4]).Canonical ∧
      (any [all [row 1, not (group (any [row 2, row 3]))], row 4]).display =
        .ok "1 AND NOT (2 OR 3) OR 4" := by
  have htext : (any [all [row 1, not (group (any [row 2, row 3]))], row 4]).text =
      "1 AND NOT (2 OR 3) OR 4" := by decide +kernel
  have hinner : (any [row 2, row 3]).Canonical :=
    .any (by decide) (by simp [IsAny]) (by simp [Canonical.row])
  have hnot : (not (group (any [row 2, row 3]))).Canonical :=
    .not trivial (.group hinner)
  have hall : (all [row 1, not (group (any [row 2, row 3]))]).Canonical :=
    .all (by decide) (by simp [IsOperand]) (by simp [Canonical.row, hnot])
  have hany : (any [all [row 1, not (group (any [row 2, row 3]))], row 4]).Canonical :=
    .any (by decide) (by simp [IsAny]) (by simp [Canonical.row, hall])
  have hparse := parse_text_roundtrip.2.1 _ hany (by simp [leaves, maxRow, UInt64.size])
  rw [htext] at hparse
  refine ⟨hparse, parse_text_roundtrip.1 _ _ hparse, ?_⟩
  rw [parse_text_roundtrip.2.2, htext]

end Formula
end QueryFilter
