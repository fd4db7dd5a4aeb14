import QueryFilter.Proofs.Formula.Joining
import QueryFilter.Proofs.Formula.Parse

/-!
# The reader follows the rules

The rules of the grammar go down into a text from its first character, without tokens, and
give up what they have matched of a repetition where it cannot go on. The reader goes once
over the tokens. They make the same of every text: where a rule for operands matches, it has
matched the tokens of a phrase and its pair stands for the formula of the phrase, and where
it fails the reader accepts nothing that needs an operand there. A rule that stops before
AND or OR stops where nothing can be accepted either.
-/

namespace QueryFilter
namespace Formula

open ReaderState

/-! ### Kinds of phrases -/

theorem Conjuncts.collapse_formulas (c : Conjuncts) : collapse all c.formulas = .ok c.formula := by
  cases c with
  | one first => rfl
  | more first rest => cases rest <;> rfl

theorem Disjuncts.collapse_formulas (d : Disjuncts) : collapse any d.formulas = .ok d.formula := by
  cases d with
  | one first => rfl
  | more first rest => cases rest <;> rfl

def Operand.kind : Kind Operand := ⟨.notExpr, tokens, formula, []⟩

def Conjuncts.kind : Kind Conjuncts := ⟨.andExpr, tokens, formula, [.and]⟩

def Disjuncts.kind : Kind Disjuncts := ⟨.orExpr, tokens, formula, [.or, .and]⟩

theorem Conjuncts.exists_joined (first : Operand) (others : List Operand) :
    ∃ c : Conjuncts, c.tokens = Operand.kind.joined .and first others ∧
      c.formulas = (first :: others).map Operand.formula := by
  induction others generalizing first with
  | nil => exact ⟨.one first, by simp [Kind.joined, Operand.kind, tokens], rfl⟩
  | cons second others ih =>
    obtain ⟨c, htokens, hformulas⟩ := ih second
    refine ⟨.more first c, ?_, congrArg (first.formula :: ·) hformulas⟩
    rw [tokens, htokens]
    simp [Kind.joined, Operand.kind]

theorem Disjuncts.exists_joined (first : Conjuncts) (others : List Conjuncts) :
    ∃ d : Disjuncts, d.tokens = Conjuncts.kind.joined .or first others ∧
      d.formulas = (first :: others).map Conjuncts.formula := by
  induction others generalizing first with
  | nil => exact ⟨.one first, by simp [Kind.joined, Conjuncts.kind, tokens], rfl⟩
  | cons second others ih =>
    obtain ⟨d, htokens, hformulas⟩ := ih second
    refine ⟨.more first d, ?_, congrArg (first.formula :: ·) hformulas⟩
    rw [tokens, htokens]
    simp [Kind.joined, Conjuncts.kind]

theorem Joined.conjuncts {text cs : List Char}
    (h : Joined text Operand.kind .andOp .and cs) : Attempt text Conjuncts.kind cs := by
  refine h.attempt all rfl rfl rfl (fun _ _ => rfl) fun first others => ?_
  obtain ⟨c, htokens, hformulas⟩ := Conjuncts.exists_joined first others
  have hcollapse := c.collapse_formulas
  rw [hformulas] at hcollapse
  exact ⟨c, htokens, hcollapse⟩

theorem Joined.disjuncts {text cs : List Char}
    (h : Joined text Conjuncts.kind .orOp .or cs) : Attempt text Disjuncts.kind cs := by
  refine h.attempt any rfl rfl rfl (fun _ _ => rfl) fun first others => ?_
  obtain ⟨d, htokens, hformulas⟩ := Disjuncts.exists_joined first others
  have hcollapse := d.collapse_formulas
  rw [hformulas] at hcollapse
  exact ⟨d, htokens, hcollapse⟩

/-! ### Operands -/

/-- An operand under some negations. -/
def Operand.negated : Nat → Operand → Operand
  | 0, o => o
  | n + 1, o => .negation (negated n o)

theorem Operand.tokens_negated (o : Operand) (n : Nat) :
    (negated n o).tokens = List.replicate n .not ++ o.tokens := by
  induction n with
  | zero => rfl
  | succ n ih => rw [negated, tokens, ih, List.replicate_succ, List.cons_append]

theorem Operand.formula_negated (o : Operand) (n : Nat) :
    (negated n o).formula = negate n o.formula := by
  induction n with
  | zero => rfl
  | succ n ih => rw [negated, formula, ih, negate]

theorem screened_negations (n : Nat) (ts : List Token) {α : Type} (a : α) :
    screened (List.replicate n .not ++ ts) a = screened ts a := by
  induction n with
  | zero => rfl
  | succ n ih => rw [List.replicate_succ, List.cons_append, screened_cons rfl, ih]

theorem LacksOperand.of_scan {cs rest : List Char} (n : Nat)
    (hscan : scan cs = List.replicate n .not ++ scan rest) (h : LacksOperand rest) :
    LacksOperand cs := by
  intro negations level outer
  rw [hscan]
  clear hscan
  induction n generalizing negations with
  | zero => exact h negations level outer
  | succ n ih => simpa [List.replicate_succ, next?] using ih (negations + 1)

/-- After an operand, a formula goes on with AND or OR, or with a closing parenthesis that is
due, or ends if none is due. -/
theorem Ends.run_eq_none {ts : List Token} (ends : Ends [.or, .and] ts) {level : Level}
    {outer : List Frame} (hfinish : (hasOperand level outer).finish? = none ∨ ts ≠ [])
    (hclosing : outer = [] ∨ .closing ∉ ts.head?) : (hasOperand level outer).run ts = none := by
  by_contra hsome
  obtain ⟨f, hf⟩ := Option.ne_none_iff_exists'.mp hsome
  have hends := ends level outer f hf
  cases ts with
  | nil => simp_all
  | cons t ts =>
    cases t with
    | and | or => simp at hends
    | closing =>
      rcases hclosing with rfl | hclosing
      · simp [next?] at hf
      · simp at hclosing
    | not | opening | number | stray => simp [next?] at hf

theorem lacksOperand_of_head? {cs : List Char} (hnot : .not ∉ (scan cs).head?)
    (hopening : .opening ∉ (scan cs).head?)
    (hnumber : ∀ digits, .number digits ∉ (scan cs).head?) : LacksOperand cs := by
  intro negations level outer
  cases hscan : scan cs with
  | nil => rfl
  | cons t ts =>
    rw [hscan] at hnot hopening hnumber
    cases t with
    | not => simp at hnot
    | opening => simp at hopening
    | number digits => simp at hnumber
    | and | or | closing | stray => simp [next?]

/-- The words NOT before an operand, all of them, and the walk over their pairs. -/
theorem exists_negations (text cs : List Char) :
    ∃ n pairs rest, Matches text false (.more (.rule .notOp)) cs (some (pairs, rest)) ∧
      scan cs = List.replicate n .not ++ scan rest ∧ rest.length ≤ cs.length ∧
      .not ∉ (scan rest).head? ∧
      ∀ negations later, negatedFormula negations none (pairs ++ later) =
        negatedFormula (negations + n) none later := by
  rcases isWord_notOp text (skip false cs) (isClear_skip cs) with
    ⟨pair, after, hword⟩ | ⟨hfailed, hnot⟩
  · have hshorter : after.length < cs.length :=
      Nat.lt_of_lt_of_le hword.shorter (length_skip_le cs)
    obtain ⟨n, pairs, rest, hmore, hscan, hlength, hhead, hwalk⟩ := exists_negations text after
    refine ⟨n + 1, pair :: pairs, rest, .more hword.matched hmore, ?_, by omega, hhead,
      fun negations later => ?_⟩
    · rw [← scan_skip cs, hword.scan_eq, hscan, List.replicate_succ]
      rfl
    · rw [List.cons_append, negatedFormula, if_pos hword.rule_eq, hwalk, Nat.add_assoc,
        Nat.add_comm 1]
  · exact ⟨0, [], cs, .more_none hfailed, rfl, Nat.le_refl _, by simpa using hnot,
      fun _ _ => rfl⟩
termination_by cs.length

/-- The kind of an operand without negations. -/
def Operand.primaryKind : Kind Operand := { kind with rule := .primary }

theorem reference_of_digit (text : List Char) {c : Char} (hc : c.isDigit = true)
    (cs : List Char) :
    ∃ pair, Found text .reference [.number (c :: cs.takeWhile Char.isDigit)] pair (c :: cs)
        (cs.dropWhile Char.isDigit) ∧
      pair.formula = screened [.number (c :: cs.takeWhile Char.isDigit)]
        (row (decimal (c :: cs.takeWhile Char.isDigit))) := by
  have htake : (c :: cs).take ((c :: cs).length - (cs.dropWhile Char.isDigit).length) =
      c :: cs.takeWhile Char.isDigit := by
    have htext : (c :: cs.takeWhile Char.isDigit) ++ cs.dropWhile Char.isDigit = c :: cs := by
      simp
    rw [← htext, List.length_append, Nat.add_sub_cancel, List.take_left]
  refine ⟨_, ⟨.rule_some .reference (Matches.plus_character hc cs), rfl, scan_digit hc cs, ?_⟩, ?_⟩
  · exact Nat.lt_succ_of_le (length_dropWhile_le _ cs)
  · rw [htake, Pair.formula, screened, List.findSome?_cons, Token.oversized?]
    split_ifs <;> rfl

theorem reference_of_not_digit {text cs : List Char} (h : ∀ c ∈ cs.head?, c.isDigit = false) :
    Matches text false (.rule .reference) cs none :=
  .rule_none .reference (.seq_fail (Matches.character_none h))

section Group

variable {text cs rest : List Char} {d : Disjuncts} {pair : Pair}

theorem opening_matched (text cs : List Char) :
    Matches text false (.character (· == '(')) ('(' :: cs) (some ([], cs)) :=
  Matches.character_some rfl cs

theorem scan_opening (cs : List Char) : scan ('(' :: cs) = .opening :: scan cs :=
  scan_character rfl rfl cs

theorem scan_closing (cs : List Char) : scan (')' :: cs) = .closing :: scan cs :=
  scan_character rfl rfl cs

theorem group_of_closing
    (found : Found text .orExpr d.tokens pair (skip false cs) rest)
    (formula_eq : pair.formula = screened d.tokens d.formula)
    (hclosing : .closing ∈ (scan rest).head?) :
    ∃ groupPair after,
      Found text .group (Operand.group d).tokens groupPair ('(' :: cs) after ∧
        groupPair.formula = screened (Operand.group d).tokens (Operand.group d).formula := by
  obtain ⟨spelling, after, htext, hspelling, -⟩ := exists_spelling (isClear_skip rest)
    (by simpa using hclosing) (by simp)
  rw [show spelling = [')'] from hspelling, List.singleton_append] at htext
  have hclose : Matches text false (.character (· == ')')) (skip false rest)
      (some ([], after)) := by
    rw [htext]
    exact Matches.character_some rfl after
  refine ⟨_, after, ⟨.rule_some .group ((opening_matched text cs).seq_some
    (found.matched.seq_some hclose)), rfl, ?_, ?_⟩, ?_⟩
  · rw [scan_opening, ← scan_skip cs, found.scan_eq, ← scan_skip rest, htext, scan_closing,
      Operand.tokens]
    simp
  · have := found.shorter
    have := length_skip_le cs
    have := length_skip_le rest
    have := congrArg List.length htext
    simp only [List.length_cons] at this ⊢
    omega
  · rw [Pair.formula, List.nil_append, List.singleton_append, soughtFormula_cons found.rule_eq,
      formula_eq, screened_map, Operand.tokens, screened_cons rfl, screened_closing]
    rfl

theorem group_of_not_closing
    (found : Found text .orExpr d.tokens pair (skip false cs) rest)
    (ends : Ends [.or, .and] (scan rest)) (hclosing : .closing ∉ (scan rest).head?) :
    Matches text false (.rule .group) ('(' :: cs) none ∧ LacksOperand ('(' :: cs) := by
  constructor
  · have hnone : ∀ c ∈ (skip false rest).head?, (c == ')') = false := by
      intro c hc
      rw [beq_eq_false_iff_ne]
      rintro rfl
      obtain ⟨after, hafter⟩ := List.head?_eq_some_iff.mp hc
      rw [← scan_skip rest, hafter, scan_closing] at hclosing
      exact hclosing rfl
    exact .rule_none .group ((opening_matched text cs).seq_none
      (found.matched.seq_none (Matches.character_none hnone)))
  · intro negations level outer
    have hread := run_append (d.advance_tokens [] (⟨level, negations⟩ :: outer)) (scan rest)
    rw [← found.scan_eq, scan_skip] at hread
    simp only [scan_opening, run_cons, next?, Option.bind_some, Level.empty, hread]
    exact ends.run_eq_none (.inl rfl) (.inr hclosing)

theorem group_of_lacksOperand (failed : Matches text false (.rule .orExpr) (skip false cs) none)
    (lacks : LacksOperand (skip false cs)) :
    Matches text false (.rule .group) ('(' :: cs) none ∧ LacksOperand ('(' :: cs) := by
  refine ⟨.rule_none .group ((opening_matched text cs).seq_none (.seq_fail failed)),
    fun negations level outer => ?_⟩
  have hnone := lacks 0 .empty (⟨level, negations⟩ :: outer)
  rw [scan_skip] at hnone
  simp [scan_opening, next?, hnone]

theorem group_of_not_opening (h : ∀ c ∈ cs.head?, c ≠ '(') :
    Matches text false (.rule .group) cs none :=
  .rule_none .group (.seq_fail (Matches.character_none (by simpa using h)))

end Group

section Primary

variable {text cs rest : List Char} {o : Operand} {pair : Pair}

theorem formula_primary (h : pair.rule = .reference ∨ pair.rule = .group) (matched : List Char) :
    (Pair.node .primary matched [pair]).formula = pair.formula :=
  if_pos h

theorem attempt_of_reference (found : Found text .reference o.tokens pair cs rest)
    (formula_eq : pair.formula = screened o.tokens o.formula) :
    Attempt text Operand.primaryKind cs := by
  refine .found o ⟨.rule_some .primary (.choice_first found.matched), rfl, found.scan_eq,
    found.shorter⟩ ?_ (by simp [Ends, Operand.primaryKind, Operand.kind])
  exact (formula_primary (.inl found.rule_eq) _).trans formula_eq

theorem attempt_of_group (failed : Matches text false (.rule .reference) cs none)
    (found : Found text .group o.tokens pair cs rest)
    (formula_eq : pair.formula = screened o.tokens o.formula) :
    Attempt text Operand.primaryKind cs := by
  refine .found o ⟨.rule_some .primary (.choice_second failed found.matched), rfl,
    found.scan_eq, found.shorter⟩ ?_ (by simp [Ends, Operand.primaryKind, Operand.kind])
  exact (formula_primary (.inr found.rule_eq) _).trans formula_eq

theorem attempt_of_failed (reference : Matches text false (.rule .reference) cs none)
    (group : Matches text false (.rule .group) cs none) (lacks : LacksOperand cs) :
    Attempt text Operand.primaryKind cs :=
  .failed (.rule_none .primary (.choice_second reference group)) lacks

end Primary

/-- Where no NOT stands, there is a number or a group, or no operand. -/
theorem attempt_primary {text cs : List Char} (hcs : IsClear cs) (hnot : .not ∉ (scan cs).head?)
    (hinner : ∀ cs', cs'.length < cs.length → IsClear cs' → Attempt text Disjuncts.kind cs') :
    Attempt text Operand.primaryKind cs := by
  by_cases hdigit : ∃ c ∈ cs.head?, c.isDigit = true
  · obtain ⟨c, hhead, hc⟩ := hdigit
    obtain ⟨cs, rfl⟩ := List.head?_eq_some_iff.mp hhead
    obtain ⟨pair, found, formula_eq⟩ := reference_of_digit text hc cs
    exact attempt_of_reference (o := .number (c :: cs.takeWhile Char.isDigit)) found formula_eq
  have hreference : Matches text false (.rule .reference) cs none :=
    reference_of_not_digit (by simpa using hdigit)
  by_cases hopening : '(' ∈ cs.head?
  · obtain ⟨cs, rfl⟩ := List.head?_eq_some_iff.mp hopening
    have hshorter : (skip false cs).length < ('(' :: cs).length :=
      Nat.lt_succ_of_le (length_skip_le cs)
    cases hinner (skip false cs) hshorter (isClear_skip cs) with
    | failed failed lacks =>
      obtain ⟨hgroup, hlacks⟩ := group_of_lacksOperand failed lacks
      exact attempt_of_failed hreference hgroup hlacks
    | @found d pair rest found formula_eq ends =>
      by_cases hclosing : .closing ∈ (scan rest).head?
      · obtain ⟨groupPair, after, hfound, hformula⟩ := group_of_closing found formula_eq hclosing
        exact attempt_of_group hreference hfound hformula
      · obtain ⟨hgroup, hlacks⟩ := group_of_not_closing found ends hclosing
        exact attempt_of_failed hreference hgroup hlacks
  · refine attempt_of_failed hreference (group_of_not_opening ?_)
      (lacksOperand_of_head? hnot ?_ ?_)
    · rintro c hc rfl
      exact hopening hc
    · intro hmem
      obtain ⟨spelling, rest, rfl, hspelling, -⟩ := exists_spelling hcs hmem (by simp)
      rw [show spelling = ['('] from hspelling] at hopening
      exact hopening rfl
    · intro digits hmem
      obtain ⟨spelling, rest, rfl, ⟨rfl, hne, hdigits⟩, -⟩ := exists_spelling hcs hmem (by simp)
      obtain ⟨c, cs, rfl⟩ := List.exists_cons_of_ne_nil hne
      exact hdigit ⟨c, rfl, hdigits c (by simp)⟩

/-- An operand is matched with all the negations before it. -/
theorem attempt_operand {text cs : List Char} (hcs : IsClear cs)
    (hinner : ∀ cs', cs'.length < cs.length → IsClear cs' → Attempt text Disjuncts.kind cs') :
    Attempt text Operand.kind cs := by
  obtain ⟨n, pairs, rest, hmore, hscan, hlength, hhead, hwalk⟩ := exists_negations text cs
  obtain ⟨rest', hstar, hrest⟩ := hmore.star_of_more
  rw [skip_of_isClear hcs] at hstar
  have hskip : skip false rest' = skip false rest := by
    rcases hrest with rfl | rfl
    · rfl
    · exact skip_of_isClear (isClear_skip rest)
  have hlength' : (skip false rest).length ≤ cs.length :=
    Nat.le_trans (length_skip_le rest) hlength
  rw [← scan_skip rest] at hscan hhead
  cases attempt_primary (isClear_skip rest) hhead
      (fun cs' hcs' => hinner cs' (by omega)) with
  | failed failed lacks =>
    refine .failed (.rule_none .notExpr (hstar.seq_none ?_)) (lacks.of_scan n hscan)
    rwa [hskip]
  | @found o pair last found formula_eq ends =>
    have hmatched : Matches text false Rule.notExpr.body cs (some (pairs ++ [pair], last)) := by
      refine hstar.seq_some ?_
      rw [hskip]
      exact found.matched
    have htokens : Operand.kind.tokens (.negated n o) =
        List.replicate n .not ++ Operand.primaryKind.tokens o := o.tokens_negated n
    have hformula : Operand.kind.formula (.negated n o) =
        negate n (Operand.primaryKind.formula o) := o.formula_negated n
    refine .found (.negated n o) ⟨.rule_some .notExpr hmatched, rfl, ?_, ?_⟩ ?_
      (by simp [Ends, Operand.kind])
    · rw [hscan, found.scan_eq, htokens, List.append_assoc]
    · exact Nat.lt_of_lt_of_le found.shorter hlength'
    · have hprimary : pair.rule = .primary := found.rule_eq
      have hwalked : (Pair.node .notExpr (cs.take (cs.length - last.length))
          (pairs ++ [pair])).formula = negatedFormula (0 + n) none [pair] := hwalk 0 [pair]
      refine hwalked.trans ?_
      rw [htokens, hformula, screened_negations, negatedFormula, if_neg (by simp [hprimary]),
        if_pos hprimary, formula_eq, Nat.zero_add]
      exact screened_bind _ rfl

/-! ### Texts -/

/-- Wherever it is tried, the rule for operands of OR matches a phrase, or there is no operand.
The rules inside it are tried at the same place, or further on. -/
theorem attempt_disjuncts (text cs : List Char) (hcs : IsClear cs) :
    Attempt text Disjuncts.kind cs := by
  have hoperand (cs' : List Char) (hlength : cs'.length ≤ cs.length) (hcs' : IsClear cs') :
      Attempt text Operand.kind cs' :=
    attempt_operand hcs' fun cs'' hshorter hcs'' => attempt_disjuncts text cs'' hcs''
  have hconjuncts (cs' : List Char) (hlength : cs'.length ≤ cs.length) (hcs' : IsClear cs') :
      Attempt text Conjuncts.kind cs' :=
    Joined.conjuncts (attempt_joined (isWord_andOp text) (by simp [Operand.kind]) (by simp) cs'
      (fun cs'' hlength'' => hoperand cs'' (by omega)) hcs')
  exact Joined.disjuncts (attempt_joined (isWord_orOp text) (by simp [Conjuncts.kind]) (by simp) cs
    hconjuncts hcs)
termination_by cs.length

/-- What an error of the reader is to the rules, which do not tell of places. -/
def ParseError.rejection : ParseError → Rejection
  | .unexpected _ => .unmatched
  | .oversized digits => .oversized digits

theorem screened_phrase {s : String} (d : Derivation s.toList) :
    screened d.phrase.tokens d.formula = (parse s).mapError ParseError.rejection := by
  have hnumbers : d.phrase.tokens.findSome? Token.oversized? =
      d.numbers.find? (maxRow < decimal ·) := Derivation.findSome?_oversized? _
  rw [screened, hnumbers]
  cases hfind : d.numbers.find? (maxRow < decimal ·) with
  | none =>
    rw [parse_of_derivation d hfind]
    rfl
  | some digits =>
    rw [parse_of_oversized d hfind]
    rfl

theorem endOfInput_some (text : List Char) :
    Matches text false (.rule .endOfInput) [] (some ([.node .endOfInput [] []], [])) := by
  have hbody : Matches text false Rule.endOfInput.body [] (some ([], [])) :=
    Matches.terminal_some rfl
  exact .rule_some .endOfInput hbody

theorem endOfInput_none {text cs : List Char} (h : cs ≠ []) :
    Matches text false (.rule .endOfInput) cs none := by
  have hbody : Matches text false Rule.endOfInput.body cs none :=
    Matches.terminal_none (if_neg h)
  exact .rule_none .endOfInput hbody

theorem parses_of_run {s : String} (h : start.run (scan s.toList) = none)
    (hfailed : Matches s.toList false (.rule .logic) s.toList none) :
    Parses s.toList ((parse s).mapError ParseError.rejection) := by
  obtain ⟨place, hplace⟩ := parse_of_isEmpty (Derivation.isEmpty_of_run h)
  rw [hplace]
  exact .unmatched hfailed

/-- The rules make of every text what the reader does: the same formula, or the same number
is too large, or both turn the text down. -/
theorem parses_parse (s : String) :
    Parses s.toList ((parse s).mapError ParseError.rejection) := by
  have hstart : Matches s.toList false (.terminal .start) s.toList (some ([], s.toList)) :=
    Matches.terminal_some (if_pos rfl)
  have hscan := scan_skip s.toList
  cases attempt_disjuncts s.toList (skip false s.toList) (isClear_skip _) with
  | failed failed lacks =>
    refine parses_of_run ?_ (.rule_none .logic (hstart.seq_none (.seq_fail failed)))
    rw [← hscan]
    exact lacks 0 .empty []
  | @found d pair rest found formula_eq ends =>
    have htokens : scan s.toList = d.tokens ++ scan rest := hscan.symm.trans found.scan_eq
    by_cases hrest : skip false rest = []
    · have hend := endOfInput_some s.toList
      rw [← hrest] at hend
      obtain ⟨derivation, hphrase⟩ : ∃ derivation : Derivation s.toList, derivation.phrase = d := by
        refine Derivation.exists_of_scan ?_
        rw [htokens, ← scan_skip rest, hrest, scan_nil, List.append_nil]
      have hformula : pair.formula = (parse s).mapError ParseError.rejection := by
        rw [formula_eq, ← screened_phrase derivation, Derivation.formula, hphrase]
        rfl
      have hparses := Parses.matched
        (Matches.rule_some .logic (hstart.seq_some (found.matched.seq_some hend)))
      rwa [Pair.formula, List.nil_append, List.singleton_append,
        soughtFormula_cons found.rule_eq, hformula] at hparses
    · refine parses_of_run ?_ (.rule_none .logic
        (hstart.seq_none (found.matched.seq_none (endOfInput_none hrest))))
      have hne : scan rest ≠ [] := by
        rw [← scan_skip rest]
        exact fun hnil => hrest (eq_nil_of_scan (isClear_skip rest) hnil)
      rw [htokens, start, Level.empty, run_append (d.advance_tokens [] [])]
      exact ends.run_eq_none (.inr hne) (.inl rfl)

theorem parses_iff {s : String} {result : Except Rejection Formula} :
    Parses s.toList result ↔ result = (parse s).mapError ParseError.rejection :=
  ⟨fun h => h.unique (parses_parse s), fun h => h ▸ parses_parse s⟩

/-- The walk knows what to do with all pairs that the rules make. -/
theorem not_parses_malformed (s : String) (message : String) :
    ¬ Parses s.toList (.error (.malformed message)) := by
  rw [parses_iff]
  cases parse s with
  | ok f => exact nofun
  | error e => cases e <;> exact nofun

end Formula
end QueryFilter
