import QueryFilter.Proofs.Formula.Matching
import QueryFilter.Proofs.Formula.Reading

/-!
# Joined phrases

The rules for the operands of AND and for those of OR are alike: each goes on for as long as
the word that joins the operands is followed by one, and gives a word back that is not. What
such a rule comes to is shown for both at once, for any kind of phrase.
-/

namespace QueryFilter
namespace Formula

open ReaderState

/-! ### Phrases -/

/-- Something that is found in some tokens, or the first of them that is a number too large
for a row. -/
def screened {α : Type} (ts : List Token) (a : α) : Except Rejection α :=
  match ts.findSome? Token.oversized? with
  | some digits => .error (.oversized digits)
  | none => .ok a

section Screened

variable {α β : Type}

theorem screened_bind (ts : List Token) {a : α} {b : β} {next : α → Except Rejection β}
    (h : next a = .ok b) : (screened ts a).bind next = screened ts b := by
  unfold screened
  cases ts.findSome? Token.oversized? with
  | some digits => rfl
  | none => exact h

theorem screened_map (ts : List Token) (a : α) (f : α → β) :
    (screened ts a).map f = screened ts (f a) := by
  unfold screened
  cases ts.findSome? Token.oversized? <;> rfl

theorem screened_append (ts us : List Token) {a : α} {b : β} {next : α → Except Rejection β}
    (h : next a = screened us b) : (screened ts a).bind next = screened (ts ++ us) b := by
  rw [screened, screened, List.findSome?_append]
  cases ts.findSome? Token.oversized? with
  | some digits => rfl
  | none => exact h

theorem screened_cons {t : Token} (ht : t.oversized? = none) (ts : List Token) (a : α) :
    screened (t :: ts) a = screened ts a := by
  rw [screened, screened, List.findSome?_cons_of_isNone (by simp [ht])]

theorem screened_closing (ts : List Token) (a : α) :
    screened (ts ++ [.closing]) a = screened ts a := by
  simp [screened, Token.oversized?]

end Screened

/-- A kind of phrase: the rule for it, the tokens and the formula of a phrase, and the tokens
that a phrase goes on with. -/
structure Kind (α : Type) where
  rule : Rule
  tokens : α → List Token
  formula : α → Formula
  joiners : List Token

/-- Whether no formula is accepted that goes on, after an operand, with a joining token. -/
def Ends (joiners ts : List Token) : Prop :=
  ∀ level outer f, (hasOperand level outer).run ts = some f → ∀ t ∈ joiners, t ∉ ts.head?

/-- Whether no formula is accepted that has an operand at the start of a text. -/
def LacksOperand (cs : List Char) : Prop :=
  ∀ negations level outer, (needsOperand negations level outer).run (scan cs) = none

/-- How the rule for a kind of phrase comes out: it matches a phrase, which ends there, or it
fails where there is no operand. -/
inductive Attempt {α : Type} (text : List Char) (kind : Kind α) (cs : List Char) : Prop
  | found (phrase : α) {pair : Pair} {rest : List Char}
      (found : Found text kind.rule (kind.tokens phrase) pair cs rest)
      (formula_eq : pair.formula = screened (kind.tokens phrase) (kind.formula phrase))
      (ends : Ends kind.joiners (scan rest))
  | failed (failed : Matches text false (.rule kind.rule) cs none) (lacks : LacksOperand cs)

/-! ### Joined phrases -/

/-- The tokens of phrases with a token between them. -/
def Kind.joined {α : Type} (kind : Kind α) (t : Token) (first : α) (others : List α) :
    List Token :=
  kind.tokens first ++ others.flatMap fun phrase => t :: kind.tokens phrase

/-- Phrases that are joined by a token: the first, which its rule matches, and the others,
before each of which the rule for the token matches. -/
structure Series {α : Type} (text : List Char) (kind : Kind α) (operator : Rule) (t : Token)
    (phrase : α) (others : List α) (pair : Pair) (later : List Pair)
    (cs mid last : List Char) : Prop where
  first : Matches text false (.rule kind.rule) cs (some ([pair], mid))
  more : Matches text false (.more (.seq (.rule operator) (.rule kind.rule))) mid
    (some (later, last))
  scan_eq : scan cs = kind.joined t phrase others ++ scan last
  shorter : last.length < cs.length
  formulas_eq : formulas kind.rule (pair :: later) =
    screened (kind.joined t phrase others) ((phrase :: others).map kind.formula)
  ends : Ends (t :: kind.joiners) (scan last)

/-- How joined phrases come out: there are some, which end there, or there is no operand to
begin with. -/
inductive Joined {α : Type} (text : List Char) (kind : Kind α) (operator : Rule) (t : Token)
    (cs : List Char) : Prop
  | found {phrase : α} {others : List α} {pair : Pair} {later : List Pair} {mid last : List Char}
      (series : Series text kind operator t phrase others pair later cs mid last)
  | failed (failed : Matches text false (.rule kind.rule) cs none) (lacks : LacksOperand cs)

theorem formulas_cons {rule : Rule} {pair : Pair} {pairs : List Pair} {ts us : List Token}
    {f : Formula} {fs : List Formula} (hrule : pair.rule = rule)
    (hf : pair.formula = screened ts f) (hfs : formulas rule pairs = screened us fs) :
    formulas rule (pair :: pairs) = screened (ts ++ us) (f :: fs) := by
  rw [formulas, if_pos hrule, hf, hfs]
  exact screened_append ts us (screened_map us fs (f :: ·))

theorem formulas_cons_of_ne {rule : Rule} {pair : Pair} (h : pair.rule ≠ rule)
    (pairs : List Pair) : formulas rule (pair :: pairs) = formulas rule pairs := by
  rw [formulas, if_neg h]

theorem LacksOperand.run_eq_none {cs : List Char} (h : LacksOperand cs) {t : Token}
    (ht : t = .and ∨ t = .or) (level : Level) (outer : List Frame) :
    (hasOperand level outer).run (t :: scan cs) = none := by
  rcases ht with rfl | rfl <;> simp [next?, h _ _ _]

section Joined

variable {α : Type} {text : List Char} {kind : Kind α} {operator : Rule} {t : Token}
  {phrase : α} {pair : Pair} {cs mid : List Char}
  (found : Found text kind.rule (kind.tokens phrase) pair cs mid)
  (formula_eq : pair.formula = screened (kind.tokens phrase) (kind.formula phrase))
include found formula_eq

theorem series_one (ends : Ends kind.joiners (scan mid)) (hends : Ends [t] (scan mid))
    (hfailed : Matches text false (.seq (.rule operator) (.rule kind.rule)) (skip false mid) none) :
    Series text kind operator t phrase [] pair [] cs mid mid where
  first := found.matched
  more := .more_none hfailed
  scan_eq := by simpa [Kind.joined] using found.scan_eq
  shorter := found.shorter
  formulas_eq := formulas_cons found.rule_eq formula_eq rfl
  ends level outer f hrun :=
    List.forall_mem_cons.mpr ⟨hends level outer f hrun t (by simp), ends level outer f hrun⟩

theorem series_cons (ht : t.oversized? = none) (hne : operator ≠ kind.rule)
    {operatorPair next : Pair} {after mid' last : List Char} {first : α} {others : List α}
    {later : List Pair} (hword : Found text operator [t] operatorPair (skip false mid) after)
    (series : Series text kind operator t first others next later (skip false after) mid' last) :
    Series text kind operator t phrase (first :: others) pair (operatorPair :: next :: later) cs
      mid last where
  first := found.matched
  more := .more (hword.matched.seq_some series.first) series.more
  scan_eq := by
    have hmid : scan mid = t :: scan after := by simpa using hword.scan_eq
    rw [found.scan_eq, hmid, ← scan_skip after, series.scan_eq]
    simp [Kind.joined]
  shorter := by
    have := found.shorter
    have := hword.shorter
    have := series.shorter
    have := length_skip_le mid
    have := length_skip_le after
    omega
  formulas_eq := by
    refine formulas_cons found.rule_eq formula_eq ?_
    rw [formulas_cons_of_ne (by rwa [hword.rule_eq]), series.formulas_eq]
    exact (screened_cons ht _ _).symm
  ends := series.ends

end Joined

/-- Phrases are joined for as long as the word that joins them is followed by a phrase. -/
theorem attempt_joined {α : Type} {text : List Char} {kind : Kind α} {operator : Rule} {t : Token}
    (hoperator : IsWord text operator t) (hne : operator ≠ kind.rule)
    (ht : t = .and ∨ t = .or) (cs : List Char)
    (hphrase : ∀ cs', cs'.length ≤ cs.length → IsClear cs' → Attempt text kind cs')
    (hcs : IsClear cs) : Joined text kind operator t cs := by
  have htoken : t.oversized? = none := by rcases ht with rfl | rfl <;> rfl
  cases hphrase cs (Nat.le_refl _) hcs with
  | failed failed lacks => exact .failed failed lacks
  | @found phrase pair mid found formula_eq ends =>
    rcases hoperator (skip false mid) (isClear_skip mid) with
      ⟨operatorPair, after, hword⟩ | ⟨hfailed, hnot⟩
    · have hmid : scan mid = t :: scan after := by simpa using hword.scan_eq
      have hshorter : (skip false after).length < cs.length := by
        have := found.shorter
        have := hword.shorter
        have := length_skip_le mid
        have := length_skip_le after
        omega
      cases attempt_joined hoperator hne ht (skip false after)
          (fun cs' hcs' => hphrase cs' (by omega)) (isClear_skip after) with
      | found series => exact .found (series_cons found formula_eq htoken hne hword series)
      | failed failed lacks =>
        -- the word is given back, and what follows it cannot be accepted
        refine .found (series_one found formula_eq ends (fun level outer f hrun => ?_)
          (hword.matched.seq_none failed))
        have hnone := lacks.run_eq_none ht level outer
        rw [scan_skip, ← hmid, hrun] at hnone
        cases hnone
    · refine .found (series_one found formula_eq ends (fun level outer f hrun => ?_)
        (.seq_fail hfailed))
      simpa using hnot
termination_by cs.length

/-- A rule for joined phrases matches a phrase of a wider kind, if they make one. -/
theorem Joined.attempt {α β : Type} {text : List Char} {kind : Kind α} {wider : Kind β}
    {t : Token} {operator : Rule} (combine : List Formula → Formula)
    (hbody : wider.rule.body = .joined kind.rule operator) (hatomic : wider.rule.isAtomic = false)
    (hjoiners : wider.joiners = t :: kind.joiners)
    (hformula : ∀ matched inner, (Pair.node wider.rule matched inner).formula =
      (formulas kind.rule inner).bind (collapse combine))
    (hmake : ∀ first others, ∃ made, wider.tokens made = kind.joined t first others ∧
      collapse combine ((first :: others).map kind.formula) = .ok (wider.formula made))
    {cs : List Char} (h : Joined text kind operator t cs) : Attempt text wider cs := by
  cases h with
  | failed failed lacks =>
    refine .failed (.rule_none _ ?_) lacks
    rw [hbody, hatomic]
    exact .seq_fail failed
  | @found phrase others pair later mid last series =>
    obtain ⟨made, htokens, hcollapse⟩ := hmake phrase others
    obtain ⟨last', hstar, hlast⟩ := series.more.star_of_more
    have hscan : scan last' = scan last := by
      rcases hlast with rfl | rfl
      · rfl
      · exact scan_skip last
    have hlength : last'.length ≤ last.length := by
      rcases hlast with rfl | rfl
      · exact Nat.le_refl _
      · exact length_skip_le last
    have hmatched : Matches text wider.rule.isAtomic wider.rule.body cs
        (some (pair :: later, last')) := by
      rw [hbody, hatomic]
      exact series.first.seq_some hstar
    refine .found made ⟨.rule_some _ hmatched, rfl, ?_, ?_⟩ ?_ ?_
    · rw [htokens, hscan, series.scan_eq]
    · exact Nat.lt_of_le_of_lt hlength series.shorter
    · rw [hformula, series.formulas_eq, htokens]
      exact screened_bind _ hcollapse
    · rw [hjoiners, hscan]
      exact series.ends

end Formula
end QueryFilter
