import QueryFilter.Proofs.Formula.Grammar

/-!
# The grammar is unambiguous

The tokens of a phrase determine the phrase, and a text determines its tokens and
where they stand. So a text has at most one derivation.
-/

namespace QueryFilter
namespace Formula

/-! ### Phrases -/

mutual

/-- The operands of OR end where neither AND nor OR follows. -/
theorem Disjuncts.tokens_append_inj : ∀ {a b : Disjuncts} {r s : List Token},
    a.tokens ++ r = b.tokens ++ s → .and ∉ r.head? → .and ∉ s.head? → .or ∉ r.head? →
      .or ∉ s.head? → a = b ∧ r = s
  | .one a, .one b, r, s, h, hr, hs, _, _ => by
    obtain ⟨rfl, rfl⟩ := Conjuncts.tokens_append_inj (a := a) (b := b) h hr hs
    exact ⟨rfl, rfl⟩
  | .one a, .more b bs, r, s, h, hr, _, hr', _ => by
    simp only [Disjuncts.tokens, List.append_assoc, List.cons_append] at h
    obtain ⟨-, rfl⟩ := Conjuncts.tokens_append_inj (a := a) (b := b) h hr (by simp)
    simp at hr'
  | .more a as, .one b, r, s, h, _, hs, _, hs' => by
    simp only [Disjuncts.tokens, List.append_assoc, List.cons_append] at h
    obtain ⟨-, rfl⟩ := Conjuncts.tokens_append_inj (a := a) (b := b) h (by simp) hs
    simp at hs'
  | .more a as, .more b bs, r, s, h, hr, hs, hr', hs' => by
    simp only [Disjuncts.tokens, List.append_assoc, List.cons_append] at h
    obtain ⟨rfl, hrest⟩ := Conjuncts.tokens_append_inj (a := a) (b := b) h (by simp) (by simp)
    obtain ⟨rfl, rfl⟩ := Disjuncts.tokens_append_inj (a := as) (b := bs)
      (List.cons_inj_right _ |>.mp hrest) hr hs hr' hs'
    exact ⟨rfl, rfl⟩

/-- The operands of AND end where no AND follows. -/
theorem Conjuncts.tokens_append_inj : ∀ {a b : Conjuncts} {r s : List Token},
    a.tokens ++ r = b.tokens ++ s → .and ∉ r.head? → .and ∉ s.head? → a = b ∧ r = s
  | .one a, .one b, r, s, h, _, _ => by
    obtain ⟨rfl, rfl⟩ := Operand.tokens_append_inj (a := a) (b := b) h
    exact ⟨rfl, rfl⟩
  | .one a, .more b bs, r, s, h, hr, _ => by
    simp only [Conjuncts.tokens, List.append_assoc, List.cons_append] at h
    obtain ⟨-, rfl⟩ := Operand.tokens_append_inj (a := a) (b := b) h
    simp at hr
  | .more a as, .one b, r, s, h, _, hs => by
    simp only [Conjuncts.tokens, List.append_assoc, List.cons_append] at h
    obtain ⟨-, rfl⟩ := Operand.tokens_append_inj (a := a) (b := b) h
    simp at hs
  | .more a as, .more b bs, r, s, h, hr, hs => by
    simp only [Conjuncts.tokens, List.append_assoc, List.cons_append] at h
    obtain ⟨rfl, hrest⟩ := Operand.tokens_append_inj (a := a) (b := b) h
    obtain ⟨rfl, rfl⟩ := Conjuncts.tokens_append_inj (a := as) (b := bs)
      (List.cons_inj_right _ |>.mp hrest) hr hs
    exact ⟨rfl, rfl⟩

/-- No operand goes on after another. -/
theorem Operand.tokens_append_inj : ∀ {a b : Operand} {r s : List Token},
    a.tokens ++ r = b.tokens ++ s → a = b ∧ r = s
  | .number _, .number _, r, s, h => by simpa [Operand.tokens] using h
  | .group a, .group b, r, s, h => by
    simp only [Operand.tokens, List.cons_append, List.append_assoc, List.nil_append,
      List.cons.injEq, true_and] at h
    obtain ⟨rfl, hrest⟩ := Disjuncts.tokens_append_inj (a := a) (b := b) h (by simp) (by simp)
      (by simp) (by simp)
    exact ⟨rfl, List.cons_inj_right _ |>.mp hrest⟩
  | .negation a, .negation b, r, s, h => by
    simp only [Operand.tokens, List.cons_append, List.cons.injEq, true_and] at h
    obtain ⟨rfl, rfl⟩ := Operand.tokens_append_inj (a := a) (b := b) h
    exact ⟨rfl, rfl⟩
  | .number _, .group _, _, _, h => by simp [Operand.tokens] at h
  | .number _, .negation _, _, _, h => by simp [Operand.tokens] at h
  | .group _, .number _, _, _, h => by simp [Operand.tokens] at h
  | .group _, .negation _, _, _, h => by simp [Operand.tokens] at h
  | .negation _, .number _, _, _, h => by simp [Operand.tokens] at h
  | .negation _, .group _, _, _, h => by simp [Operand.tokens] at h

end

theorem Disjuncts.eq_of_tokens {a b : Disjuncts} (h : a.tokens = b.tokens) : a = b :=
  (Disjuncts.tokens_append_inj (r := []) (s := []) (by simpa using h) (by simp) (by simp)
    (by simp) (by simp)).1

end Formula
end QueryFilter
