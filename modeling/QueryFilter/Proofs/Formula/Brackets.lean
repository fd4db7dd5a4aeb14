import QueryFilter.Proofs.Formula.Balance
import QueryFilter.Proofs.Formula.Parse

/-!
# Parentheses of texts that are formulas

Whether parentheses are balanced depends on the parentheses alone. In a phrase
each group closes what it opens, so a text with a derivation is balanced, and it
has a token, so it is not blank.
-/

namespace QueryFilter
namespace Formula

theorem brackets_eq_nil {cs : List Char}
    (h : ∀ c ∈ cs, isSkipped c = true ∨ c.isAlphanum = true) : brackets cs = [] := by
  refine List.filter_eq_nil_iff.mpr fun c hc => ?_
  have hword := h c hc
  intro hbracket
  rw [Bool.or_eq_true, decide_eq_true_eq, decide_eq_true_eq] at hbracket
  rcases hbracket with rfl | rfl
  · exact absurd hword (by decide)
  · exact absurd hword (by decide)

/-! ### Tokens -/

def Token.brackets : Token → List Char
  | opening => ['(']
  | closing => [')']
  | _ => []

theorem Token.Spells.brackets_eq {t : Token} {spelling : List Char} (h : t.Spells spelling) :
    Formula.brackets spelling = t.brackets := by
  rcases h.word_or_parenthesis with ⟨-, hword, hopening, hclosing⟩ | ⟨rfl, rfl⟩ | ⟨rfl, rfl⟩
  · rw [brackets_eq_nil fun c hc => .inr (hword c hc)]
    cases t with
    | opening => exact absurd rfl hopening
    | closing => exact absurd rfl hclosing
    | _ => rfl
  · rfl
  · rfl

/-- Every token has a character that is not blank. -/
theorem Token.Spells.exists_not_isBlank {t : Token} {spelling : List Char}
    (h : t.Spells spelling) : ∃ c ∈ spelling, Text.isBlank c = false := by
  rcases h.word_or_parenthesis with ⟨hne, hword, -, -⟩ | ⟨-, rfl⟩ | ⟨-, rfl⟩
  · obtain ⟨c, hc⟩ := List.exists_mem_of_ne_nil _ hne
    exact ⟨c, hc, not_isBlank_of_isAlphanum (hword c hc)⟩
  · exact ⟨'(', by simp, by decide⟩
  · exact ⟨')', by simp, by decide⟩

theorem IsLayout.brackets_writtenOut {trailing : List Char} {placed : List Placed}
    (h : IsLayout trailing placed) :
    brackets (writtenOut trailing placed) = (placed.map Placed.token).flatMap Token.brackets := by
  induction placed with
  | nil => exact brackets_eq_nil fun c hc => .inl (h c hc)
  | cons first rest ih =>
    obtain ⟨hblanks, hspells, -, hrest⟩ := h
    have hnone : brackets first.blanks = [] := brackets_eq_nil fun c hc => .inl (hblanks c hc)
    rw [writtenOut, brackets_append, brackets_append, hnone, hspells.brackets_eq, ih hrest]
    simp

/-! ### Phrases -/

/-- The parentheses of a phrase are balanced: each group closes what it opens. -/
theorem FromPhrase.balanced {ts : List Token} (h : FromPhrase ts) :
    Balanced (ts.flatMap Token.brackets) := by
  induction h with
  | number digits => exact .empty
  | negation _ ih => exact ih
  | group _ ih =>
    have hgroup := Balanced.pair ih .empty
    simpa [Token.brackets] using hgroup
  | joined word _ _ ih ih' =>
    have hjoined := ih.append ih'
    rcases word with rfl | rfl <;> simpa [Token.brackets] using hjoined

theorem FromPhrase.ne_nil {ts : List Token} (h : FromPhrase ts) : ts ≠ [] := by
  cases h <;> simp

namespace Derivation

variable {s : String}

theorem isBalanced (d : Derivation s.toList) : isBalanced s = true := by
  have hbalanced := d.phrase.fromPhrase.balanced
  rw [← d.tokens_eq, ← d.isLayout.brackets_writtenOut, d.text_eq] at hbalanced
  exact closesAll_zero_iff.mpr hbalanced

theorem not_isAllBlank (d : Derivation s.toList) : Text.isAllBlank s = false := by
  obtain ⟨placed, trailing, phrase, hlayout, htext, htokens⟩ := d
  cases placed with
  | nil => exact absurd htokens.symm phrase.fromPhrase.ne_nil
  | cons first rest =>
    obtain ⟨c, hc, hblank⟩ := hlayout.2.1.exists_not_isBlank
    rw [Text.isAllBlank, ← htext, List.all_eq_false]
    exact ⟨c, by simp [writtenOut, hc], by simp [hblank]⟩

end Derivation

end Formula
end QueryFilter
