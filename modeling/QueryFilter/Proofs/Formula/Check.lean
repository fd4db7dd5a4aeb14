import QueryFilter.Proofs.Formula.Brackets
import QueryFilter.Proofs.Formula.Numbers

/-!
# Formulas that fit

A text is accepted for a number of rows when it is a formula that mentions each
row and nothing else; the checks that come before the reader refuse no formula.
A text that is not accepted is refused for the first reason that applies.
-/

namespace QueryFilter
namespace Formula

/-- The first reason to refuse a text for a number of rows. -/
inductive Refusal (text : String) (rowCount : Nat) : Error → Prop
  | empty (blank : Text.isAllBlank text = true) : Refusal text rowCount (.conditions .empty)
  | unbalanced (written : Text.isAllBlank text = false) (unbalanced : isBalanced text = false) :
      Refusal text rowCount .unbalanced
  | ungrammatical {error : ParseError} (written : Text.isAllBlank text = false)
      (balanced : isBalanced text = true) (error_eq : parse text = .error error) :
      Refusal text rowCount (.conditions (.ungrammatical error))
  | numbers {f : Formula} {flaw : Flaw} (parse_eq : parse text = .ok f)
      (first : NumbersFlaw f rowCount flaw) : Refusal text rowCount (.conditions flaw)

/-- The checks before the reader pass every text that the grammar derives. -/
theorem passes_of_parse {text : String} (h : ∀ place, parse text ≠ .error (.unexpected place)) :
    Text.isAllBlank text = false ∧ isBalanced text = true := by
  obtain ⟨d⟩ := exists_derivation h
  exact ⟨d.not_isAllBlank, d.isBalanced⟩

theorem check_of_fitting {text : String} {rowCount : Nat} {f : Formula}
    (h : parse text = .ok f) (hflaw : f.numbersFlaw? rowCount = none) :
    check text rowCount = .ok f := by
  have hexpected : ∀ place, parse text ≠ .error (.unexpected place) := by simp [h]
  obtain ⟨hwritten, hbalanced⟩ := passes_of_parse hexpected
  simp [check, hwritten, hbalanced, h, hflaw]

theorem check_of_flaw {text : String} {rowCount : Nat} {f : Formula} {flaw : Flaw}
    (h : parse text = .ok f) (hflaw : f.numbersFlaw? rowCount = some flaw) :
    check text rowCount = .error (.conditions flaw) := by
  have hexpected : ∀ place, parse text ≠ .error (.unexpected place) := by simp [h]
  obtain ⟨hwritten, hbalanced⟩ := passes_of_parse hexpected
  simp [check, hwritten, hbalanced, h, hflaw]

theorem parse_of_check {text : String} {rowCount : Nat} {f : Formula}
    (h : check text rowCount = .ok f) : parse text = .ok f := by
  unfold check at h
  split_ifs at h
  split at h
  · cases h
  · next g hparse =>
    split at h
    · cases h
    · cases h
      exact hparse

theorem check_eq_ok_iff {text : String} {rowCount : Nat} {f : Formula} :
    check text rowCount = .ok f ↔
      parse text = .ok f ∧ ∀ n, n ∈ f.numbers ↔ 1 ≤ n ∧ n ≤ rowCount := by
  rw [← numbersFlaw?_eq_none_iff]
  constructor
  · intro h
    have hparse := parse_of_check h
    cases hflaw : f.numbersFlaw? rowCount with
    | none => exact ⟨hparse, rfl⟩
    | some flaw =>
      rw [check_of_flaw hparse hflaw] at h
      cases h
  · rintro ⟨hparse, hflaw⟩
    exact check_of_fitting hparse hflaw

theorem check_eq_error_iff {text : String} {rowCount : Nat} {error : Error} :
    check text rowCount = .error error ↔ Refusal text rowCount error := by
  constructor
  · intro h
    cases hparse : parse text with
    | ok f =>
      cases hflaw : f.numbersFlaw? rowCount with
      | none =>
        rw [check_of_fitting hparse hflaw] at h
        cases h
      | some flaw =>
        rw [check_of_flaw hparse hflaw] at h
        cases h
        exact .numbers hparse (numbersFlaw?_eq_some_iff.mp hflaw)
    | error e =>
      unfold check at h
      split_ifs at h with hblank hbalanced
      · cases h
        exact .empty hblank
      · cases h
        exact .unbalanced (by simpa using hblank) (by simpa using hbalanced)
      · rw [hparse] at h
        cases h
        exact .ungrammatical (by simpa using hblank) (by simpa using hbalanced) hparse
  · intro h
    cases h with
    | empty blank => simp [check, blank]
    | unbalanced written unbalanced => simp [check, written, unbalanced]
    | ungrammatical written balanced error_eq => simp [check, written, balanced, error_eq]
    | numbers parse_eq first => exact check_of_flaw parse_eq (numbersFlaw?_eq_some_iff.mpr first)

theorem fits_eq_true_iff {text : String} {rowCount : Nat} :
    fits text rowCount = true ↔
      ∃ f, parse text = .ok f ∧ ∀ n, n ∈ f.numbers ↔ 1 ≤ n ∧ n ≤ rowCount := by
  simp only [← check_eq_ok_iff]
  unfold fits
  cases check text rowCount with
  | ok f => simp [Except.isOk, Except.toBool]
  | error e => simp [Except.isOk, Except.toBool]

/-- A text fits at most one number of rows. -/
theorem eq_of_fits {text : String} {n m : Nat} (hn : fits text n = true)
    (hm : fits text m = true) : n = m := by
  obtain ⟨f, hparse, hrows⟩ := fits_eq_true_iff.mp hn
  obtain ⟨g, hparse', hrows'⟩ := fits_eq_true_iff.mp hm
  obtain rfl : f = g := by
    rw [hparse] at hparse'
    cases hparse'
    rfl
  -- the last row of either number is a row of the other
  have hsame : ∀ k, 1 ≤ k ∧ k ≤ n ↔ 1 ≤ k ∧ k ≤ m := fun k => (hrows k).symm.trans (hrows' k)
  have hlast := hsame n
  have hlast' := hsame m
  omega

/-- A text is accepted exactly when it is a formula about the rows, the earlier
checks are then passed, and otherwise the first reason that applies is given. -/
theorem check_characterization (text : String) :
    (∀ rowCount f, check text rowCount = .ok f ↔
      parse text = .ok f ∧ ∀ n, n ∈ f.numbers ↔ 1 ≤ n ∧ n ≤ rowCount) ∧
    ((∃ f, parse text = .ok f) ∨ (∃ digits, parse text = .error (.oversized digits)) →
      Text.isAllBlank text = false ∧ isBalanced text = true) ∧
    (∀ rowCount error, check text rowCount = .error error ↔ Refusal text rowCount error) ∧
    (∀ error : ParseError, (Flaw.ungrammatical error).message = error.message) ∧
    (∀ n m, fits text n = true → fits text m = true → n = m) := by
  refine ⟨fun _ _ => check_eq_ok_iff, ?_, fun _ _ => check_eq_error_iff, fun _ => rfl,
    fun _ _ => eq_of_fits⟩
  rintro (⟨f, hparse⟩ | ⟨digits, hparse⟩)
  · exact passes_of_parse (by simp [hparse])
  · exact passes_of_parse (by simp [hparse])

theorem check_characterization_three_rows :
    (Text.isAllBlank "(1 OR 2) AND 3" = false ∧ isBalanced "(1 OR 2) AND 3" = true) ∧
      fits "(1 OR 2) AND 3" 3 = true ∧ ∀ n, fits "(1 OR 2) AND 3" n = true → n = 3 := by
  have hfits : fits "(1 OR 2) AND 3" 3 = true := by decide +kernel
  obtain ⟨f, hparse, -⟩ := fits_eq_true_iff.mp hfits
  obtain ⟨-, hpasses, -, -, hunique⟩ := check_characterization "(1 OR 2) AND 3"
  exact ⟨hpasses (.inl ⟨_, hparse⟩), hfits, fun n hn => hunique n 3 hn hfits⟩

end Formula
end QueryFilter
