import QueryFilter.Connective
import QueryFilter.Proofs.Formula.Check
import QueryFilter.Proofs.Formula.Filling
import QueryFilter.Proofs.Formula.RoundTrip

/-!
# Formulas that list the rows

The formula that joins the rows from 1 on by one connective is read from the text that
writes their numbers with the connective between them. Filled in, it has the
fragments of the rows in the places of the numbers.
-/

namespace QueryFilter
namespace Formula

/-- Formulas joined by a connective; a single one stands for itself. -/
def joined : Connective → List Formula → Formula
  | .and => conjunction
  | .or => disjunction

/-- The formula that joins the rows from 1 to a number. -/
def listing (connective : Connective) (rowCount : Nat) : Formula :=
  joined connective ((List.range' 1 rowCount).map row)

/-- The row numbers from 1 to a number with a connective between them. -/
def listingText (connective : Connective) (rowCount : Nat) : String :=
  (" " ++ connective.keyword ++ " ").intercalate ((List.range' 1 rowCount).map toString)

section Joined

variable (connective : Connective) (parts : List Formula)

theorem text_joined :
    (joined connective parts).text =
      (" " ++ connective.keyword ++ " ").intercalate (parts.map text) := by
  match connective, parts with
  | .and, [part] | .or, [part] => simp [joined, conjunction, disjunction]
  | .and, [] | .and, _ :: _ :: _ =>
    simp only [joined, conjunction, text, texts_eq_map]
    rfl
  | .or, [] | .or, _ :: _ :: _ =>
    simp only [joined, disjunction, text, texts_eq_map]
    rfl

theorem textOf_joined (fragment : Nat → Option String) :
    textOf fragment (joined connective parts).segments =
      (" " ++ connective.keyword ++ " ").intercalate
        (parts.map fun part => textOf fragment part.segments) := by
  match connective, parts with
  | .and, [part] | .or, [part] => simp [joined, conjunction, disjunction]
  | .and, [] | .and, _ :: _ :: _ =>
    simp only [joined, conjunction, segments, textOf_intercalate, segmentsOf_eq_map, List.map_map]
    rfl
  | .or, [] | .or, _ :: _ :: _ =>
    simp only [joined, disjunction, segments, textOf_intercalate, segmentsOf_eq_map, List.map_map]
    rfl

theorem leaves_joined : (joined connective parts).leaves = parts.flatMap leaves := by
  cases connective with
  | and => exact leaves_conjunction parts
  | or => exact leaves_disjunction parts

end Joined

section Listing

variable (connective : Connective) (rowCount : Nat)

theorem text_listing : (listing connective rowCount).text = listingText connective rowCount := by
  rw [listing, text_joined, listingText, List.map_map]
  rfl

theorem leaves_listing : (listing connective rowCount).leaves = List.range' 1 rowCount := by
  rw [listing, leaves_joined, List.flatMap_map]
  exact List.flatMap_singleton' _

theorem mem_numbers_listing (number : Nat) :
    number ∈ (listing connective rowCount).numbers ↔ 1 ≤ number ∧ number ≤ rowCount := by
  rw [mem_numbers, leaves_listing, List.mem_range'_1]
  omega

variable {rowCount}

theorem canonical_listing (h : 0 < rowCount) : (listing connective rowCount).Canonical := by
  have hne : (List.range' 1 rowCount).map row ≠ [] := by
    simpa using Nat.ne_of_gt h
  have hrow : ∀ part ∈ (List.range' 1 rowCount).map row, part.Canonical ∧ part.IsOperand := by
    intro part hpart
    obtain ⟨number, -, rfl⟩ := List.mem_map.mp hpart
    exact ⟨.row number, trivial⟩
  cases connective with
  | and => exact (canonical_conjunction hne hrow).1
  | or =>
    refine canonical_disjunction hne fun part hpart => ?_
    exact ⟨(hrow part hpart).1, (hrow part hpart).2.not_isAny⟩

/-- The listing of as many rows as can be numbered is a formula about these rows. -/
theorem check_listingText (h : 0 < rowCount) (hsmall : rowCount ≤ maxRow) :
    check (listingText connective rowCount) rowCount = .ok (listing connective rowCount) := by
  have hparse : parse (listingText connective rowCount) = .ok (listing connective rowCount) := by
    rw [← text_listing]
    refine (canonical_listing connective h).parse_text fun number hnumber => ?_
    rw [leaves_listing, List.mem_range'_1] at hnumber
    omega
  exact check_eq_ok_iff.mpr ⟨hparse, mem_numbers_listing connective rowCount⟩

end Listing

end Formula
end QueryFilter
