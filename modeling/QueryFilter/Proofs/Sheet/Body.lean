import QueryFilter.Proofs.Formula.Filling
import QueryFilter.Proofs.Sheet.Order
import QueryFilter.Sheet.Clause

/-!
# The body of a condition

What each arrangement of the rows of a sheet gives, as an equation. A sheet without
complete rows gives the empty condition. Otherwise joined rows give their fragments
with a word before each but the first, and a formula that mentions each row gives
its text filled in, if every row it mentions is complete.
-/

namespace QueryFilter

namespace Row

/-- A fragment is a space, and then the field or the parenthesis of a negated match. -/
theorem exists_fragment_eq (row : Row) :
    (∃ rest, row.fragment = " " ++ (row.field ++ rest)) ∨
      ∃ rest, row.fragment = " " ++ ("(" ++ rest) := by
  unfold fragment
  split
  · unfold Fragment.ofSelection
    split
    · exact .inl ⟨_, by simp only [String.append_assoc]; rfl⟩
    · exact .inl ⟨_, by simp only [String.append_assoc]; rfl⟩
  · exact .inl ⟨_, by simp only [Fragment.ofTruth, String.append_assoc]; rfl⟩
  · split_ifs
    · unfold Fragment.ofText
      split
      · exact .inl ⟨_, by simp only [String.append_assoc]; rfl⟩
      -- only a negated match has something before its field
      · have hstart : " (NOT " = " " ++ ("(" ++ "NOT ") := rfl
        exact .inr ⟨_, by rw [hstart]; simp only [String.append_assoc]; rfl⟩
      · exact .inl ⟨_, by simp only [String.append_assoc]; rfl⟩
    · exact .inl ⟨_, by simp only [Fragment.verbatim, String.append_assoc]; rfl⟩
  · exact .inl ⟨_, by simp only [Fragment.verbatim, String.append_assoc]; rfl⟩

theorem fragment_ne_empty (row : Row) : row.fragment ≠ "" := by
  rcases row.exists_fragment_eq with ⟨rest, hrest⟩ | ⟨rest, hrest⟩ <;> simp [hrest]

end Row

namespace Sheet

variable {s : Sheet}

/-- The complete row with a number. -/
def completeRow? (s : Sheet) (number : Nat) : Option Row :=
  (s.row? number).filter Row.isComplete

theorem completeRow?_eq_some_iff (hs : s.InOrder) {number : Nat} {row : Row} :
    s.completeRow? number = some row ↔ row ∈ s.complete ∧ row.number = number := by
  rw [completeRow?, Option.filter_eq_some_iff, hs.row?_eq_some_iff, complete, List.mem_filter]
  exact and_right_comm

theorem fragment?_eq (hs : s.InOrder) (number : Nat) :
    s.fragment? number = (s.completeRow? number).map Row.fragment := by
  rw [fragment?, hs.find?_complete, completeRow?]

theorem firstMissing?_fragment? (hs : s.InOrder) (numbers : List Nat) :
    Formula.firstMissing? s.fragment? numbers =
      numbers.find? fun number => (s.completeRow? number).isNone := by
  unfold Formula.firstMissing?
  congr 1
  funext number
  rw [fragment?_eq hs, Option.isNone_map]

theorem isSome_completeRow?_iff (hs : s.InOrder) {number : Nat} :
    (s.completeRow? number).isSome = true ↔
      ∃ row ∈ s.rows, row.number = number ∧ row.isComplete = true := by
  rw [Option.isSome_iff_exists]
  constructor
  · rintro ⟨row, hrow⟩
    obtain ⟨hmem, hnumber⟩ := (completeRow?_eq_some_iff hs).mp hrow
    exact ⟨row, (List.mem_filter.mp hmem).1, hnumber, (List.mem_filter.mp hmem).2⟩
  · rintro ⟨row, hmem, hnumber, hcomplete⟩
    exact ⟨row, (completeRow?_eq_some_iff hs).mpr
      ⟨List.mem_filter.mpr ⟨hmem, hcomplete⟩, hnumber⟩⟩

/-- A formula about the rows mentions each of them, so one incomplete row is enough
for it to mention a number without a complete row. -/
theorem firstMissing?_eq_none_iff (hs : s.InOrder) {f : Formula}
    (hnumbers : ∀ n, n ∈ f.numbers ↔ 1 ≤ n ∧ n ≤ s.size) :
    Formula.firstMissing? s.fragment? f.leaves = none ↔
      ∀ row ∈ s.rows, row.isComplete = true := by
  rw [firstMissing?_fragment? hs, List.find?_eq_none]
  simp only [Option.isNone_iff_eq_none, ← Option.not_isSome_iff_eq_none, not_not,
    ← Formula.mem_numbers, hnumbers]
  constructor
  · intro h row hrow
    obtain ⟨index, hindex⟩ := List.mem_iff_getElem?.mp hrow
    have hnumber := hs.numbered index row hindex
    have hlt : index < s.size := (List.getElem?_eq_some_iff.mp hindex).1
    obtain ⟨other, hother, hsame, hcomplete⟩ :=
      (isSome_completeRow?_iff hs).mp (h row.number (by omega))
    have heq := hs.row?_eq_some_iff.mpr ⟨hother, hsame⟩
    rw [hs.row?_eq_some_iff.mpr ⟨hrow, rfl⟩] at heq
    cases heq
    exact hcomplete
  · intro h number hnumber
    obtain ⟨index, rfl⟩ : ∃ index, number = index + 1 := ⟨number - 1, by omega⟩
    have hlt : index < s.rows.length := by
      have := hnumber.2
      unfold size at this
      omega
    have hrow : s.rows[index]? = some s.rows[index] := List.getElem?_eq_getElem hlt
    exact (isSome_completeRow?_iff hs).mpr ⟨_, List.getElem_mem hlt, hs.numbered index _ hrow,
      h _ (List.getElem_mem hlt)⟩

/-- Rows with one word between them have the same word before each but the first. -/
theorem intercalate_fragments (word : String) (rows : List Row) :
    word.intercalate (rows.map Row.fragment) = joinFragments (fun _ => word) rows := by
  cases rows with
  | nil => rfl
  | cons first rest =>
    induction rest generalizing first with
    | nil => simp [joinFragments]
    | cons second rest ih =>
      rw [List.map_cons, List.map_cons, String.intercalate_cons_cons, ← List.map_cons, ih,
        joinFragments, joinFragments]
      simp [String.append_assoc]

theorem joinFragments_ne_empty {rows : List Row} (h : rows ≠ []) (lead : Row → String) :
    joinFragments lead rows ≠ "" := by
  cases rows with
  | nil => exact absurd rfl h
  | cons first rest =>
    have hfirst := first.fragment_ne_empty
    simp [joinFragments, hfirst]

theorem complete_ne_nil_iff : s.complete ≠ [] ↔ ∃ row ∈ s.rows, row.isComplete = true := by
  simp [complete, List.filter_eq_nil_iff]

theorem clause_of_complete_eq_nil (h : s.complete = []) (arrangement : Arrangement) :
    s.clause arrangement = .ok .empty := by
  simp [clause, h]

section Complete

variable (h : s.complete ≠ [])
include h

theorem clause_throughout (connective : Connective) :
    s.clause (.throughout connective) =
      .ok ⟨joinFragments (fun _ => " " ++ connective.keyword) s.complete, true⟩ := by
  simp [clause, h, body, intercalate_fragments]

theorem clause_byRow :
    s.clause .byRow =
      .ok ⟨joinFragments (fun row => " " ++ row.joiner.keyword) s.complete, true⟩ := by
  simp [clause, h, body]

theorem clause_byFormula_of_flaw {f : Formula} {flaw : Formula.Flaw}
    (hflaw : f.numbersFlaw? s.size = some flaw) :
    s.clause (.byFormula f) = .error (.conditions flaw) := by
  simp [clause, h, body, hflaw]

theorem clause_byFormula_of_missing {f : Formula} (hflaw : f.numbersFlaw? s.size = none)
    {number : Nat} (hmissing : Formula.firstMissing? s.fragment? f.leaves = some number) :
    s.clause (.byFormula f) = .error (.conditions (.incomplete number)) := by
  simp [clause, h, body, hflaw, Formula.fill_eq, hmissing, Formula.filledUnless, Except.map]

theorem clause_byFormula {f : Formula} (hflaw : f.numbersFlaw? s.size = none)
    (hmissing : Formula.firstMissing? s.fragment? f.leaves = none) :
    s.clause (.byFormula f) = .ok ⟨" " ++ Formula.textOf s.fragment? f.segments, true⟩ := by
  simp [clause, h, body, hflaw, Formula.fill_eq, hmissing, Formula.filledUnless, Except.map]

end Complete

theorem clause_byFormula_eq_ok (h : s.complete ≠ []) {f : Formula} {clause : Clause}
    (hclause : s.clause (.byFormula f) = .ok clause) :
    clause = ⟨" " ++ Formula.textOf s.fragment? f.segments, true⟩ := by
  cases hflaw : f.numbersFlaw? s.size with
  | some flaw =>
    rw [clause_byFormula_of_flaw h hflaw] at hclause
    cases hclause
  | none =>
    cases hmissing : Formula.firstMissing? s.fragment? f.leaves with
    | some number =>
      rw [clause_byFormula_of_missing h hflaw hmissing] at hclause
      cases hclause
    | none =>
      rw [clause_byFormula h hflaw hmissing] at hclause
      cases hclause
      rfl

end Sheet
end QueryFilter
