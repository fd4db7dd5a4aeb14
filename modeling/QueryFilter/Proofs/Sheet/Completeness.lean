import QueryFilter.Proofs.Sheet.Arrival
import QueryFilter.Proofs.Sheet.Order

/-!
# What completes a row

A row that states nothing goes on stating nothing while it is emptied or joined
otherwise, while something is done to other rows, and whatever values are delivered:
the entries of a value become a selection only where there is a value. So only a
comparison, a value or a selection of its own completes a row.
-/

namespace QueryFilter
namespace Row

theorem isComplete_receive (choices : List Choice) (row : Row) :
    (row.receive choices).isComplete = row.isComplete := by
  cases hcontent : row.content with
  | picklist list =>
    by_cases hvalue : row.value = ""
    · have hnone : Text.entries row.value = [] := by rw [hvalue]; rfl
      cases hselected : list.selected <;>
        simp [receive, isComplete, hcontent, Content.selected, hnone, hselected]
    · simp [receive, isComplete, bne_iff_ne.mpr hvalue, hcontent]
  | _ => simp only [receive, hcontent]

@[simp] theorem isComplete_take (answer : Delivery) (row : Row) :
    (row.take answer).isComplete = row.isComplete := by
  unfold take
  split_ifs
  · split
    · exact row.isComplete_receive _
    · rfl
  · rfl

@[simp] theorem isComplete_takeEach (answers : List Delivery) (row : Row) :
    (row.takeEach answers).isComplete = row.isComplete := by
  induction answers generalizing row with
  | nil => rfl
  | cons first rest ih => exact (ih (row.take first)).trans (row.isComplete_take first)

end Row

/-- Whether an edit compares, enters or selects in the row with a number. -/
def Edit.Fills (number : Nat) : Edit → Prop
  | .compareBy index _ | .enter index _ | .select index _ => index + 1 = number
  | _ => False

namespace Sheet

/-- There is a row with a number, and it states nothing. -/
def Lacks (s : Sheet) (number : Nat) : Prop :=
  (s.row? number).map Row.isComplete = some false

instance (s : Sheet) (number : Nat) : Decidable (s.Lacks number) :=
  inferInstanceAs (Decidable ((s.row? number).map Row.isComplete = some false))

variable {s : Sheet} {number : Nat}

theorem lacks_deliver (hs : s.Distinct) (answer : Delivery) :
    (s.deliver answer).1.Lacks number ↔ s.Lacks number := by
  rw [deliver_fst hs]
  cases number with
  | zero => rfl
  | succ index => simp [Lacks, row?, Function.comp_def]

theorem lacks_add (h : s.Lacks number) : s.add.Lacks number := by
  cases number with
  | zero => exact h
  | succ index =>
    obtain ⟨row, hrow, hincomplete⟩ := Option.map_eq_some_iff.mp h
    have hlt : index < s.rows.length := (List.getElem?_eq_some_iff.mp hrow).1
    rw [Lacks, row?, add, List.getElem?_append_left hlt]
    exact h

theorem lacks_update {index : Nat} {change : Row → Row × EditResult} (h : s.Lacks number)
    (hchange : index + 1 = number →
      ∀ row, row.isComplete = false → (change row).1.isComplete = false) :
    (s.update index change).1.Lacks number := by
  cases hrow : s.rows[index]? with
  | none =>
    rw [update_of_none hrow]
    exact h
  | some row =>
    rw [update_of_some hrow]
    cases number with
    | zero => exact h
    | succ other =>
      by_cases heq : index = other
      · subst heq
        have hlt := (List.getElem?_eq_some_iff.mp hrow).1
        have hincomplete : row.isComplete = false := by simpa [Lacks, row?, hrow] using h
        simpa [Lacks, row?, hlt] using hchange rfl row hincomplete
      · simpa [Lacks, row?, List.getElem?_set_ne heq] using h

/-- An edit that leaves the rows in their places completes only the row that it fills. -/
theorem lacks_edit {schema : Schema} {change : Edit} (hreset : change ≠ .reset)
    (hremove : ∀ index, change ≠ .remove index) (hfills : ¬ change.Fills number)
    (h : s.Lacks number) : (s.edit schema change).1.Lacks number := by
  cases change with
  | add => exact lacks_add h
  | reset => exact absurd rfl hreset
  | remove index => exact absurd rfl (hremove index)
  | pointAt index field =>
    refine lacks_update h fun _ row _ => ?_
    simp [Row.isComplete, Row.pointAt, Row.clear]
  | clear index => exact lacks_update h fun _ row _ => rfl
  | joinBy index joiner => exact lacks_update h fun _ row hincomplete => hincomplete
  | compareBy | enter | select => exact lacks_update h fun heq => absurd heq hfills

end Sheet
end QueryFilter
