import QueryFilter.Proofs.Sheet.Body
import QueryFilter.Proofs.Sheet.Lineage

/-!
# Well-formed sheets

What holds of a sheet whatever has been done to it: it has a row, its rows are
numbered from 1 on and told apart by ids, a comparison is one that its row's type
admits, an unresolved row holds nothing, and a picklist that offers values knows
them. So a complete row has a type and a comparison offered for it, and how a row
without them would be written makes no difference to any condition.
-/

namespace QueryFilter

/-! ### Rows -/

namespace Content

/-- The values of a picklist are known as soon as there are any. -/
def Stocked : Content → Prop
  | picklist list => list.choices ≠ [] → list.loaded = true
  | _ => True

theorem stocked_ofField (field : Field) : (ofField field).Stocked := by
  unfold ofField
  split
  · trivial
  · split
    · trivial
    · trivial
    · intro h
      simpa using h

end Content

namespace Row

theorem stocked_pointAt (schema : Schema) (field : String) (row : Row) :
    (row.pointAt schema field).content.Stocked := by
  unfold pointAt
  cases schema.find? field with
  | none => trivial
  | some found => exact Content.stocked_ofField found

theorem stocked_receive (choices : List Choice) {row : Row} (h : row.content.Stocked) :
    (row.receive choices).content.Stocked := by
  unfold receive
  split
  · intro _
    rfl
  · exact h

theorem Change.stocked {row later : Row} (h : row.Change later) (hrow : row.content.Stocked) :
    later.content.Stocked := by
  cases h with
  | cleared => trivial
  | pointed schema field => exact row.stocked_pointAt schema field
  | selected values held =>
    rw [held] at hrow
    exact hrow
  | received choices => exact stocked_receive choices hrow
  | compared | entered | joined => exact hrow

/-- An unresolved row has no comparison, for a comparison needs a type. -/
theorem Consistent.comparison_eq_none {row : Row} (h : row.Consistent)
    (hcontent : row.content = .unresolved) : row.comparison = none := by
  cases hcomparison : row.comparison with
  | none => rfl
  | some comparison =>
    obtain ⟨type, htype, -⟩ := h.admitted comparison hcomparison
    rw [type?, hcontent] at htype
    cases htype

theorem Consistent.mem_comparisons {row : Row} (h : row.Consistent) {comparison : Comparison}
    (hcomparison : row.comparison = some comparison) : comparison ∈ row.comparisons := by
  obtain ⟨type, htype, hadmits⟩ := h.admitted comparison hcomparison
  rw [comparisons_of_type? htype]
  exact FieldType.mem_comparisons.mpr hadmits

end Row

/-! ### Sheets -/

namespace Sheet

theorem Step.rows_ne_nil {s later : Sheet} (h : s.Step later) (hs : s.rows ≠ []) :
    later.rows ≠ [] := by
  cases h with
  | unchanged => exact hs
  | added => simp [add]
  | restarted => simp [reset]
  | changed found change => simpa using hs
  | removed several inside =>
    unfold size at several inside
    apply List.ne_nil_of_length_pos
    rw [renumber, List.length_mapIdx, List.length_eraseIdx_of_lt inside]
    omega

theorem Step.stocked {s later : Sheet} (h : s.Step later)
    (hs : ∀ row ∈ s.rows, row.content.Stocked) : ∀ row ∈ later.rows, row.content.Stocked :=
  h.forall_rows (fun _ _ => trivial) (fun _ _ change => change.stocked) (fun _ _ hrow => hrow) hs

/-- What is true of the rows of every sheet that events lead to. -/
structure WellFormed (s : Sheet) : Prop where
  inhabited : 0 < s.size
  numbered : ∀ index row, s.rows[index]? = some row → row.number = index + 1
  distinct : (s.rows.map Row.id).Nodup
  below : ∀ row ∈ s.rows, row.id < s.nextId
  admitted : ∀ row ∈ s.rows, ∀ comparison, row.comparison = some comparison →
    ∃ type, row.type? = some type ∧ comparison.admits type = true
  vacant : ∀ row ∈ s.rows, row.type? = none →
    row.comparison = none ∧ row.content.choices = [] ∧ row.content.selected = []
  stocked : ∀ row ∈ s.rows, ∀ list, row.content = .picklist list → list.choices ≠ [] →
    list.loaded = true

theorem wellFormed_after (events : List Event) : (new.after events).WellFormed := by
  have hdistinct := distinct_new.after events
  have horder := inOrder_new.after events
  have hrows : (new.after events).rows ≠ [] :=
    after_induction (P := fun s => s.rows ≠ []) (fun _ _ h => h.rows_ne_nil) (by simp [new]) events
  have hstocked : ∀ row ∈ (new.after events).rows, row.content.Stocked :=
    after_induction (P := fun s => ∀ row ∈ s.rows, row.content.Stocked) (fun _ _ h => h.stocked)
      (by simp [new, Row.blank, Content.Stocked]) events
  constructor
  · exact List.length_pos_of_ne_nil hrows
  · exact horder.numbered
  · exact hdistinct.nodup
  · exact hdistinct.below
  · intro row hrow
    exact (horder.consistent row hrow).admitted
  · intro row hrow htype
    have hcontent : row.content = .unresolved := by
      cases hcontent : row.content <;> simp_all [Row.type?, Content.type?]
    have hcomparison := (horder.consistent row hrow).comparison_eq_none hcontent
    exact ⟨hcomparison, by rw [hcontent]; rfl, by rw [hcontent]; rfl⟩
  · intro row hrow list hlist
    have h := hstocked row hrow
    rw [hlist] at h
    exact h

/-! ### Conditions -/

/-- The text of the condition that the rows of a sheet would state together if `write`
gave the text of each row. -/
def bodyBy (write : Row → String) (s : Sheet) : Arrangement → Except Formula.Flaw String
  | .throughout connective =>
    .ok ((" " ++ connective.keyword).intercalate (s.complete.map write))
  | .byRow =>
    match s.complete with
    | [] => .ok ""
    | first :: rest =>
      .ok (write first ++ String.join (rest.map fun row => " " ++ row.joiner.keyword ++ write row))
  | .byFormula f =>
    match f.numbersFlaw? s.size with
    | some flaw => .error flaw
    | none =>
      (f.fill fun number => (s.complete.find? (·.number == number)).map write).map (" " ++ ·)

theorem bodyBy_fragment (s : Sheet) (arrangement : Arrangement) :
    s.bodyBy Row.fragment arrangement = s.body arrangement := by
  cases arrangement with
  | throughout connective => rfl
  | byRow =>
    unfold bodyBy body
    cases s.complete <;> rfl
  | byFormula f => rfl

/-- Only the texts of complete rows go into a condition. -/
theorem bodyBy_congr {s : Sheet} {write write' : Row → String}
    (h : ∀ row ∈ s.complete, write row = write' row) (arrangement : Arrangement) :
    s.bodyBy write arrangement = s.bodyBy write' arrangement := by
  cases arrangement with
  | throughout connective =>
    unfold bodyBy
    rw [List.map_congr_left h]
  | byRow =>
    unfold bodyBy
    cases hrows : s.complete with
    | nil => rfl
    | cons first rest =>
      rw [hrows, List.forall_mem_cons] at h
      dsimp only
      rw [h.1, List.map_congr_left fun row hrow => by rw [h.2 row hrow]]
  | byFormula f =>
    have hfind (number : Nat) : (s.complete.find? (·.number == number)).map write =
        (s.complete.find? (·.number == number)).map write' := by
      cases hfound : s.complete.find? (·.number == number) with
      | none => rfl
      | some row => exact congrArg some (h row (List.mem_of_find?_eq_some hfound))
    unfold bodyBy
    simp only [hfind]

/-- Every sheet that events lead to is well-formed. So each complete row has a type and
one of the comparisons offered for it, and no condition depends on how rows without a
type or without a comparison are written. -/
theorem wellFormed_of_run (events : List Event) :
    let s := new.after events
    s.WellFormed ∧
    (∀ row ∈ s.complete, row.type?.isSome = true ∧
      ∃ comparison ∈ row.comparisons, row.comparison = some comparison) ∧
    ∀ write : Row → String,
      (∀ row, row.type?.isSome = true → row.comparison.isSome = true →
        write row = row.fragment) →
      ∀ arrangement, s.bodyBy write arrangement = s.body arrangement := by
  intro s
  have horder : s.InOrder := inOrder_new.after events
  have htyped : ∀ row ∈ s.complete, row.type?.isSome = true := by
    intro row hrow
    obtain ⟨hmem, hcomplete⟩ := List.mem_filter.mp hrow
    exact (horder.consistent row hmem).type?_isSome hcomplete
  have hcompared : ∀ row ∈ s.complete, row.comparison.isSome = true := by
    intro row hrow
    exact (Row.isComplete_iff.mp (List.mem_filter.mp hrow).2).2.1
  refine ⟨wellFormed_after events, ?_, ?_⟩
  · intro row hrow
    obtain ⟨comparison, hcomparison⟩ := Option.isSome_iff_exists.mp (hcompared row hrow)
    have hmem := (List.mem_filter.mp hrow).1
    exact ⟨htyped row hrow, comparison, (horder.consistent row hmem).mem_comparisons hcomparison,
      hcomparison⟩
  · intro write hwrite arrangement
    rw [← bodyBy_fragment]
    apply bodyBy_congr
    intro row hrow
    exact hwrite row (htyped row hrow) (hcompared row hrow)

/-- The second row points at an unknown field: it takes no comparison, and the condition
stays the same if rows without a type or a comparison are written as nothing at all. -/
theorem wellFormed_of_run_unknown_field :
    let schema : Schema := ⟨"Account", [⟨"Name", "Name", "String", []⟩]⟩
    let events : List Event := [.edit schema (.pointAt 0 "Name"), .edit schema (.compareBy 0 .like),
      .edit schema (.enter 0 "Acme"), .edit schema .add, .edit schema (.pointAt 1 "Area"),
      .edit schema (.compareBy 1 .equal), .edit schema (.enter 1 "7")]
    let s := new.after events
    let write (row : Row) : String :=
      if row.type?.isSome && row.comparison.isSome then row.fragment else ""
    s.WellFormed ∧ s.rows.map Row.comparison = [some .like, none] ∧
      s.bodyBy write (.throughout .and) = .ok " Name LIKE '%Acme%'" := by
  intro schema events s write
  obtain ⟨hformed, -, hwritten⟩ := wellFormed_of_run events
  refine ⟨hformed, by decide +kernel, ?_⟩
  rw [hwritten write fun row htype hcomparison => by simp [write, htype, hcomparison]]
  decide +kernel

end Sheet
end QueryFilter
