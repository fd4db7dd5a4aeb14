import QueryFilter.Proofs.Sheet.Exchange
import QueryFilter.Proofs.Text.CommaForm

/-!
# What values that arrive make of a selection

A picklist row whose values have not arrived can have its selection written out in its
value, with commas. When the values arrive and nothing is selected yet, the selection is
read back from there. A selection that there is already stays, and so does the value.
-/

namespace QueryFilter

theorem Content.selected_fill (choices : List Choice) (value : String) {content : Content}
    (h : content.selected ≠ []) : (content.fill choices value).selected = content.selected := by
  cases content with
  | picklist list =>
    have hselected : list.selected.isEmpty = false := by simpa [selected] using h
    simp [fill, selected, hselected]
  | _ => rfl

/-- No answer changes what is selected. -/
theorem Row.selected_contentAfter (answer : Delivery) {row : Row}
    (h : row.content.selected ≠ []) :
    (row.contentAfter answer).selected = row.content.selected := by
  unfold contentAfter
  split_ifs
  · cases answer.result with
    | ok choices => exact Content.selected_fill choices row.value h
    | error _ => rfl
  · rfl

namespace Sheet

/-- Values that arrive for a picklist fill it, and no other row changes. -/
theorem deliver_picklist {s : Sheet} (hs : s.Distinct) {index : Nat} {row : Row}
    {list : Picklist} (hrow : s.rows[index]? = some row) (hlist : row.content = .picklist list)
    (choices : List Choice) :
    s.deliver ⟨row.stamp, .ok choices⟩ =
      ({ s with
        rows := s.rows.set index { row with
          content := .picklist ⟨choices,
            if list.selected.isEmpty then Text.entries row.value else list.selected, true⟩ } },
        .applied) := by
  have hcontent : row.contentAfter ⟨row.stamp, .ok choices⟩ =
      (Content.picklist list).fill choices row.value := by
    rw [Row.contentAfter, if_pos rfl, hlist]
  have houtcome : row.outcome ⟨row.stamp, .ok choices⟩ = .applied := by
    rw [Row.outcome, hlist]
    rfl
  rw [deliver_of_mem hs (List.mem_of_getElem? hrow) rfl, ← set_take hs hrow rfl, Row.take_eq,
    hcontent, houtcome]
  rfl

/-- Where nothing is selected yet, the values that arrive make a selection of the row's
value: a list of entries that the value is a comma form of, and the only such list. A
selection that there is already stays, and no delivery changes a value. -/
theorem selection_of_arrival (events : List Event) :
    let s := new.after events
    ∀ (index : Nat) (row : Row), s.rows[index]? = some row →
      (∀ list choices, row.content = .picklist list →
        ∃ selected,
          s.deliver ⟨row.stamp, .ok choices⟩ =
            ({ s with
              rows := s.rows.set index
                { row with content := .picklist ⟨choices, selected, true⟩ } }, .applied) ∧
          (list.selected ≠ [] → selected = list.selected) ∧
          (list.selected = [] →
            (∀ entry ∈ selected, Text.IsEntry entry) ∧ Text.IsCommaForm row.value selected ∧
            ∀ values, Text.IsCommaForm row.value values →
              (∀ value ∈ values, Text.IsEntry value) → selected = values)) ∧
      ∀ delivery, ∃ later, (s.deliver delivery).1.rows[index]? = some later ∧
        later.value = row.value ∧
        (row.content.selected ≠ [] → later.content.selected = row.content.selected) := by
  intro s index row hrow
  have hs : s.Distinct := distinct_new.after events
  refine ⟨fun list choices hlist => ?_, fun delivery => ?_⟩
  · refine ⟨_, deliver_picklist hs hrow hlist choices, fun hselected => ?_, fun hselected => ?_⟩
    · simp [hselected]
    · simp only [hselected, List.isEmpty_nil, if_true]
      exact ⟨fun _ => Text.isEntry_of_mem_entries, Text.isCommaForm_entries row.value,
        fun _ => Text.entries_of_isCommaForm⟩
  · have hlater : (s.deliver delivery).1.rows[index]? = some (row.take delivery) := by
      rw [deliver_fst hs]
      simp [hrow]
    rw [Row.take_eq] at hlater
    exact ⟨_, hlater, rfl, Row.selected_contentAfter delivery⟩

/-- Two values with an ideographic space and an empty part between them. -/
theorem selection_of_arrival_two_values :
    let schema : Schema := ⟨"Account", [⟨"Rating", "Rating", "Picklist", []⟩]⟩
    let events : List Event :=
      [.edit schema (.pointAt 0 "Rating"), .edit schema (.enter 0 " Hot ,,\u3000Warm")]
    let s := new.after events
    ∀ choices, (s.deliver ⟨⟨0, 1⟩, .ok choices⟩).2 = .applied ∧
      (s.deliver ⟨⟨0, 1⟩, .ok choices⟩).1.rows.map Row.content =
        [.picklist ⟨choices, ["Hot", "Warm"], true⟩] := by
  intro schema events s choices
  let row : Row := { Row.blank 0 1 with
    generation := 1, field := "Rating", value := " Hot ,,\u3000Warm"
    content := .picklist ⟨[], [], false⟩ }
  have hrow : s.rows[0]? = some row := by decide +kernel
  obtain ⟨selected, hdeliver, -, hselected⟩ :=
    (selection_of_arrival events 0 row hrow).1 ⟨[], [], false⟩ choices rfl
  have hform : Text.IsCommaForm " Hot ,,\u3000Warm" ["Hot", "Warm"] :=
    ⟨[⟨[' '], "Hot", [' '], by simp [Text.isBlank, Text.blankRanges],
          by simp [Text.isBlank, Text.blankRanges]⟩,
        ⟨[], "", [], by simp, by simp⟩,
        ⟨['\u3000'], "Warm", [], by simp [Text.isBlank, Text.blankRanges], by simp⟩],
      by decide +kernel, by decide +kernel⟩
  have hentries : ∀ value ∈ ["Hot", "Warm"], Text.IsEntry value := by
    intro value hvalue
    rcases List.mem_pair.mp hvalue with rfl | rfl <;>
      constructor <;> simp [Text.isBlank, Text.blankRanges]
  obtain rfl := (hselected rfl).2.2 _ hform hentries
  have hall : s.rows = [row] := by decide +kernel
  have hgiven : s.deliver ⟨⟨0, 1⟩, .ok choices⟩ = _ := hdeliver
  rw [hgiven]
  refine ⟨rfl, ?_⟩
  show (s.rows.set 0 _).map Row.content = _
  rw [hall]
  rfl

end Sheet
end QueryFilter
