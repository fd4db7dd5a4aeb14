import QueryFilter.Proofs.Editor.Run
import QueryFilter.Proofs.Sheet.Delivery
import QueryFilter.Session.Compile

/-!
# Restored rows

Restoring a session puts one row after another at the end of the sheet. Each row is
a function of the saved row and its index, and restoring fails only if some saved
row does not fit the schema. The requests are those of the rows, and no two rows
have the same stamp.
-/

namespace QueryFilter

namespace Content

/-- What a row holds after values are selected. Nothing is selected of no values. -/
def choose (selected : List String) : Content → Content
  | picklist list =>
    picklist { list with selected := if selected.isEmpty then list.selected else selected }
  | content => content

theorem choose_nil (content : Content) : content.choose [] = content := by
  cases content <;> rfl

theorem isPicklist_choose (selected : List String) (content : Content) :
    (content.choose selected).isPicklist = content.isPicklist := by
  cases content <;> rfl

theorem type?_choose (selected : List String) (content : Content) :
    (content.choose selected).type? = content.type? := by
  cases content <;> rfl

end Content

/-- What a row holds that points at the field with a name. -/
def Schema.content (schema : Schema) (name : String) : Content :=
  (schema.find? name).elim .unresolved Content.ofField

namespace SavedRow

/-- Whether the comparison and the selection of a saved row are ones for its field. -/
def fits (schema : Schema) (saved : SavedRow) : Bool :=
  match (schema.content saved.field).type? with
  | none => true
  | some type => saved.comparison.all (·.admits type) &&
      (saved.selected.isEmpty || (schema.content saved.field).isPicklist)

/-- The row that a saved row at an index is restored as. One whose field is not known
keeps only its name and its joiner. -/
def restored (schema : Schema) (address : UserAddress) (index : Nat) (saved : SavedRow) : Row :=
  let content := schema.content saved.field
  { id := index
    generation := 1
    number := index + 1
    field := saved.field
    comparison := if content.type?.isSome then saved.comparison else none
    value := if content.type?.isSome then saved.valueFor address else ""
    joiner := saved.joiner
    content := content.choose saved.selected }

end SavedRow

/-- The sheet that holds restored rows. -/
def Sheet.holding (rows : List Row) : Sheet :=
  if rows.isEmpty then .new else ⟨rows, rows.length⟩

namespace Session

/-! ### Edits of the last row -/

section LastRow

variable {schema : Schema} {done : List Row} {row : Row} {nextId : Nat}

/-- The editor whose last row is being restored. -/
def editorAt (schema : Schema) (done : List Row) (nextId : Nat) (row : Row) : Editor :=
  { Editor.new schema with sheet := ⟨done ++ [row], nextId⟩ }

theorem update_last (change : Row → Row × EditResult) :
    (Sheet.mk (done ++ [row]) nextId).update done.length change =
      (⟨done ++ [(change row).1], nextId⟩, (change row).2) := by
  have hlast : (done ++ [row])[done.length]? = some row := List.getElem?_concat_length
  rw [Sheet.update_of_some hlast]
  simp

theorem verdictAfter_unchecked (change : Edit) :
    Editor.verdictAfter .unchecked change = .unchecked := by
  cases change <;> rfl

/-- An edit that changes the last row leaves the editor of the row that comes of it. -/
theorem edit_editorAt {edit : Edit} (hreset : edit ≠ .reset) {change : Row → Row × EditResult}
    (h : ∀ s : Sheet, s.edit schema edit = s.update done.length change) :
    (editorAt schema done nextId row).edit edit =
      (editorAt schema done nextId (change row).1, (change row).2) := by
  have hsheet : (Sheet.mk (done ++ [row]) nextId).edit schema edit =
      (⟨done ++ [(change row).1], nextId⟩, (change row).2) := (h _).trans (update_last change)
  cases edit with
  | reset => exact absurd rfl hreset
  | _ =>
    simp only [Editor.edit, editorAt, Editor.new, hsheet, verdictAfter_unchecked]
    cases (change row).2 <;> rfl

theorem result_restoreBy (index : Nat) (e : Editor) (change : Edit) :
    (restoreBy index e change).result =
      ((e.edit change).2.mapError fun _ => .input).map ((e.edit change).1, ·) := by
  simp only [restoreBy, Report.result_bind, Report.result_ofExcept, Report.result_pure]
  cases (e.edit change).2 <;> rfl

@[simp] theorem result_restoreBy_pointAt (field : String) :
    (restoreBy done.length (editorAt schema done nextId row)
        (.pointAt done.length field)).result =
      .ok (editorAt schema done nextId (row.pointAt schema field),
        (row.pointAt schema field).request? schema) := by
  rw [result_restoreBy, edit_editorAt (by simp) fun _ => rfl]
  rfl

@[simp] theorem result_restoreBy_joinBy (joiner : Connective) :
    (restoreBy done.length (editorAt schema done nextId row)
        (.joinBy done.length joiner)).result =
      .ok (editorAt schema done nextId { row with joiner := joiner }, none) := by
  rw [result_restoreBy, edit_editorAt (by simp) fun _ => rfl]
  rfl

@[simp] theorem result_restoreBy_enter (value : String) :
    (restoreBy done.length (editorAt schema done nextId row)
        (.enter done.length value)).result =
      .ok (editorAt schema done nextId { row with value := value }, none) := by
  rw [result_restoreBy, edit_editorAt (by simp) fun _ => rfl]
  rfl

theorem edit_editorAt_compareBy (comparison : Comparison) {type : FieldType}
    (htype : row.type? = some type) :
    (editorAt schema done nextId row).edit (.compareBy done.length comparison) =
      if comparison.admits type then
        (editorAt schema done nextId { row with comparison := some comparison }, .ok none)
      else (editorAt schema done nextId row, .error (.inapplicable comparison type)) := by
  rw [edit_editorAt (by simp) fun _ => rfl]
  simp only [htype]
  split_ifs <;> rfl

theorem edit_editorAt_select {selected : List String} (hsome : selected ≠ []) :
    (editorAt schema done nextId row).edit (.select done.length selected) =
      (editorAt schema done nextId { row with content := row.content.choose selected },
        if row.content.isPicklist then .ok none else .error (.notSelectable done.length)) := by
  rw [edit_editorAt (by simp) fun _ => rfl]
  cases row with
  | mk _ _ _ _ _ _ _ content => cases content <;> simp [Content.choose, Content.isPicklist, hsome]

theorem result_restoreComparison (saved : SavedRow) {type : FieldType}
    (htype : row.type? = some type) (hnone : row.comparison = none) :
    (restoreComparison done.length saved (editorAt schema done nextId row)).result =
      if saved.comparison.all (·.admits type) then
        .ok (editorAt schema done nextId { row with comparison := saved.comparison })
      else .error .input := by
  cases hcomparison : saved.comparison with
  | none =>
    have hsame : { row with comparison := none } = row := by rw [← hnone]
    simp [restoreComparison, hcomparison, hsame]
  | some comparison =>
    simp only [restoreComparison, hcomparison, Report.result_bind, Option.all_some]
    rw [result_restoreBy, edit_editorAt_compareBy comparison htype]
    split_ifs <;> rfl

theorem result_restoreSelection (saved : SavedRow) :
    (restoreSelection done.length saved (editorAt schema done nextId row)).result =
      if saved.selected.isEmpty || row.content.isPicklist then
        .ok (editorAt schema done nextId { row with content := row.content.choose saved.selected })
      else .error .input := by
  by_cases hempty : saved.selected = []
  · simp [restoreSelection, hempty, Content.choose_nil]
  · simp only [restoreSelection, hempty, List.isEmpty_iff, if_false, Report.result_bind]
    rw [result_restoreBy, edit_editorAt_select hempty]
    cases row.content.isPicklist <;> simp [hempty, Except.bind, Except.map, Except.mapError]

theorem result_restoreContent (address : UserAddress) (saved : SavedRow) {type : FieldType}
    (htype : row.type? = some type) (hnone : row.comparison = none) :
    (restoreContent address done.length saved (editorAt schema done nextId row)).result =
      if saved.comparison.all (·.admits type) &&
          (saved.selected.isEmpty || row.content.isPicklist) then
        .ok (editorAt schema done nextId
          { row with
            comparison := saved.comparison, value := saved.valueFor address
            content := row.content.choose saved.selected })
      else .error .input := by
  simp only [restoreContent, Report.result_bind, result_restoreComparison saved htype hnone]
  by_cases hadmits : saved.comparison.all (·.admits type) = true
  · simp [hadmits, Except.bind, result_restoreSelection]
  · simp [hadmits, Except.bind]

end LastRow

/-! ### Rows one after another -/

section Rows

variable (schema : Schema) (address : UserAddress)

/-- The editor that holds restored rows. -/
def editorOf (schema : Schema) (rows : List Row) : Editor :=
  { Editor.new schema with sheet := .holding rows }

/-- The next row is the blank row of a new sheet at first, and then one added at the end. -/
theorem editorAt_blank (done : List Row) :
    (if done.length = 0 then editorOf schema done else (editorOf schema done).add) =
      editorAt schema done (done.length + 1) (.blank done.length (done.length + 1)) := by
  cases done with
  | nil => rfl
  | cons first rest => rfl

theorem editorAt_eq_editorOf (done : List Row) (row : Row) :
    editorAt schema done (done.length + 1) row = editorOf schema (done ++ [row]) := by
  simp [editorAt, editorOf, Sheet.holding]

theorem request?_restored (index : Nat) (saved : SavedRow) :
    (saved.restored schema address index).request? schema =
      ((Row.blank index (index + 1)).pointAt schema saved.field).request? schema := by
  unfold Row.request?
  have hcontent : ((Row.blank index (index + 1)).pointAt schema saved.field).content =
    schema.content saved.field := rfl
  simp only [SavedRow.restored, hcontent]
  cases schema.content saved.field <;> rfl

/-- The row at an index once it points at the field of a saved row. -/
def pointedRow (schema : Schema) (index : Nat) (saved : SavedRow) : Row :=
  { (Row.blank index (index + 1)).pointAt schema saved.field with joiner := saved.joiner }

theorem type?_pointedRow (index : Nat) (saved : SavedRow) :
    (pointedRow schema index saved).type? = (schema.content saved.field).type? := rfl

theorem restored_of_unknown (index : Nat) {saved : SavedRow}
    (h : (schema.content saved.field).type? = none) :
    saved.restored schema address index = pointedRow schema index saved := by
  have hcontent : (schema.content saved.field).choose saved.selected =
      schema.content saved.field := by
    cases hcontent : schema.content saved.field <;> simp_all [Content.type?, Content.choose]
  simp only [SavedRow.restored, h, hcontent]
  rfl

theorem restored_of_known (index : Nat) {saved : SavedRow} {type : FieldType}
    (h : (schema.content saved.field).type? = some type) :
    saved.restored schema address index =
      { pointedRow schema index saved with
        comparison := saved.comparison, value := saved.valueFor address
        content := (pointedRow schema index saved).content.choose saved.selected } := by
  simp only [SavedRow.restored, h]
  rfl

theorem result_restoreBy_joiner (done : List Row) (nextId : Nat) (saved : SavedRow) :
    (restoreBy done.length (editorAt schema done nextId
        ((Row.blank done.length (done.length + 1)).pointAt schema saved.field))
        (.joinBy done.length saved.joiner)).result =
      .ok (editorAt schema done nextId (pointedRow schema done.length saved), none) :=
  result_restoreBy_joinBy saved.joiner

/-- A saved row is restored if it fits, and nothing else keeps it from being restored. -/
theorem result_restoreRow (done : List Row) (saved : SavedRow) :
    (restoreRow address done.length saved (editorOf schema done)).result =
      if saved.fits schema then
        .ok (editorOf schema (done ++ [saved.restored schema address done.length]),
          (saved.restored schema address done.length).request? schema)
      else .error .input := by
  have hlast (row : Row) :
      (editorAt schema done (done.length + 1) row).sheet.rows[done.length]?.bind Row.type? =
        row.type? := by simp [editorAt]
  simp only [restoreRow, editorAt_blank, Report.result_bind, result_restoreBy_pointAt,
    result_restoreBy_joiner, Except.bind, ← editorAt_eq_editorOf, request?_restored, hlast,
    type?_pointedRow]
  cases htype : (schema.content saved.field).type? with
  | none => simp [htype, SavedRow.fits, restored_of_unknown, Except.bind]
  | some type =>
    have htype' : (pointedRow schema done.length saved).type? = some type := htype
    have hfits : saved.fits schema = (saved.comparison.all (·.admits type) &&
        (saved.selected.isEmpty || (pointedRow schema done.length saved).content.isPicklist)) := by
      simp only [SavedRow.fits, htype]
      rfl
    simp only [Option.isSome_some, if_true, Report.result_bind,
      result_restoreContent address saved htype' rfl, ← hfits, restored_of_known schema _ _ htype]
    by_cases h : saved.fits schema = true
    · simp [h, Except.bind]
    · simp [h, Except.bind]

/-- The rows that saved rows from an index on are restored as. -/
def restoredFrom (index : Nat) (saved : List SavedRow) : List Row :=
  saved.mapIdx fun offset row => row.restored schema address (index + offset)

theorem restoredFrom_cons (index : Nat) (first : SavedRow) (rest : List SavedRow) :
    restoredFrom schema address index (first :: rest) =
      first.restored schema address index :: restoredFrom schema address (index + 1) rest := by
  simp only [restoredFrom, List.mapIdx_cons, Nat.add_zero, Nat.add_assoc, Nat.add_comm 1]

theorem result_restoreFrom (done : List Row) (rest : List SavedRow) :
    (restoreFrom address done.length (editorOf schema done) rest).result =
      if rest.all (SavedRow.fits schema) then
        let rows := restoredFrom schema address done.length rest
        .ok (editorOf schema (done ++ rows), rows.filterMap (Row.request? schema))
      else .error .input := by
  induction rest generalizing done with
  | nil => simp [restoreFrom, restoredFrom]
  | cons first rest ih =>
    simp only [restoreFrom, Report.result_bind, result_restoreRow]
    by_cases hfirst : first.fits schema = true
    · have hnext := ih (done ++ [first.restored schema address done.length])
      rw [List.length_append, List.length_singleton] at hnext
      simp only [hfirst, if_true, Except.bind, hnext, List.all_cons, Bool.true_and,
        restoredFrom_cons]
      by_cases hrest : rest.all (SavedRow.fits schema) = true
      · cases hrequest : (first.restored schema address done.length).request? schema <;>
          simp [hrest, hrequest]
      · simp [hrest]
    · simp [hfirst, Except.bind]

end Rows

/-! ### Sessions -/

variable (s : Session)

/-- The rows of a session as they are restored. -/
def restoredRows : List Row :=
  s.rows.mapIdx fun index row => row.restored s.schema s.address index

/-- The requests that restoring the rows of a session gives rise to. -/
def requests : List Request :=
  s.restoredRows.filterMap (Row.request? s.schema)

theorem result_restore :
    s.restore.result =
      if s.rows.all (SavedRow.fits s.schema) then
        .ok (editorOf s.schema s.restoredRows, s.requests)
      else .error .input := by
  have h := result_restoreFrom s.schema s.address [] s.rows
  simpa [restoredFrom, restore, restoredRows, requests, editorOf, Sheet.holding, Editor.new] using h

/-! ### The restored sheet -/

theorem getElem?_restoredRows (index : Nat) :
    s.restoredRows[index]? =
      s.rows[index]?.map fun row => row.restored s.schema s.address index :=
  List.getElem?_mapIdx

theorem map_id_restoredRows : s.restoredRows.map Row.id = List.range s.restoredRows.length := by
  apply List.ext_getElem
  · simp
  · intro index hindex hrange
    simp [restoredRows, SavedRow.restored]

theorem nodup_id_restoredRows : (s.restoredRows.map Row.id).Nodup := by
  rw [map_id_restoredRows]
  exact List.nodup_range

theorem distinct_restored : (Sheet.holding s.restoredRows).Distinct := by
  unfold Sheet.holding
  split_ifs with hempty
  · exact Sheet.distinct_new
  · refine ⟨s.nodup_id_restoredRows, fun row hrow => ?_⟩
    have hid : row.id ∈ List.range s.restoredRows.length := by
      rw [← map_id_restoredRows]
      exact List.mem_map_of_mem hrow
    exact List.mem_range.mp hid

theorem consistent_restored {schema : Schema} {saved : SavedRow} (hfits : saved.fits schema = true)
    (address : UserAddress) (index : Nat) : (saved.restored schema address index).Consistent := by
  constructor
  · intro comparison hcomparison
    cases htype : (schema.content saved.field).type? with
    | none => simp [SavedRow.restored, htype] at hcomparison
    | some type =>
      refine ⟨type, ?_, ?_⟩
      · simp only [Row.type?, SavedRow.restored, Content.type?_choose, htype]
      · have hsaved : saved.comparison = some comparison := by
          simpa [SavedRow.restored, htype] using hcomparison
        simp only [SavedRow.fits, htype, hsaved, Option.all_some, Bool.and_eq_true] at hfits
        exact hfits.1
  · intro type hsingle
    have hcontent : schema.content saved.field = .single type := by
      cases hcontent : schema.content saved.field <;>
        simp_all [SavedRow.restored, Content.choose]
    have hpointed : ((Row.blank 0 1).pointAt schema saved.field).content = .single type := hcontent
    exact Row.shape_of_pointAt hpointed

/-- The restored sheet is in order, as it would be after any edits. -/
theorem inOrder_restored (hfits : s.rows.all (SavedRow.fits s.schema) = true) :
    (Sheet.holding s.restoredRows).InOrder := by
  unfold Sheet.holding
  split_ifs with hempty
  · exact Sheet.inOrder_new
  · constructor
    · intro index row hrow
      rw [getElem?_restoredRows] at hrow
      obtain ⟨saved, -, rfl⟩ := Option.map_eq_some_iff.mp hrow
      rfl
    · intro row hrow
      obtain ⟨index, hlt, rfl⟩ := List.mem_mapIdx.mp hrow
      exact consistent_restored (List.all_eq_true.mp hfits _ (List.getElem_mem hlt)) _ _

/-- Each request bears the stamp of a row, and no two rows have the same. -/
theorem nodup_stamp_requests : (s.requests.map Request.stamp).Nodup := by
  have hrows : s.restoredRows.Pairwise fun a b => a.id ≠ b.id :=
    List.pairwise_map.mp s.nodup_id_restoredRows
  apply List.pairwise_map.mpr
  refine hrows.filterMap _ fun a b hne first hfirst second hsecond hstamp => hne ?_
  rw [(Row.request?_eq_some hfirst).1, (Row.request?_eq_some hsecond).1] at hstamp
  exact congrArg Stamp.id hstamp

end Session
end QueryFilter
