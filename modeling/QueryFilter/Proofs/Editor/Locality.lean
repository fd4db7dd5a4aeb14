import QueryFilter.Proofs.Editor.Incompleteness

/-!
# Edits of one row

An edit at an index is refused where there is no such row, or where the row cannot take
the edit: a comparison needs a type that admits it, and a selection a picklist. A refused
edit leaves the editor as it was. Any other changes the one row, or takes it out where
there are several, and leaves all others to themselves: what they hold, their order, and
the requests that wait for them.
-/

namespace QueryFilter
namespace Edit

/-- The index of the row that an edit is about. -/
def index? : Edit → Option Nat
  | .add | .reset => none
  | .clear index | .remove index | .pointAt index _ | .compareBy index _ | .enter index _
  | .select index _ | .joinBy index _ => some index

/-- Why a row cannot take an edit. -/
inductive Misfits : Edit → Row → EditError → Prop
  | unresolved {index : Nat} {comparison : Comparison} {row : Row}
      (unresolved : row.content = .unresolved) :
      Misfits (.compareBy index comparison) row (.unresolvedField index)
  | inapplicable {index : Nat} {comparison : Comparison} {row : Row} {type : FieldType}
      (typed : row.type? = some type) (lacking : comparison ∉ row.comparisons) :
      Misfits (.compareBy index comparison) row (.inapplicable comparison type)
  | notSelectable {index : Nat} {values : List String} {row : Row}
      (other : row.content.isPicklist = false) :
      Misfits (.select index values) row (.notSelectable index)

end Edit

namespace Sheet

/-- Why a sheet refuses an edit. -/
inductive Refuses (s : Sheet) (change : Edit) : EditError → Prop
  | outside {index : Nat} (about : change.index? = some index) (outside : s.size ≤ index) :
      Refuses s change (.noSuchRow index s.size)
  | misfit {index : Nat} {row : Row} {error : EditError} (about : change.index? = some index)
      (found : s.rows[index]? = some row) (misfit : change.Misfits row error) :
      Refuses s change error

/-- The rows that an edit at an index leaves: another row in place of the one there, or,
where one of several is taken out, all others, those behind it with numbers one less. -/
inductive Leaves (s : Sheet) (index : Nat) : Edit → List Row → Prop
  | changed {change : Edit} (kept : change = .remove index → s.size = 1) (row : Row) :
      Leaves s index change (s.rows.set index row)
  | removed (several : s.size ≠ 1) :
      Leaves s index (.remove index) (s.rows.take index ++
        (s.rows.drop (index + 1)).map fun row => { row with number := row.number - 1 })

variable {s : Sheet} {schema : Schema} {change : Edit} {index : Nat}

/-! ### Updates -/

theorem update_snd_eq_error {rowChange : Row → Row × EditResult} {error : EditError} :
    (s.update index rowChange).2 = .error error ↔
      s.size ≤ index ∧ error = .noSuchRow index s.size ∨
        ∃ row, s.rows[index]? = some row ∧ (rowChange row).2 = .error error := by
  cases hrow : s.rows[index]? with
  | none =>
    have hle : s.size ≤ index := List.getElem?_eq_none_iff.mp hrow
    simp [update_of_none hrow, hle, eq_comm]
  | some row =>
    have hlt : index < s.size := (List.getElem?_eq_some_iff.mp hrow).1
    simp [update_of_some hrow, Nat.not_le.mpr hlt]

/-- Apart from taking out one of several rows, an edit at an index is an update of the row
there, refused by the rows that cannot take it. -/
theorem edit_eq_update (schema : Schema) (habout : change.index? = some index)
    (hkept : change = .remove index → s.size = 1) :
    ∃ rowChange : Row → Row × EditResult, s.edit schema change = s.update index rowChange ∧
      ∀ row error, (rowChange row).2 = .error error ↔ change.Misfits row error := by
  cases change with
  | add | reset => cases habout
  | clear | enter | joinBy | pointAt =>
    cases habout
    exact ⟨_, rfl, fun row error => iff_of_false nofun nofun⟩
  | remove _ =>
    cases habout
    refine ⟨fun row => (row.clear, .ok none), ?_, fun row error => iff_of_false nofun nofun⟩
    rw [edit, remove, if_pos (hkept rfl), clear]
  | compareBy _ comparison =>
    cases habout
    refine ⟨_, rfl, fun row error => ⟨fun h => ?_, fun h => ?_⟩⟩
    · split at h
      · next htype =>
        cases h
        exact .unresolved (Row.type?_eq_none_iff.mp htype)
      · next type htype =>
        split_ifs at h with hadmits
        cases h
        refine .inapplicable htype ?_
        rw [Row.comparisons_of_type? htype, FieldType.mem_comparisons]
        exact hadmits
    · cases h with
      | unresolved unresolved => rw [Row.type?_eq_none_iff.mpr unresolved]
      | inapplicable typed lacking =>
        rw [Row.comparisons_of_type? typed, FieldType.mem_comparisons] at lacking
        rw [typed]
        exact congrArg Prod.snd (if_neg lacking)
  | select _ values =>
    cases habout
    refine ⟨_, rfl, fun row error => ⟨fun h => ?_, fun h => ?_⟩⟩
    · split at h
      · cases h
      · next hother =>
        cases h
        refine .notSelectable ?_
        cases hcontent : row.content with
        | picklist list => exact absurd hcontent (hother list)
        | _ => rfl
    · cases h with
      | notSelectable other => cases hcontent : row.content <;> simp_all [Content.isPicklist]

/-! ### Refused edits -/

theorem outside_of_refuses_remove {error : EditError} (h : s.Refuses (.remove index) error) :
    s.size ≤ index ∧ error = .noSuchRow index s.size := by
  cases h with
  | outside about outside =>
    cases about
    exact ⟨outside, rfl⟩
  | misfit _ _ misfit => nomatch misfit

theorem remove_snd_eq_error_iff (hseveral : s.size ≠ 1) {error : EditError} :
    (s.edit schema (.remove index)).2 = .error error ↔ s.Refuses (.remove index) error := by
  rw [edit, remove, if_neg hseveral]
  split_ifs with hlt
  · refine iff_of_false (fun h => by cases h) fun h => ?_
    exact absurd (outside_of_refuses_remove h).1 (Nat.not_le.mpr hlt)
  · constructor
    · rintro ⟨⟩
      exact .outside rfl (Nat.not_lt.mp hlt)
    · intro h
      rw [(outside_of_refuses_remove h).2]

/-- An edit is refused for the reasons that there are, and for no other. -/
theorem edit_snd_eq_error_iff {error : EditError} :
    (s.edit schema change).2 = .error error ↔ s.Refuses change error := by
  cases habout : change.index? with
  | none =>
    refine iff_of_false (fun h => ?_) fun h => ?_
    · cases change with
      | add | reset => cases h
      | _ => cases habout
    · cases h with
      | outside about | misfit about => rw [habout] at about; cases about
  | some index =>
    by_cases hkept : change = .remove index → s.size = 1
    · obtain ⟨rowChange, hedit, hmisfits⟩ := s.edit_eq_update schema habout hkept
      rw [hedit, update_snd_eq_error]
      constructor
      · rintro (⟨houtside, rfl⟩ | ⟨row, hrow, hrefused⟩)
        · exact .outside habout houtside
        · exact .misfit habout hrow ((hmisfits row error).mp hrefused)
      · rintro (⟨about, outside⟩ | ⟨about, found, misfit⟩)
        · cases habout.symm.trans about
          exact .inl ⟨outside, rfl⟩
        · cases habout.symm.trans about
          exact .inr ⟨_, found, (hmisfits _ error).mpr misfit⟩
    · obtain ⟨rfl, hseveral⟩ := Classical.not_imp.mp hkept
      exact remove_snd_eq_error_iff hseveral

/-! ### The other rows -/

theorem renumber_eraseIdx (hs : s.InOrder) (hlt : index < s.size) :
    renumber (s.rows.eraseIdx index) = s.rows.take index ++
      (s.rows.drop (index + 1)).map fun row => { row with number := row.number - 1 } := by
  have hlength : (s.rows.take index).length = index :=
    List.length_take_of_le (Nat.le_of_lt hlt)
  apply List.ext_getElem?
  intro i
  rw [renumber, List.getElem?_mapIdx, List.getElem?_eraseIdx]
  split_ifs with hbefore
  · rw [List.getElem?_append_left (by omega), List.getElem?_take_of_lt hbefore]
    cases hrow : s.rows[i]? with
    | none => rfl
    | some row => rw [Option.map_some, ← hs.numbered i row hrow]
  · have hplace : index + 1 + (i - index) = i + 1 := by omega
    rw [List.getElem?_append_right (by omega), hlength, List.getElem?_map, List.getElem?_drop,
      hplace]
    cases hrow : s.rows[i + 1]? with
    | none => rfl
    | some row => rw [Option.map_some, Option.map_some, hs.numbered (i + 1) row hrow]; rfl

theorem leaves_of_edit (hs : s.InOrder) (habout : change.index? = some index)
    {request : Option Request} (h : (s.edit schema change).2 = .ok request) :
    ∃ rows, s.Leaves index change rows ∧ (s.edit schema change).1 = { s with rows := rows } := by
  by_cases hkept : change = .remove index → s.size = 1
  · obtain ⟨rowChange, hedit, -⟩ := s.edit_eq_update schema habout hkept
    rw [hedit] at h ⊢
    obtain ⟨row, hrow, -⟩ := update_snd_eq_ok.mp h
    exact ⟨_, .changed hkept (rowChange row).1, congrArg Prod.fst (update_of_some hrow rowChange)⟩
  · obtain ⟨rfl, hseveral⟩ := Classical.not_imp.mp hkept
    rw [edit, remove, if_neg hseveral] at h ⊢
    split_ifs at h ⊢ with hlt
    exact ⟨_, .removed hseveral, by rw [← renumber_eraseIdx hs hlt]⟩

/-- Each other row is still there, with another number at most. -/
theorem Leaves.exists_mem {rows : List Row} (h : s.Leaves index change rows) {other : Nat}
    {row : Row} (hne : other ≠ index) (hrow : s.rows[other]? = some row) :
    ∃ number, { row with number := number } ∈ rows := by
  cases h with
  | changed kept replaced =>
    refine ⟨row.number, List.mem_iff_getElem?.mpr ⟨other, ?_⟩⟩
    rw [List.getElem?_set_ne hne.symm, hrow]
  | removed several =>
    rcases Nat.lt_or_gt_of_ne hne with hbefore | hbehind
    · refine ⟨row.number, List.mem_append_left _ (List.mem_iff_getElem?.mpr ⟨other, ?_⟩)⟩
      rw [List.getElem?_take_of_lt hbefore, hrow]
    · refine ⟨row.number - 1, List.mem_append_right _ (List.mem_map.mpr ⟨row, ?_, rfl⟩)⟩
      refine List.mem_iff_getElem?.mpr ⟨other - (index + 1), ?_⟩
      have hplace : index + 1 + (other - (index + 1)) = other := by omega
      rw [List.getElem?_drop, hplace, hrow]

end Sheet

namespace Editor

theorem edit_snd_eq_error_iff (e : Editor) {change : Edit} {error : EditError} :
    (e.edit change).2 = .error error ↔ e.sheet.Refuses change error := by
  by_cases hreset : change = .reset
  · subst hreset
    refine iff_of_false nofun fun h => ?_
    cases h with
    | outside about | misfit about => cases about
  · rw [edit_snd hreset]
    exact Sheet.edit_snd_eq_error_iff

/-- Whatever has been done to an editor, an edit is refused exactly where there is no row at
its index, or that row cannot take it, and a refused edit leaves the editor as it was. Any
other edit at an index changes nothing but that row and the verdict: all other rows are left
as they were, and what becomes of an answer to a request of theirs is the same as before. -/
theorem edit_of_run (schema : Schema) (actions : List Action) (change : Edit) :
    let e := (new schema).after actions
    let later := (e.perform (.edit change)).1
    (∀ error, (e.edit change).2 = .error error ↔ e.sheet.Refuses change error) ∧
    (∀ error, (e.edit change).2 = .error error →
      e.perform (.edit change) = (e, .refused error)) ∧
    ∀ index, change.index? = some index → (∀ error, ¬ e.sheet.Refuses change error) →
      (∃ rows, e.sheet.Leaves index change rows ∧
        later = { e with
          sheet := { e.sheet with rows := rows }, verdict := verdictAfter e.verdict change }) ∧
      ∀ other row, other ≠ index → e.sheet.rows[other]? = some row →
        ∀ request : Request, request.stamp = row.stamp → ∀ result,
          (later.deliver (request.answer result)).2 = (e.deliver (request.answer result)).2 := by
  intro e later
  refine ⟨fun error => e.edit_snd_eq_error_iff, fun error h => ?_,
    fun index habout haccepted => ?_⟩
  · have hreset : change ≠ .reset := by
      rintro rfl
      cases h
    rw [perform, edit_of_error hreset ((edit_snd hreset).symm.trans h)]
    rfl
  have hreset : change ≠ .reset := by
    rintro rfl
    cases habout
  obtain ⟨request, hedit⟩ : ∃ request, (e.sheet.edit e.schema change).2 = .ok request := by
    cases hedit : (e.sheet.edit e.schema change).2 with
    | ok request => exact ⟨request, rfl⟩
    | error error => exact absurd (Sheet.edit_snd_eq_error_iff.mp hedit) (haccepted error)
  obtain ⟨rows, hleaves, hrows⟩ :=
    Sheet.leaves_of_edit (inOrder_after schema actions) habout hedit
  have hlater : later = { e with
      sheet := { e.sheet with rows := rows }, verdict := verdictAfter e.verdict change } := by
    rw [← hrows]
    exact congrArg Prod.fst (edit_of_ok hreset hedit)
  refine ⟨⟨rows, hleaves, hlater⟩, ?_⟩
  intro other row hne hrow request hstamp answer
  have hdistinct : later.sheet.Distinct := by
    have h := distinct_after schema (actions ++ [.edit change])
    rwa [after_append] at h
  obtain ⟨number, hmem⟩ := hleaves.exists_mem hne hrow
  have hkept : { row with number := number } ∈ later.sheet.rows := by
    rw [hlater]
    exact hmem
  have hbears : row.stamp = (request.answer answer).stamp := hstamp.symm
  have hbefore :=
    Sheet.deliver_of_mem (distinct_after schema actions) (List.mem_of_getElem? hrow) hbears
  have hafter := Sheet.deliver_of_mem hdistinct hkept hbears
  rw [deliver, deliver, hbefore, hafter]
  rfl

/-- The third of three rows waits for its values and takes no pattern. The second is taken
out, and the values still arrive. -/
theorem edit_of_run_three_rows :
    let schema : Schema := ⟨"Account", [⟨"Type", "Type", "Picklist", []⟩]⟩
    let actions : List Action := [.edit .add, .edit .add, .edit (.pointAt 2 "Type")]
    let e := (new schema).after actions
    let request : Request := ⟨⟨2, 1⟩, "Account", "Type"⟩
    let removed := (e.perform (.edit (.remove 1))).1
    e.perform (.edit (.compareBy 2 .like)) = (e, .refused (.inapplicable .like .picklist)) ∧
      (∃ rows, e.sheet.Leaves 1 (.remove 1) rows ∧ removed.sheet.rows = rows) ∧
      removed.sheet.rows.map (fun row => (row.number, row.field)) = [(1, ""), (2, "Type")] ∧
      (removed.deliver (request.answer (.ok []))).2 = .applied := by
  intro schema actions e request removed
  have hrefused := (edit_of_run schema actions (.compareBy 2 .like)).2.1
    (.inapplicable .like .picklist) (by decide +kernel)
  have haccepted : ∀ error, ¬ e.sheet.Refuses (.remove 1) error := by
    intro error hrefuses
    have herror := ((edit_of_run schema actions (.remove 1)).1 error).mpr hrefuses
    have hok : (e.edit (.remove 1)).2.isOk = true := by decide +kernel
    rw [herror] at hok
    cases hok
  obtain ⟨⟨rows, hleaves, hlater⟩, hothers⟩ :=
    (edit_of_run schema actions (.remove 1)).2.2 1 rfl haccepted
  have hrow : e.sheet.rows[2]? =
      some { Row.blank 2 3 with
        generation := 1, field := "Type", content := .picklist ⟨[], [], false⟩ } := by
    decide +kernel
  refine ⟨hrefused, ⟨rows, hleaves, congrArg (·.sheet.rows) hlater⟩, by decide +kernel, ?_⟩
  exact (hothers 2 _ (by decide) hrow request rfl (.ok [])).trans (by decide +kernel)

end Editor
end QueryFilter
