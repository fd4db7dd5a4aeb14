import QueryFilter.Proofs.Session.Restore

/-!
# Refused rows

Restoring the rows of a session stops at the first one that does not fit the schema. It
is refused for its comparison or for its selection. No edit finds its row missing, since
the row that is restored is the last one of the sheet, and none asks for the type of a
field that is not known. Apart from the refusal, nothing is said but warnings.
-/

namespace QueryFilter

namespace SavedRow

/-- Why a saved row at an index is refused: its field is known, and the type of it does not
admit the comparison or has nothing to select. -/
inductive Refusal (schema : Schema) (index : Nat) (saved : SavedRow) : EditError → Prop
  | comparison {field : Field} {type : FieldType} {comparison : Comparison}
      (found : schema.find? saved.field = some field) (typed : field.type? = some type)
      (given : saved.comparison = some comparison) (inapplicable : comparison.admits type = false) :
      Refusal schema index saved (.inapplicable comparison type)
  | selection {field : Field} {type : FieldType} (found : schema.find? saved.field = some field)
      (typed : field.type? = some type) (given : saved.selected ≠ []) (single : type ≠ .picklist) :
      Refusal schema index saved (.notSelectable index)

variable {schema : Schema} {saved : SavedRow}

theorem exists_field_of_type? {type : FieldType}
    (h : (schema.content saved.field).type? = some type) :
    ∃ field, schema.find? saved.field = some field ∧ field.type? = some type ∧
      ((schema.content saved.field).isPicklist = true ↔ type = .picklist) := by
  unfold Schema.content at h ⊢
  cases hfield : schema.find? saved.field with
  | none =>
    rw [hfield] at h
    cases h
  | some field =>
    rw [hfield, Option.elim_some, Content.type?_ofField] at h
    exact ⟨field, rfl, h, Content.isPicklist_ofField h⟩

/-- A saved row does not fit exactly if there is a reason to refuse it. -/
theorem exists_refusal_iff (index : Nat) :
    (∃ error, saved.Refusal schema index error) ↔ saved.fits schema = false := by
  constructor
  · rintro ⟨error, hrefusal⟩
    have htype {field : Field} {type : FieldType} (found : schema.find? saved.field = some field)
        (typed : field.type? = some type) : (schema.content saved.field).type? = some type := by
      rw [Schema.content, found, Option.elim_some, Content.type?_ofField, typed]
    cases hrefusal with
    | comparison found typed given inapplicable =>
      simp [fits, htype found typed, given, inapplicable]
    | selection found typed given single =>
      have hcontent : (schema.content saved.field).isPicklist = false := by
        rw [Schema.content, found, Option.elim_some, ← Bool.not_eq_true,
          Content.isPicklist_ofField typed]
        exact single
      simp [fits, htype found typed, given, hcontent]
  · intro h
    cases htype : (schema.content saved.field).type? with
    | none => simp [fits, htype] at h
    | some type =>
      obtain ⟨field, hfound, htyped, hlist⟩ := exists_field_of_type? htype
      simp only [fits, htype, Bool.and_eq_false_iff] at h
      rcases h with hcomparison | hselection
      · cases hgiven : saved.comparison with
        | none => simp [hgiven] at hcomparison
        | some comparison =>
          exact ⟨_, .comparison hfound htyped hgiven (by simpa [hgiven] using hcomparison)⟩
      · rw [Bool.or_eq_false_iff] at hselection
        refine ⟨_, .selection hfound htyped (by simpa using hselection.1) fun hpicklist => ?_⟩
        rw [hlist.mpr hpicklist] at hselection
        exact absurd hselection.2 (by decide)

end SavedRow

/-! ### Reports of work on saved rows -/

/-- A report of work on saved rows that says nothing but warnings and succeeds, or after
them says why an edit was refused and fails. -/
inductive Report.Restores {α : Type} (reason : Nat → EditError → Prop) (r : Report α) : Prop
  | done {a : α} (warnings : List String) (result : r.result = .ok a)
      (notices : r.notices = warnings.map .warning)
  | refused {index : Nat} {error : EditError} (warnings : List String)
      (result : r.result = .error .input) (why : reason index error)
      (notices : r.notices = warnings.map .warning ++ Session.refusalNotices index error)

namespace Report

variable {α β : Type} {reason : Nat → EditError → Prop}

theorem Restores.imp {other : Nat → EditError → Prop} {r : Report α} (h : r.Restores reason)
    (himp : ∀ index error, reason index error → other index error) : r.Restores other := by
  cases h with
  | done warnings result notices => exact .done warnings result notices
  | refused warnings result why notices => exact .refused warnings result (himp _ _ why) notices

theorem restores_pure (a : α) : (Pure.pure a : Report α).Restores reason :=
  .done [] rfl rfl

theorem restores_say (warnings : List String) :
    (say (warnings.map .warning)).Restores reason :=
  .done warnings rfl rfl

theorem Restores.bind {r : Report α} {next : α → Report β} (hr : r.Restores reason)
    (hnext : ∀ a, r.result = .ok a → (next a).Restores reason) :
    (r >>= next).Restores reason := by
  cases hr with
  | @done a warnings result notices =>
    have hbind : r >>= next = ⟨r.notices ++ (next a).notices, (next a).result⟩ := by
      show Report.bind r next = _
      rw [Report.bind, result]
    rw [hbind, notices]
    cases hnext a result with
    | done later result' notices' =>
      exact .done (warnings ++ later) result' (by rw [notices', List.map_append])
    | refused later result' why notices' =>
      refine .refused (warnings ++ later) result' why ?_
      rw [notices', List.map_append, List.append_assoc]
  | refused warnings result why notices =>
    have hbind : r >>= next = ⟨r.notices, .error .input⟩ := by
      show Report.bind r next = _
      rw [Report.bind, result]
    rw [hbind]
    exact .refused warnings rfl why notices

end Report

namespace Session

open Report

theorem restores_restoreBy {reason : Nat → EditError → Prop} {index : Nat} {e : Editor}
    {change : Edit} (h : ∀ error, (e.edit change).2 = .error error → reason index error) :
    (restoreBy index e change).Restores reason := by
  unfold restoreBy
  refine Restores.bind (r := ofExcept .input (refusalNotices index) (e.edit change).2) ?_
    fun _ _ => restores_pure _
  cases hedit : (e.edit change).2 with
  | ok request => exact .done [] rfl rfl
  | error error => exact .refused [] rfl (h error hedit) rfl

/-- Work that is known to succeed needs no reason to fail. -/
theorem restores_restoreBy_of_ok {reason : Nat → EditError → Prop} {index : Nat} {e : Editor}
    {change : Edit} {result : Editor × Option Request}
    (h : (restoreBy index e change).result = .ok result) :
    (restoreBy index e change).Restores reason := by
  apply restores_restoreBy
  intro error hedit
  rw [result_restoreBy, hedit] at h
  cases h

/-! ### The rows of a session -/

section LastRow

variable {schema : Schema} {done : List Row} {row : Row} {nextId : Nat}

theorem restores_restoreComparison {saved : SavedRow} {field : Field} {type : FieldType}
    (hfound : schema.find? saved.field = some field) (htyped : field.type? = some type)
    (htype : row.type? = some type) :
    (restoreComparison done.length saved (editorAt schema done nextId row)).Restores
      fun index error => index = done.length ∧ saved.Refusal schema index error := by
  unfold restoreComparison
  cases hgiven : saved.comparison with
  | none => exact restores_pure _
  | some comparison =>
    refine (restores_restoreBy fun error h => ⟨rfl, ?_⟩).bind fun _ _ => restores_pure _
    rw [edit_editorAt_compareBy comparison htype] at h
    split_ifs at h with hadmits
    cases h
    exact .comparison hfound htyped hgiven (by simpa using hadmits)

theorem restores_restoreSelection {saved : SavedRow} {field : Field} {type : FieldType}
    (hfound : schema.find? saved.field = some field) (htyped : field.type? = some type)
    (hlist : row.content.isPicklist = true ↔ type = .picklist) :
    (restoreSelection done.length saved (editorAt schema done nextId row)).Restores
      fun index error => index = done.length ∧ saved.Refusal schema index error := by
  unfold restoreSelection
  split_ifs with hempty
  · exact restores_pure _
  · refine (restores_restoreBy fun error h => ⟨rfl, ?_⟩).bind fun _ _ => restores_pure _
    rw [List.isEmpty_iff] at hempty
    rw [edit_editorAt_select hempty] at h
    split_ifs at h with hpicklist
    cases h
    exact .selection hfound htyped hempty fun htype => hpicklist (hlist.mpr htype)

theorem missingPartNotices_eq (address : UserAddress) (index : Nat) (saved : SavedRow) :
    ∃ warnings : List String, missingPartNotices address index saved = warnings.map .warning := by
  unfold missingPartNotices
  split
  · exact ⟨[], rfl⟩
  · split_ifs
    · exact ⟨[], rfl⟩
    · exact ⟨[_], rfl⟩

theorem restores_restoreContent (address : UserAddress) {saved : SavedRow} {field : Field}
    {type : FieldType} (hfound : schema.find? saved.field = some field)
    (htyped : field.type? = some type) (htype : row.type? = some type)
    (hlist : row.content.isPicklist = true ↔ type = .picklist) (hnone : row.comparison = none) :
    (restoreContent address done.length saved (editorAt schema done nextId row)).Restores
      fun index error => index = done.length ∧ saved.Refusal schema index error := by
  unfold restoreContent
  refine (restores_restoreComparison hfound htyped htype).bind fun e he => ?_
  rw [result_restoreComparison saved htype hnone] at he
  split_ifs at he
  cases he
  obtain ⟨warnings, hwarnings⟩ := missingPartNotices_eq address done.length saved
  rw [hwarnings]
  refine (restores_say warnings).bind fun _ _ => ?_
  refine (restores_restoreBy_of_ok (result_restoreBy_enter _)).bind fun entered hentered => ?_
  rw [result_restoreBy_enter] at hentered
  cases hentered
  exact restores_restoreSelection hfound htyped hlist

end LastRow

section Rows

variable (schema : Schema) (address : UserAddress)

theorem restores_restoreRow (done : List Row) (saved : SavedRow) :
    (restoreRow address done.length saved (editorOf schema done)).Restores
      fun index error => index = done.length ∧ saved.Refusal schema index error := by
  unfold restoreRow
  rw [editorAt_blank]
  refine (restores_restoreBy_of_ok (result_restoreBy_pointAt _)).bind fun pointed hpointed => ?_
  rw [result_restoreBy_pointAt] at hpointed
  cases hpointed
  refine (restores_restoreBy_of_ok (result_restoreBy_joiner ..)).bind fun joined hjoined => ?_
  rw [result_restoreBy_joiner] at hjoined
  cases hjoined
  have hlast : (editorAt schema done (done.length + 1) (pointedRow schema done.length saved)
      ).sheet.rows[done.length]?.bind Row.type? = (schema.content saved.field).type? := by
    simp [editorAt, type?_pointedRow]
  dsimp only
  rw [hlast]
  -- only a row whose type is known is compared or selected in
  cases htype : (schema.content saved.field).type? with
  | none => exact (restores_say [_]).bind fun _ _ => restores_pure _
  | some type =>
    obtain ⟨field, hfound, htyped, hlist⟩ := SavedRow.exists_field_of_type? htype
    have hrow : (pointedRow schema done.length saved).type? = some type := htype
    exact (restores_restoreContent address hfound htyped hrow hlist rfl).bind
      fun _ _ => restores_pure _

theorem restores_restoreFrom (done : List Row) (rest : List SavedRow) :
    (restoreFrom address done.length (editorOf schema done) rest).Restores
      fun index error => ∃ offset saved, index = done.length + offset ∧
        rest[offset]? = some saved ∧ saved.Refusal schema index error := by
  induction rest generalizing done with
  | nil => exact restores_pure _
  | cons first rest ih =>
    unfold restoreFrom
    refine ((restores_restoreRow schema address done first).imp ?_).bind fun restored h => ?_
    · rintro index error ⟨rfl, hrefusal⟩
      exact ⟨0, first, rfl, rfl, hrefusal⟩
    · rw [result_restoreRow] at h
      split_ifs at h
      cases h
      have hnext := ih (done ++ [first.restored schema address done.length])
      rw [List.length_append, List.length_singleton] at hnext
      refine (hnext.imp ?_).bind fun _ _ => restores_pure _
      rintro index error ⟨offset, saved, rfl, hsaved, hrefusal⟩
      exact ⟨offset + 1, saved, by omega, hsaved, hrefusal⟩

end Rows

/-- Restoring the rows of a session fails only where a saved row is refused. -/
theorem restores_restore (s : Session) :
    s.restore.Restores fun index error =>
      ∃ saved, s.rows[index]? = some saved ∧ saved.Refusal s.schema index error := by
  refine (restores_restoreFrom s.schema s.address [] s.rows).imp ?_
  rintro index error ⟨offset, saved, rfl, hsaved, hrefusal⟩
  rw [List.length_nil, Nat.zero_add] at *
  exact ⟨saved, hsaved, hrefusal⟩

end Session
end QueryFilter
