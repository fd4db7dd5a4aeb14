import QueryFilter.Editor.Action
import QueryFilter.Proofs.Sheet.Order

/-!
# Runs of an editor

What the actions of an editor do to its sheet are events of the sheet, under the
schema of the moment. So what holds of every sheet that events lead to holds of the
sheet of every editor that actions lead to.
-/

namespace QueryFilter
namespace Editor

/-- The editor after some actions. -/
def after (e : Editor) (actions : List Action) : Editor :=
  actions.foldl (fun e action => (e.perform action).1) e

@[simp] theorem after_nil (e : Editor) : e.after [] = e := rfl

@[simp] theorem after_cons (e : Editor) (action : Action) (rest : List Action) :
    e.after (action :: rest) = (e.perform action).1.after rest := rfl

theorem after_append (e : Editor) (first second : List Action) :
    e.after (first ++ second) = (e.after first).after second :=
  List.foldl_append

@[simp] theorem sheet_setMode (e : Editor) (mode : JoinMode) : (e.setMode mode).sheet = e.sheet := by
  unfold setMode
  split_ifs <;> rfl

@[simp] theorem mode_setMode (e : Editor) (mode : JoinMode) : (e.setMode mode).mode = mode := by
  unfold setMode
  split_ifs with h
  · exact h
  · rfl

/-- What every action keeps, a run keeps. -/
theorem after_induction {P : Editor → Prop}
    (hperform : ∀ (e : Editor) (action : Action), P e → P (e.perform action).1) {e : Editor}
    (he : P e) (actions : List Action) : P (e.after actions) := by
  induction actions generalizing e with
  | nil => exact he
  | cons action rest ih => exact ih (hperform e action he)

/-- The events of the sheet that an action of the editor consists in. -/
def events (e : Editor) : Action → List Event
  | .edit change => [.edit e.schema change]
  | .deliver delivery => [.deliver delivery]
  | .setSchema schema => [.edit schema .reset]
  | _ => []

/-! ### Edits -/

theorem sheet_edit (e : Editor) (change : Edit) :
    (e.edit change).1.sheet = (e.sheet.edit e.schema change).1 := by
  cases change with
  | reset => rfl
  | _ =>
    simp only [edit]
    split <;> rfl

section Edit

variable {e : Editor} {change : Edit} (hreset : change ≠ .reset)
include hreset

/-- A refused edit leaves the editor as it was. -/
theorem edit_of_error {error : EditError}
    (h : (e.sheet.edit e.schema change).2 = .error error) : e.edit change = (e, .error error) := by
  have hsame := Sheet.edit_fst_of_error h
  cases change with
  | reset => exact absurd rfl hreset
  | _ => simp only [edit, h, hsame]

theorem edit_of_ok {request : Option Request}
    (h : (e.sheet.edit e.schema change).2 = .ok request) :
    e.edit change =
      ({ e with
        sheet := (e.sheet.edit e.schema change).1, verdict := verdictAfter e.verdict change },
        .ok request) := by
  cases change with
  | reset => exact absurd rfl hreset
  | _ => simp only [edit, h]

/-- Apart from a reset, an edit comes to what the edit of the sheet comes to. -/
theorem edit_snd : (e.edit change).2 = (e.sheet.edit e.schema change).2 := by
  cases h : (e.sheet.edit e.schema change).2 with
  | error error => rw [edit_of_error hreset h]
  | ok request => rw [edit_of_ok hreset h]

end Edit

/-! ### Actions -/

theorem sheet_perform (e : Editor) (action : Action) :
    (e.perform action).1.sheet = e.sheet.after (e.events action) := by
  cases action with
  | edit change => exact e.sheet_edit change
  | deliver delivery => rfl
  | setSchema schema => rfl
  | setMode mode => exact e.sheet_setMode mode
  | setFormula text => rfl
  | validate =>
    simp only [perform, validate]
    split <;> rfl
  | produce =>
    simp only [perform, produce, produceByFormula]
    split
    · rfl
    · rfl
    · split_ifs
      · rfl
      · split <;> rfl
  | blame =>
    simp only [perform, blame]
    split_ifs <;> rfl
  | queryFailed message =>
    simp only [perform, queryFailed, blame]
    split_ifs <;> rfl

/-- The sheet of an editor is one that events lead to. -/
theorem exists_events (e : Editor) (actions : List Action) :
    ∃ events, (e.after actions).sheet = e.sheet.after events := by
  induction actions generalizing e with
  | nil => exact ⟨[], rfl⟩
  | cons action rest ih =>
    obtain ⟨events, hevents⟩ := ih (e.perform action).1
    refine ⟨e.events action ++ events, ?_⟩
    rw [after_cons, hevents, e.sheet_perform, Sheet.after_append]

theorem inOrder_after (schema : Schema) (actions : List Action) :
    ((new schema).after actions).sheet.InOrder := by
  obtain ⟨events, hevents⟩ := (new schema).exists_events actions
  rw [hevents]
  exact Sheet.inOrder_new.after events

end Editor
end QueryFilter
