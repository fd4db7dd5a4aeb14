import Mathlib.Data.List.Induction
import QueryFilter.Proofs.Editor.Verdict
import QueryFilter.Proofs.Sheet.Completeness

/-!
# Verdicts on incomplete rows

The verdict that a row states nothing is reached only where a condition is produced, and
it is right then. It is on the formula text, which edits of rows do not change, so it
stays when the row is completed: with a comparison, a value or a selection of its own,
and in no other way. It is gone with the next check, change of the text or of the mode,
or change in the number of rows.
-/

namespace QueryFilter

/-- Whether an action compares, enters or selects in the row with a number. -/
def Action.Fills (number : Nat) : Action → Prop
  | .edit change => change.Fills number
  | _ => False

namespace Editor

/-- The verdict is that the row with a number is mentioned and states nothing. -/
def Reports (e : Editor) (number : Nat) : Prop :=
  e.verdict = .invalid (.conditions (.incomplete number))

instance (e : Editor) (number : Nat) : Decidable (e.Reports number) :=
  inferInstanceAs (Decidable (e.verdict = .invalid (.conditions (.incomplete number))))

variable {e : Editor} {number : Nat}

/-! ### One action -/

theorem not_reports_of_check {error : Formula.Error} (h : e.check = .error error) :
    error ≠ .conditions (.incomplete number) := by
  rintro rfl
  exact Formula.isOfText_of_check h

theorem not_reports_validate : ¬ e.validate.Reports number := by
  unfold validate Reports
  cases hcheck : e.check with
  | ok f => simp
  | error error => simpa using not_reports_of_check hcheck

theorem reports_blame (h : e.blame.1.Reports number) : e.blame.1 = e := by
  unfold blame at h ⊢
  split_ifs at h ⊢ with hmode
  · cases hcheck : e.check with
    | ok f => simp [Reports, hcheck] at h
    | error error =>
      simp only [Reports, hcheck, Verdict.invalid.injEq] at h
      exact absurd h (not_reports_of_check hcheck)
  · rfl

theorem verdictAfter_eq (v : Verdict) (change : Edit) :
    verdictAfter v change = .unchecked ∨
      verdictAfter v change = v ∧ change ≠ .add ∧ ∀ index, change ≠ .remove index := by
  cases change <;> simp [verdictAfter]

theorem reports_edit {change : Edit} (h : (e.perform (.edit change)).1.Reports number) :
    e.Reports number ∧ (e.sheet.Lacks number → ¬ change.Fills number →
      (e.perform (.edit change)).1.sheet.Lacks number) := by
  by_cases hreset : change = .reset
  · subst hreset
    cases h
  · rw [perform] at h ⊢
    cases hsheet : (e.sheet.edit e.schema change).2 with
    | error error =>
      rw [edit_of_error hreset hsheet] at h ⊢
      exact ⟨h, fun hlacks _ => hlacks⟩
    | ok request =>
      rw [edit_of_ok hreset hsheet] at h ⊢
      rw [Reports] at h
      rcases verdictAfter_eq e.verdict change with hback | ⟨hkept, -, hremove⟩
      · rw [hback] at h
        cases h
      · rw [hkept] at h
        exact ⟨h, fun hlacks hfills => Sheet.lacks_edit hreset hremove hfills hlacks⟩

/-- A row that a formula about the rows mentions is there, complete or not. -/
theorem lacks_of_missing (hs : e.sheet.InOrder) {f : Formula} (hcheck : e.check = .ok f)
    (hmissing : Formula.firstMissing? e.sheet.fragment? f.leaves = some number) :
    e.sheet.Lacks number := by
  obtain ⟨hpositive, hsize⟩ := inside_of_missing hcheck hmissing
  obtain ⟨index, rfl⟩ : ∃ index, number = index + 1 := ⟨number - 1, by omega⟩
  have hrow : e.sheet.rows[index]? = some e.sheet.rows[index] := List.getElem?_eq_getElem hsize
  rw [Sheet.firstMissing?_fragment? hs] at hmissing
  have hnone := List.find?_some hmissing
  simpa [Sheet.Lacks, Sheet.completeRow?, Sheet.row?, hrow, Option.filter] using hnone

theorem reports_produce (hs : e.sheet.InOrder) (h : e.produce.1.Reports number) :
    e.produce.1 = e ∧ e.mode ≠ .byFormula ∨ e.sheet.Lacks number := by
  by_cases hmode : e.mode = .byFormula
  · right
    by_cases hcomplete : e.sheet.complete = []
    · rw [produce_of_complete_eq_nil hcomplete, if_pos hmode] at h
      cases h
    · cases hcheck : e.check with
      | error error =>
        rw [(produce_of_check_eq_error hmode hcomplete hcheck).1, Reports] at h
        exact absurd (Verdict.invalid.inj h) (not_reports_of_check hcheck)
      | ok f =>
        cases hmissing : Formula.firstMissing? e.sheet.fragment? f.leaves with
        | some other =>
          rw [(produce_of_missing hmode hcomplete hcheck hmissing).1] at h
          cases h
          exact lacks_of_missing hs hcheck hmissing
        | none =>
          rw [(produce_of_fragments hmode hcomplete hcheck hmissing).1] at h
          cases h
  · left
    cases hjoined : e.mode with
    | throughout | byRow => simp [produce, hjoined]
    | byFormula => exact absurd hjoined hmode

/-- A report is new if a condition has just been produced, and then the row states nothing.
Otherwise it was there before, and only an action that fills the row completes it. -/
theorem reports_perform (hs : e.sheet.InOrder) (hdistinct : e.sheet.Distinct) {action : Action}
    (h : (e.perform action).1.Reports number) :
    action = .produce ∧ e.sheet.Lacks number ∨
      e.Reports number ∧ (e.sheet.Lacks number → ¬ action.Fills number →
        (e.perform action).1.sheet.Lacks number) := by
  have hkept (hsame : (e.perform action).1 = e) :
      e.Reports number ∧ (e.sheet.Lacks number → ¬ action.Fills number →
        (e.perform action).1.sheet.Lacks number) := by
    rw [hsame] at h ⊢
    exact ⟨h, fun hlacks _ => hlacks⟩
  cases action with
  | edit change => exact .inr (reports_edit h)
  | deliver answer =>
    exact .inr ⟨h, fun hlacks _ => (Sheet.lacks_deliver hdistinct answer).mpr hlacks⟩
  | setSchema schema => cases h
  | setFormula text => cases h
  | setMode mode =>
    right
    by_cases hmode : e.mode = mode
    · exact hkept (if_pos hmode)
    · rw [perform, setMode, if_neg hmode] at h
      cases h
  | validate => exact absurd h not_reports_validate
  | produce =>
    rcases reports_produce hs h with ⟨hsame, -⟩ | hlacks
    · exact .inr (hkept hsame)
    · exact .inl ⟨rfl, hlacks⟩
  | blame => exact .inr (hkept (reports_blame h))
  | queryFailed message =>
    right
    apply hkept
    simp only [perform, queryFailed] at h ⊢
    split_ifs at h ⊢
    · exact reports_blame h
    · rfl

/-! ### Runs -/

theorem distinct_after (schema : Schema) (actions : List Action) :
    ((new schema).after actions).sheet.Distinct := by
  obtain ⟨events, hevents⟩ := (new schema).exists_events actions
  rw [hevents]
  exact Sheet.distinct_new.after events

/-- Among some actions, one that produced a condition while a row stated nothing. That row
has been reported ever since. -/
structure RaisedBy (schema : Schema) (actions : List Action) (number : Nat)
    (before since : List Action) : Prop where
  actions : actions = before ++ .produce :: since
  lacks : ((new schema).after before).sheet.Lacks number
  reports : ∀ first, first <+: since →
    ((new schema).after (before ++ .produce :: first)).Reports number

/-- Among the actions since a row was reported, one that fills the row and completes it. -/
def CompletedSince (schema : Schema) (number : Nat) (before since : List Action) : Prop :=
  ∃ first action, first ++ [action] <+: since ∧ action.Fills number ∧
    ((new schema).after (before ++ .produce :: first)).sheet.Lacks number ∧
    ¬ ((new schema).after (before ++ .produce :: (first ++ [action]))).sheet.Lacks number

theorem exists_raisedBy (schema : Schema) (actions : List Action)
    (h : ((new schema).after actions).Reports number) :
    ∃ before since, RaisedBy schema actions number before since ∧
      (((new schema).after actions).sheet.Lacks number ∨
        CompletedSince schema number before since) := by
  induction actions using List.reverseRecOn with
  | nil => cases h
  | append_singleton actions action ih =>
    have hstep : (new schema).after (actions ++ [action]) =
        (((new schema).after actions).perform action).1 := after_append ..
    rw [hstep] at h ⊢
    -- the last action has raised the report, or has found it there
    rcases reports_perform (inOrder_after schema actions) (distinct_after schema actions) h with
      ⟨rfl, hlacks⟩ | ⟨hbefore, hkeeps⟩
    · refine ⟨actions, [], ⟨rfl, hlacks, fun first hfirst => ?_⟩, .inl ?_⟩
      · rw [List.prefix_nil.mp hfirst, hstep]
        exact h
      · rw [perform, produce_fst]
        exact hlacks
    · obtain ⟨before, since, hraised, hrow⟩ := ih hbefore
      have hactions : actions ++ [action] = before ++ .produce :: (since ++ [action]) := by
        simp [hraised.actions]
      have hnow : (new schema).after (before ++ .produce :: (since ++ [action])) =
          (((new schema).after actions).perform action).1 := by rw [← hactions, hstep]
      refine ⟨before, since ++ [action], ⟨hactions, hraised.lacks, fun first hfirst => ?_⟩, ?_⟩
      · rcases List.prefix_concat_iff.mp hfirst with rfl | hearlier
        · rw [hnow]
          exact h
        · exact hraised.reports first hearlier
      · rcases hrow with hlacks | ⟨first, filling, hfirst, hcompleted⟩
        · by_cases hlater : (((new schema).after actions).perform action).1.sheet.Lacks number
          · exact .inl hlater
          -- the row was still incomplete before the last action, so it is that one
          · have hfills : action.Fills number := by
              by_contra hother
              exact hlater (hkeeps hlacks hother)
            refine .inr ⟨since, action, List.prefix_rfl, hfills, ?_, ?_⟩
            · rw [← hraised.actions]
              exact hlacks
            · rw [hnow]
              exact hlater
        · exact .inr ⟨first, filling, hfirst.trans (List.prefix_append _ _), hcompleted⟩

/-- Whatever has been done to an editor, producing a condition reports only a row that states
nothing. An editor that reports a row has produced a condition while it did, and has
reported it since; the row still states nothing, unless it has been completed since by a
comparison, a value or a selection of its own. -/
theorem report_of_run (schema : Schema) (actions : List Action) (number : Nat) :
    let e := (new schema).after actions
    (e.produce.1.Reports number → e.sheet.Lacks number) ∧
    (e.Reports number →
      ∃ before since, RaisedBy schema actions number before since ∧
        (e.sheet.Lacks number ∨ CompletedSince schema number before since)) := by
  intro e
  refine ⟨fun h => ?_, exists_raisedBy schema actions⟩
  rcases reports_produce (inOrder_after schema actions) h with ⟨hsame, hmode⟩ | hlacks
  · rw [hsame] at h
    obtain ⟨-, -, hreported, -⟩ := verdict_of_run schema actions
    exact absurd (hreported number h).1 hmode
  · exact hlacks

/-- A condition is produced while the second of two rows has no value. The row is reported
as it is emptied, and still after a value has been entered. -/
theorem report_of_run_two_rows :
    let schema : Schema := ⟨"Account", [⟨"Name", "Name", "String", []⟩]⟩
    let actions : List Action := [.edit (.pointAt 0 "Name"), .edit (.compareBy 0 .equal),
      .edit (.enter 0 "a"), .edit .add, .edit (.pointAt 1 "Name"), .edit (.compareBy 1 .equal),
      .setMode .byFormula, .setFormula "1 AND 2"]
    let emptying : List Action := [.produce, .edit (.clear 1)]
    let entering : List Action := [.produce, .edit (.enter 1 "b")]
    let emptied := (new schema).after (actions ++ emptying)
    ((new schema).after actions).sheet.Lacks 2 ∧
      (emptied.Reports 2 ∧ emptied.sheet.Lacks 2) ∧
      ∃ before since, RaisedBy schema (actions ++ entering) 2 before since ∧
        CompletedSince schema 2 before since := by
  intro schema actions emptying entering emptied
  have hnow := (report_of_run schema actions 2).1 (by decide +kernel)
  obtain ⟨before, since, hraised, hrow⟩ :=
    (report_of_run schema (actions ++ entering) 2).2 (by decide +kernel)
  refine ⟨hnow, ⟨by decide +kernel, by decide +kernel⟩, before, since, hraised, ?_⟩
  exact hrow.resolve_left (by decide +kernel)

/-- The report of a row outlasts its cause: a value completes the row, and the verdict is
still that it states nothing. -/
theorem report_outlasts_value :
    let schema : Schema := ⟨"Account", [⟨"Name", "Name", "String", []⟩]⟩
    let actions : List Action := [.edit (.pointAt 0 "Name"), .edit (.compareBy 0 .equal),
      .edit (.enter 0 "a"), .edit .add, .edit (.pointAt 1 "Name"), .edit (.compareBy 1 .equal),
      .setMode .byFormula, .setFormula "1 AND 2", .produce, .edit (.enter 1 "b")]
    let e := (new schema).after actions
    e.verdict = .invalid (.conditions (.incomplete 2)) ∧
      (e.sheet.row? 2).map Row.isComplete = some true := by
  decide +kernel

end Editor
end QueryFilter
