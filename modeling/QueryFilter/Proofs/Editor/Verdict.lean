import QueryFilter.Proofs.Editor.Produce
import QueryFilter.Proofs.Sheet.Delivery

/-!
# Verdicts agree with the formula text

A verdict is kept while rows are edited, so it must not outlive what it is about: the
formula text and the number of rows. Each action takes the verdict back, or leaves the
text, the mode and the number of rows as they are, or reaches a verdict on them. So
in every editor the verdict is what a check of the present text would give, except
that a text in order may still be blamed for a refused query or for an incomplete row.
-/

namespace QueryFilter

namespace Formula

/-- An error that a text can have by itself, without a look at what the rows hold. -/
def Error.IsOfText : Error → Prop
  | .conditions .refused | .conditions (.incomplete _) => False
  | _ => True

theorem NumbersFlaw.isOfText {f : Formula} {rowCount : Nat} {flaw : Flaw}
    (h : NumbersFlaw f rowCount flaw) : (Error.conditions flaw).IsOfText := by
  cases h <;> trivial

theorem isOfText_of_check {text : String} {rowCount : Nat} {error : Error}
    (h : check text rowCount = .error error) : error.IsOfText := by
  cases check_eq_error_iff.mp h with
  | empty | unbalanced | ungrammatical => trivial
  | numbers _ first => exact first.isOfText

end Formula

/-! ### The number of rows -/

namespace Sheet

theorem size_update (s : Sheet) (index : Nat) (change : Row → Row × EditResult) :
    (s.update index change).1.size = s.size := by
  cases hrow : s.rows[index]? with
  | none => rw [update_of_none hrow]
  | some row =>
    rw [update_of_some hrow]
    exact List.length_set

/-- An edit either keeps the number of rows or takes the verdict back. -/
theorem size_edit (s : Sheet) (schema : Schema) {change : Edit} (hreset : change ≠ .reset) :
    (∀ v, Editor.verdictAfter v change = .unchecked) ∨
      (s.edit schema change).1.size = s.size ∧ ∀ v, Editor.verdictAfter v change = v := by
  cases change with
  | add | remove => exact .inl fun _ => rfl
  | reset => exact absurd rfl hreset
  | clear | pointAt | compareBy | enter | select | joinBy =>
    exact .inr ⟨s.size_update _ _, fun _ => rfl⟩

theorem size_deliver (s : Sheet) (delivery : Delivery) :
    (s.deliver delivery).1.size = s.size := by
  generalize hlater : (s.deliver delivery).1 = later
  have heffect := s.effect_deliver delivery
  rw [hlater] at heffect
  cases heffect with
  | unchanged => rfl
  | adjusted => exact List.length_set
  | emptied _ _ only => exact absurd ((only _).mpr rfl) id
  | removed _ only => exact absurd ((only _).mpr rfl) id

end Sheet

namespace Editor

/-- The verdicts that may be reached on the text of an editor. -/
inductive Supports (e : Editor) : Verdict → Prop
  | unchecked : Supports e .unchecked
  | valid {f : Formula} (accepted : e.check = .ok f) : Supports e .valid
  | found {error : Formula.Error} (found : e.check = .error error) : Supports e (.invalid error)
  | refused {f : Formula} (mode : e.mode = .byFormula) (accepted : e.check = .ok f) :
      Supports e (.invalid (.conditions .refused))
  | incomplete {f : Formula} {number : Nat} (mode : e.mode = .byFormula)
      (accepted : e.check = .ok f) (inside : 1 ≤ number ∧ number ≤ e.sheet.size) :
      Supports e (.invalid (.conditions (.incomplete number)))

/-- Two editors with the same mode, formula text and number of rows. -/
structure SameSubject (e later : Editor) : Prop where
  mode : later.mode = e.mode
  text : later.formulaText = e.formulaText
  size : later.sheet.size = e.sheet.size

theorem SameSubject.refl (e : Editor) : e.SameSubject e := ⟨rfl, rfl, rfl⟩

theorem SameSubject.supports {e later : Editor} (h : e.SameSubject later) {verdict : Verdict}
    (hverdict : e.Supports verdict) : later.Supports verdict := by
  have hcheck : later.check = e.check := by
    unfold check
    rw [h.text, h.size]
  cases hverdict with
  | unchecked => exact .unchecked
  | valid accepted => exact .valid (hcheck.trans accepted)
  | found found => exact .found (hcheck.trans found)
  | refused mode accepted => exact .refused (h.mode.trans mode) (hcheck.trans accepted)
  | incomplete mode accepted inside =>
    refine .incomplete (h.mode.trans mode) (hcheck.trans accepted) ?_
    rw [h.size]
    exact inside

/-- What an action does to the verdict: it takes it back, or leaves its subject alone
and either keeps the verdict or reaches one that the subject supports. -/
inductive Judges (e : Editor) : Editor → Prop
  | withdrawn {later : Editor} (verdict : later.verdict = .unchecked) : Judges e later
  | kept {later : Editor} (same : e.SameSubject later) (verdict : later.verdict = e.verdict) :
      Judges e later
  | reached {later : Editor} (same : e.SameSubject later) (verdict : e.Supports later.verdict) :
      Judges e later

theorem judges_edit (e : Editor) (change : Edit) : e.Judges (e.perform (.edit change)).1 := by
  by_cases hreset : change = .reset
  · subst hreset
    exact .withdrawn rfl
  · rw [perform]
    cases hsheet : (e.sheet.edit e.schema change).2 with
    | error error =>
      rw [edit_of_error hreset hsheet]
      exact .kept (.refl e) rfl
    | ok request =>
      rw [edit_of_ok hreset hsheet]
      rcases e.sheet.size_edit e.schema hreset with hback | ⟨hsize, hkept⟩
      · exact .withdrawn (hback _)
      · exact .kept ⟨rfl, rfl, hsize⟩ (hkept _)

theorem judges_validate (e : Editor) : e.Judges e.validate := by
  unfold validate
  cases hcheck : e.check with
  | ok f => exact .reached ⟨rfl, rfl, rfl⟩ (.valid hcheck)
  | error error => exact .reached ⟨rfl, rfl, rfl⟩ (.found hcheck)

/-- A formula that has been checked mentions no row that is not there. -/
theorem inside_of_missing {e : Editor} {f : Formula} {fragment : Nat → Option String}
    {number : Nat} (hcheck : e.check = .ok f)
    (hmissing : Formula.firstMissing? fragment f.leaves = some number) :
    1 ≤ number ∧ number ≤ e.sheet.size := by
  have hleaf : number ∈ f.leaves := List.mem_of_find?_eq_some hmissing
  exact ((Formula.check_eq_ok_iff.mp hcheck).2 number).mp (Formula.mem_numbers.mpr hleaf)

theorem judges_produce (e : Editor) : e.Judges e.produce.1 := by
  by_cases hmode : e.mode = .byFormula
  · by_cases hcomplete : e.sheet.complete = []
    · rw [produce_of_complete_eq_nil hcomplete, if_pos hmode]
      exact .withdrawn rfl
    · cases hcheck : e.check with
      | error error =>
        rw [(produce_of_check_eq_error hmode hcomplete hcheck).1]
        exact .reached ⟨rfl, rfl, rfl⟩ (.found hcheck)
      | ok f =>
        cases hmissing : Formula.firstMissing? e.sheet.fragment? f.leaves with
        | some number =>
          rw [(produce_of_missing hmode hcomplete hcheck hmissing).1]
          have hinside := inside_of_missing hcheck hmissing
          exact .reached ⟨rfl, rfl, rfl⟩ (.incomplete hmode hcheck hinside)
        | none =>
          rw [(produce_of_fragments hmode hcomplete hcheck hmissing).1]
          exact .reached ⟨rfl, rfl, rfl⟩ (.valid hcheck)
  · have hsame : e.produce.1 = e := by
      unfold produce
      cases hjoined : e.mode with
      | throughout | byRow => rfl
      | byFormula => exact absurd hjoined hmode
    rw [hsame]
    exact .kept (.refl e) rfl

theorem judges_blame (e : Editor) : e.Judges e.blame.1 := by
  unfold blame
  split_ifs with hmode
  · cases hcheck : e.check with
    | ok f => exact .reached ⟨rfl, rfl, rfl⟩ (.refused hmode hcheck)
    | error error => exact .reached ⟨rfl, rfl, rfl⟩ (.found hcheck)
  · exact .kept (.refl e) rfl

/-- Every action treats the verdict in one of the three ways. -/
theorem judges (e : Editor) (action : Action) : e.Judges (e.perform action).1 := by
  cases action with
  | edit change => exact e.judges_edit change
  | deliver delivery => exact .kept ⟨rfl, rfl, e.sheet.size_deliver delivery⟩ rfl
  | setSchema schema => exact .withdrawn rfl
  | setMode mode =>
    simp only [perform, setMode]
    split_ifs
    · exact .kept (.refl e) rfl
    · exact .withdrawn rfl
  | setFormula text => exact .withdrawn rfl
  | validate => exact e.judges_validate
  | produce => exact e.judges_produce
  | blame => exact e.judges_blame
  | queryFailed message =>
    simp only [perform, queryFailed]
    split_ifs
    · exact e.judges_blame
    · exact .kept (.refl e) rfl

theorem Judges.supports {e later : Editor} (h : e.Judges later) (he : e.Supports e.verdict) :
    later.Supports later.verdict := by
  cases h with
  | withdrawn verdict =>
    rw [verdict]
    exact .unchecked
  | kept same verdict =>
    rw [verdict]
    exact same.supports he
  | reached same verdict => exact same.supports verdict

theorem supports_after (schema : Schema) (actions : List Action) :
    ((new schema).after actions).Supports ((new schema).after actions).verdict :=
  after_induction (P := fun e => e.Supports e.verdict)
    (fun e action he => (e.judges action).supports he) .unchecked actions

/-- Whatever has been done to an editor, a verdict that the text is valid holds of the
present text and rows, and so does an error of the text. An error of another kind is
raised only where a formula joins the rows and its text is in order, and names a row
that is there. -/
theorem verdict_of_run (schema : Schema) (actions : List Action) :
    let e := (new schema).after actions
    (e.verdict = .valid → ∃ f, e.check = .ok f) ∧
    (e.verdict = .invalid (.conditions .refused) → e.mode = .byFormula ∧ ∃ f, e.check = .ok f) ∧
    (∀ number, e.verdict = .invalid (.conditions (.incomplete number)) →
      e.mode = .byFormula ∧ (∃ f, e.check = .ok f) ∧ 1 ≤ number ∧ number ≤ e.sheet.size) ∧
    ∀ error, e.verdict = .invalid error → error ≠ .conditions .refused →
      (∀ number, error ≠ .conditions (.incomplete number)) → e.check = .error error := by
  intro e
  have hsupports : e.Supports e.verdict := supports_after schema actions
  refine ⟨?_, ?_, ?_, ?_⟩
  · intro h
    rw [h] at hsupports
    cases hsupports with
    | valid accepted => exact ⟨_, accepted⟩
  · intro h
    rw [h] at hsupports
    cases hsupports with
    | refused mode accepted => exact ⟨mode, _, accepted⟩
    -- a check of the text never blames it for a query
    | found found => exact absurd (Formula.isOfText_of_check found) id
  · intro number h
    rw [h] at hsupports
    cases hsupports with
    | incomplete mode accepted inside => exact ⟨mode, ⟨_, accepted⟩, inside⟩
    | found found => exact absurd (Formula.isOfText_of_check found) id
  · intro error h hrefused hincomplete
    rw [h] at hsupports
    cases hsupports with
    | found found => exact found
    | refused => exact absurd rfl hrefused
    | incomplete => exact absurd rfl (hincomplete _)

/-- Verdicts that outlast an edit, each on what it is about: a text that mentions a row
too many while a value is entered, a second row that states nothing while it is emptied,
and a valid text while the first row is emptied; and the blame for a refused query. -/
theorem verdict_of_run_two_rows :
    let schema : Schema := ⟨"Account", [⟨"Name", "Name", "String", []⟩]⟩
    let fill : List Action := [.edit (.pointAt 0 "Name"), .edit (.compareBy 0 .equal),
      .edit (.enter 0 "a"), .setMode .byFormula, .setFormula "1 OR 2"]
    let filled (rest : List Action) := (new schema).after (fill ++ rest)
    let short := filled [.validate, .edit (.enter 0 "b")]
    let produced := filled [.edit .add, .produce, .edit (.clear 1)]
    let blamed := filled [.edit .add, .validate, .blame]
    let valid := filled [.edit .add, .validate, .edit (.clear 0)]
    short.check = .error (.conditions (.unknownRow 2 1)) ∧
      (produced.mode = .byFormula ∧ (∃ f, produced.check = .ok f) ∧ 2 ≤ produced.sheet.size) ∧
      (blamed.mode = .byFormula ∧ ∃ f, blamed.check = .ok f) ∧ ∃ f, valid.check = .ok f := by
  intro schema fill filled short produced blamed valid
  have hrun (rest : List Action) := verdict_of_run schema (fill ++ rest)
  refine ⟨?_, ?_, ?_, ?_⟩
  · obtain ⟨-, -, -, h⟩ := hrun [.validate, .edit (.enter 0 "b")]
    exact h (.conditions (.unknownRow 2 1)) (by decide +kernel) (by simp) (by simp)
  · obtain ⟨-, -, h, -⟩ := hrun [.edit .add, .produce, .edit (.clear 1)]
    obtain ⟨hmode, hcheck, -, hinside⟩ := h 2 (by decide +kernel)
    exact ⟨hmode, hcheck, hinside⟩
  · obtain ⟨-, h, -, -⟩ := hrun [.edit .add, .validate, .blame]
    exact h (by decide +kernel)
  · obtain ⟨h, -, -, -⟩ := hrun [.edit .add, .validate, .edit (.clear 0)]
    exact h (by decide +kernel)

end Editor
end QueryFilter
