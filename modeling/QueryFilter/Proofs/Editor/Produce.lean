import QueryFilter.Proofs.Editor.Run
import QueryFilter.Proofs.Formula.Check
import QueryFilter.Proofs.Sheet.Body

/-!
# What an editor produces

A condition is produced from the complete rows alone, and none of them makes it
empty in every mode. Where a formula joins the rows, a condition is produced exactly
when the text is a formula about the rows and every row is complete, since such a
formula mentions them all. Producing is the same as giving the body of the formula
text, changes nothing but the verdict, and may be repeated.
-/

namespace QueryFilter
namespace Editor

variable {e : Editor}

/-! ### Where no formula joins the rows -/

theorem produce_of_complete_eq_nil (h : e.sheet.complete = []) :
    e.produce =
      ({ e with verdict := if e.mode = .byFormula then .unchecked else e.verdict }, .ok .empty) := by
  cases hmode : e.mode with
  | throughout connective =>
    simp only [produce, hmode, Sheet.clause_of_complete_eq_nil h, reduceCtorEq, if_false]
    rw [← hmode]
  | byRow =>
    simp only [produce, hmode, Sheet.clause_of_complete_eq_nil h, reduceCtorEq, if_false]
    rw [← hmode]
  | byFormula => simp [produce, hmode, produceByFormula, h]

theorem produce_of_joined (hmode : e.mode ≠ .byFormula) (h : e.sheet.complete ≠ []) :
    ∃ body, body ≠ "" ∧ e.produce = (e, .ok ⟨body, true⟩) := by
  cases hjoined : e.mode with
  | throughout connective =>
    refine ⟨_, Sheet.joinFragments_ne_empty h fun _ => " " ++ connective.keyword, ?_⟩
    simp only [produce, hjoined, Sheet.clause_throughout h]
  | byRow =>
    refine ⟨_, Sheet.joinFragments_ne_empty h fun row => " " ++ row.joiner.keyword, ?_⟩
    simp only [produce, hjoined, Sheet.clause_byRow h]
  | byFormula => exact absurd hjoined hmode

/-! ### Where a formula joins the rows -/

section ByFormula

variable (hmode : e.mode = .byFormula) (h : e.sheet.complete ≠ [])
include hmode h

theorem produce_of_check_eq_error {error : Formula.Error} (hcheck : e.check = .error error) :
    e.produce = ({ e with verdict := .invalid error }, .error error) ∧
      e.sheet.formulaBody e.formulaText = .error error := by
  have hcheck' : Formula.check e.formulaText e.sheet.size = .error error := hcheck
  constructor
  · simp [produce, hmode, produceByFormula, h, hcheck, Except.bind]
  · simp [Sheet.formulaBody, h, hcheck']

theorem produce_of_missing {f : Formula} (hcheck : e.check = .ok f)
    {number : Nat} (hmissing : Formula.firstMissing? e.sheet.fragment? f.leaves = some number) :
    e.produce = ({ e with verdict := .invalid (.conditions (.incomplete number)) },
        .error (.conditions (.incomplete number))) ∧
      e.sheet.formulaBody e.formulaText = .error (.conditions (.incomplete number)) := by
  have hcheck' : Formula.check e.formulaText e.sheet.size = .ok f := hcheck
  have hflaw := Formula.numbersFlaw?_eq_none_iff.mpr (Formula.check_eq_ok_iff.mp hcheck').2
  have hclause := Sheet.clause_byFormula_of_missing h hflaw hmissing
  constructor
  · simp [produce, hmode, produceByFormula, h, hcheck, Except.bind, hclause]
  · simp [Sheet.formulaBody, h, hcheck', hclause, Except.map]

theorem produce_of_fragments {f : Formula} (hcheck : e.check = .ok f)
    (hmissing : Formula.firstMissing? e.sheet.fragment? f.leaves = none) :
    let body := " " ++ Formula.textOf e.sheet.fragment? f.segments
    e.produce = ({ e with verdict := .valid }, .ok ⟨body, true⟩) ∧
      e.sheet.formulaBody e.formulaText = .ok body := by
  have hcheck' : Formula.check e.formulaText e.sheet.size = .ok f := hcheck
  have hflaw := Formula.numbersFlaw?_eq_none_iff.mpr (Formula.check_eq_ok_iff.mp hcheck').2
  have hclause := Sheet.clause_byFormula h hflaw hmissing
  constructor
  · simp [produce, hmode, produceByFormula, h, hcheck, Except.bind, hclause]
  · simp [Sheet.formulaBody, h, hcheck', hclause, Except.map]

theorem exists_of_produce_eq_ok {clause : Clause} (hok : e.produce.2 = .ok clause) :
    ∃ f, e.check = .ok f ∧ Formula.firstMissing? e.sheet.fragment? f.leaves = none ∧
      clause = ⟨" " ++ Formula.textOf e.sheet.fragment? f.segments, true⟩ := by
  cases hcheck : e.check with
  | error error =>
    rw [(produce_of_check_eq_error hmode h hcheck).1] at hok
    cases hok
  | ok f =>
    cases hmissing : Formula.firstMissing? e.sheet.fragment? f.leaves with
    | some number =>
      rw [(produce_of_missing hmode h hcheck hmissing).1] at hok
      cases hok
    | none =>
      rw [(produce_of_fragments hmode h hcheck hmissing).1] at hok
      cases hok
      exact ⟨f, rfl, hmissing, rfl⟩

end ByFormula

/-- What the editor produces is what the body of the formula text says: a condition
exactly if the text is a formula about the rows and all of them are complete, and
otherwise the flaw of the text or else the first row mentioned that is incomplete. -/
structure FollowsFormula (e : Editor) : Prop where
  ok_iff : ∀ clause, e.produce.2 = .ok clause ↔
    clause.isConditional = true ∧ e.sheet.formulaBody e.formulaText = .ok clause.body
  ok_iff_complete : (∃ clause, e.produce.2 = .ok clause) ↔
    (∃ f, e.check = .ok f) ∧ ∀ row ∈ e.sheet.rows, row.isComplete = true
  valid : ∀ clause, e.produce.2 = .ok clause → e.produce.1.verdict = .valid
  error_iff : ∀ error, e.produce.2 = .error error ↔
    e.sheet.formulaBody e.formulaText = .error error
  invalid : ∀ error, e.produce.2 = .error error → e.produce.1.verdict = .invalid error
  first_error : ∀ error, e.produce.2 = .error error →
    e.check = .error error ∨ ∃ f number, e.check = .ok f ∧
      f.leaves.find? (fun leaf => (e.sheet.completeRow? leaf).isNone) = some number ∧
      error = .conditions (.incomplete number)

theorem followsFormula (hs : e.sheet.InOrder) (hmode : e.mode = .byFormula)
    (h : e.sheet.complete ≠ []) : e.FollowsFormula := by
  cases hcheck : e.check with
  | error error =>
    obtain ⟨hmade, htext⟩ := produce_of_check_eq_error hmode h hcheck
    constructor <;> simp [hmade, htext, hcheck]
  | ok f =>
    have hnumbers := (Formula.check_eq_ok_iff.mp hcheck).2
    have hcomplete := Sheet.firstMissing?_eq_none_iff hs hnumbers
    cases hmissing : Formula.firstMissing? e.sheet.fragment? f.leaves with
    | some number =>
      obtain ⟨hmade, htext⟩ := produce_of_missing hmode h hcheck hmissing
      have hincomplete : ¬ ∀ row ∈ e.sheet.rows, row.isComplete = true := by
        rw [← hcomplete, hmissing]
        simp
      rw [Sheet.firstMissing?_fragment? hs] at hmissing
      constructor <;> simp [hmade, htext, hcheck, hincomplete, hmissing]
    | none =>
      obtain ⟨hmade, htext⟩ := produce_of_fragments hmode h hcheck hmissing
      constructor
      · intro clause
        cases clause
        simp [hmade, htext, and_comm, eq_comm]
      · simpa [hmade, hcheck] using hcomplete.mp hmissing
      · simp [hmade]
      · simp [hmade, htext]
      · simp [hmade]
      · simp [hmade]

/-! ### Runs -/

/-- Producing leaves everything but the verdict as it is. -/
theorem produce_fst (e : Editor) : e.produce.1 = { e with verdict := e.produce.1.verdict } := by
  unfold produce produceByFormula
  split
  · rfl
  · rfl
  · split_ifs
    · rfl
    · split <;> rfl

theorem produce_again (e : Editor) : e.produce.1.produce = e.produce := by
  cases hmode : e.mode with
  | throughout connective => simp only [produce, hmode]
  | byRow => simp only [produce, hmode]
  | byFormula =>
    -- what a formula gives does not depend on the verdict, which is set anew
    have hverdict (verdict : Verdict) : { e with verdict := verdict }.produce = e.produce := by
      cases e
      cases hmode
      rfl
    rw [produce_fst, hverdict]

/-- Every editor that actions lead to produces the empty condition if no row is
complete, and otherwise a condition that says something where no formula joins the
rows, or else what the formula text says. Only the verdict changes, and producing
again gives the same. -/
theorem produce_of_run (schema : Schema) (actions : List Action) :
    let e := (new schema).after actions
    let made := e.produce
    made.1 = { e with verdict := made.1.verdict } ∧
    made.1.produce = made ∧
    (e.sheet.complete = [] →
      made.2 = .ok .empty ∧
      made.1.verdict = if e.mode = .byFormula then .unchecked else e.verdict) ∧
    (e.sheet.complete ≠ [] → e.mode ≠ .byFormula →
      made.1.verdict = e.verdict ∧ ∃ body, body ≠ "" ∧ made.2 = .ok ⟨body, true⟩) ∧
    (e.sheet.complete ≠ [] → e.mode = .byFormula → e.FollowsFormula) := by
  intro e made
  refine ⟨e.produce_fst, e.produce_again, ?_, ?_, ?_⟩
  · intro h
    rw [show made = _ from produce_of_complete_eq_nil h]
    exact ⟨rfl, rfl⟩
  · intro h hmode
    obtain ⟨body, hbody, hmade⟩ := produce_of_joined hmode h
    rw [show made = _ from hmade]
    exact ⟨rfl, body, hbody, rfl⟩
  · intro h hmode
    exact followsFormula (inOrder_after schema actions) hmode h

/-- A formula mentions two rows, and at first the second one has no value. -/
theorem produce_of_run_two_rows :
    let schema : Schema := ⟨"Account", [⟨"Name", "Name", "String", []⟩]⟩
    let row (index : Nat) : List Action :=
      [.edit (.pointAt index "Name"), .edit (.compareBy index .equal)]
    let actions : List Action := row 0 ++ [.edit (.enter 0 "a"), .edit .add] ++ row 1 ++
      [.setMode .byFormula, .setFormula "2 OR 1"]
    let later : List Action := actions ++ [.edit (.enter 1 "b")]
    (((new schema).after actions).produce.1.verdict = .invalid (.conditions (.incomplete 2)) ∧
      ¬ ∃ clause, ((new schema).after actions).produce.2 = .ok clause) ∧
    ((new schema).after later).produce.2 = .ok ⟨" Name = 'b' OR Name = 'a'", true⟩ ∧
      ((new schema).after later).produce.1.verdict = .valid := by
  intro schema row actions later
  obtain ⟨-, -, -, -, h⟩ := produce_of_run schema actions
  obtain ⟨-, -, -, -, hlater⟩ := produce_of_run schema later
  have hfirst := h (by decide +kernel) (by decide +kernel)
  have hsecond := hlater (by decide +kernel) (by decide +kernel)
  have hmade := (hsecond.ok_iff ⟨" Name = 'b' OR Name = 'a'", true⟩).mpr
    ⟨rfl, by decide +kernel⟩
  refine ⟨⟨hfirst.invalid _ (by decide +kernel), fun hclause => ?_⟩, hmade,
    hsecond.valid _ hmade⟩
  exact absurd (hfirst.ok_iff_complete.mp hclause).2 (by decide +kernel)

end Editor
end QueryFilter
