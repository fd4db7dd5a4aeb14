import QueryFilter.Proofs.Session.Reading
import QueryFilter.Proofs.Session.Refusal
import QueryFilter.Proofs.Sheet.Completeness

/-!
# How sessions fail to compile

There are three ways, one after another: a saved row is refused, the formula does not
hold for the rows, or the query lacks an object type or columns. Which of them it is can
be told from the saved rows and from which of the restored ones are complete. The
answers have no part in it, since no answer completes a row.
-/

namespace QueryFilter

namespace Sheet

variable {s : Sheet}

theorem size_deliverEach (hs : s.Distinct) (answers : List Delivery) :
    (s.deliverEach answers).1.size = s.size := by
  rw [deliverEach_fst hs]
  exact List.length_map _

/-- A formula text fails where it is no formula about the rows, or one of them is incomplete. -/
theorem exists_formulaBody_eq_error_iff (hs : s.InOrder) (h : s.complete ≠ []) (text : String) :
    (∃ error, s.formulaBody text = .error error) ↔
      ¬ ((∃ f, Formula.check text s.size = .ok f) ∧ ∀ row ∈ s.rows, row.isComplete = true) := by
  let e : Editor := { Editor.new ⟨"", []⟩ with sheet := s, mode := .byFormula, formulaText := text }
  have hfollows : e.FollowsFormula := Editor.followsFormula hs rfl h
  have hcomplete : (∃ clause, e.produce.2 = .ok clause) ↔
      (∃ f, Formula.check text s.size = .ok f) ∧ ∀ row ∈ s.rows, row.isComplete = true :=
    hfollows.ok_iff_complete
  have herror (error : Formula.Error) :
      e.produce.2 = .error error ↔ s.formulaBody text = .error error := hfollows.error_iff error
  rw [← hcomplete]
  simp only [← herror]
  cases e.produce.2 <;> simp

end Sheet

namespace Session

/-- The saved row at an index is refused with an error. -/
def Refused (s : Session) (index : Nat) (error : EditError) : Prop :=
  ∃ saved, s.rows[index]? = some saved ∧ saved.Refusal s.schema index error

/-- The formula of a session is to join the rows of a sheet, and does not hold for them. -/
def Flawed (s : Session) (sheet : Sheet) : Prop :=
  s.mode = .byFormula ∧ (∃ row ∈ sheet.rows, row.isComplete = true) ∧
    ∃ error, sheet.formulaBody s.formulaText = .error error

/-- The query of a session lacks an object type or columns. -/
def Lacking (s : Session) : Prop :=
  s.objectType = "" ∨ s.columns = []

variable {s : Session}

/-- Answers do not mend a formula, and do not spoil one. -/
theorem flawed_deliverEach {sheet : Sheet} (hdistinct : sheet.Distinct) (hs : sheet.InOrder)
    (arrived : List Delivery) : s.Flawed (sheet.deliverEach arrived).1 ↔ s.Flawed sheet := by
  have hrows : (sheet.deliverEach arrived).1.rows = sheet.rows.map (Row.takeEach arrived) := by
    rw [Sheet.deliverEach_fst hdistinct]
  have hsome : (∃ row ∈ (sheet.deliverEach arrived).1.rows, row.isComplete = true) ↔
      ∃ row ∈ sheet.rows, row.isComplete = true := by simp [hrows]
  have hall : (∀ row ∈ (sheet.deliverEach arrived).1.rows, row.isComplete = true) ↔
      ∀ row ∈ sheet.rows, row.isComplete = true := by simp [hrows]
  unfold Flawed
  rw [hsome]
  -- the bodies may differ, but whether there is one depends on size and completeness alone
  refine and_congr_right fun _ => and_congr_right fun h => ?_
  rw [Sheet.exists_formulaBody_eq_error_iff hs (Sheet.complete_ne_nil_iff.mpr h),
    Sheet.exists_formulaBody_eq_error_iff (inOrder_deliverEach hs arrived)
      (Sheet.complete_ne_nil_iff.mpr (hsome.mpr h)),
    Sheet.size_deliverEach hdistinct, hall]

theorem exists_produce_eq_error_iff {e : Editor} (hs : e.sheet.InOrder) (hmode : e.mode = s.mode)
    (htext : e.formulaText = s.formulaText) :
    (∃ error, e.produce.2 = .error error) ↔ s.Flawed e.sheet := by
  by_cases hcomplete : e.sheet.complete = []
  · have hnone : ¬ ∃ row ∈ e.sheet.rows, row.isComplete = true :=
      mt Sheet.complete_ne_nil_iff.mpr (not_not_intro hcomplete)
    simp [Editor.produce_of_complete_eq_nil hcomplete, Flawed, hnone]
  · have hsome := Sheet.complete_ne_nil_iff.mp hcomplete
    by_cases hformula : e.mode = .byFormula
    · have hfollows := Editor.followsFormula hs hformula hcomplete
      simp only [hfollows.error_iff, htext, Flawed, ← hmode, hformula, hsome, true_and]
    · obtain ⟨body, -, hmade⟩ := Editor.produce_of_joined hformula hcomplete
      simp [hmade, Flawed, ← hmode, hformula]

theorem exists_text_eq_error_iff (clause : Clause) :
    (∃ error, (s.query clause).text = .error error) ↔ s.Lacking := by
  unfold Query.text Lacking
  simp only [query, Query.orderedBy, List.isEmpty_iff]
  split_ifs with htype hcolumns <;> simp [*]

/-- How a session comes out whose rows are in a sheet: it fails for its formula, or else
for its query, or compiles. -/
structure Concludes (s : Session) (sheet : Sheet) (result : Except Failure Compiled) : Prop where
  validation : result = .error .validation ↔ s.Flawed sheet
  build : result = .error .build ↔ ¬ s.Flawed sheet ∧ s.Lacking
  ok : (∃ compiled, result = .ok compiled) ↔ ¬ s.Flawed sheet ∧ ¬ s.Lacking

theorem Concludes.congr {sheet other : Sheet} {result : Except Failure Compiled}
    (h : s.Concludes sheet result) (hflawed : s.Flawed sheet ↔ s.Flawed other) :
    s.Concludes other result where
  validation := h.validation.trans hflawed
  build := by rw [h.build, hflawed]
  ok := by rw [h.ok, hflawed]

theorem Concludes.result_ne_input {sheet : Sheet} {result : Except Failure Compiled}
    (h : s.Concludes sheet result) : result ≠ .error .input := by
  rintro rfl
  obtain ⟨hvalidation, hbuild, hok⟩ := h
  simp only [reduceCtorEq, Except.error.injEq] at hvalidation hbuild hok
  tauto

theorem concludes {e : Editor} (hs : e.sheet.InOrder) :
    s.Concludes e.sheet (s.conclude e).result := by
  have hsheet : ((e.setMode s.mode).setFormula s.formulaText).sheet = e.sheet :=
    e.sheet_setMode s.mode
  have hmode : ((e.setMode s.mode).setFormula s.formulaText).mode = s.mode :=
    e.mode_setMode s.mode
  have hflawed := exists_produce_eq_error_iff (hsheet.symm ▸ hs) hmode rfl
  rw [hsheet] at hflawed
  have hresult : (s.conclude e).result =
      (((e.setMode s.mode).setFormula s.formulaText).produce.2.mapError fun _ =>
        Failure.validation).bind fun clause =>
          ((s.query clause).text.mapError fun _ => .build).bind fun text =>
            .ok ⟨clause, text⟩ := by
    simp only [conclude, Report.result_bind, Report.result_ofExcept, Report.result_pure]
  rw [hresult]
  cases hmade : ((e.setMode s.mode).setFormula s.formulaText).produce.2 with
  | error error =>
    have h : s.Flawed e.sheet := hflawed.mp ⟨error, hmade⟩
    constructor <;> simp [h, Except.mapError, Except.bind]
  | ok clause =>
    have h : ¬ s.Flawed e.sheet := by
      rw [← hflawed, hmade]
      simp
    have hlacking : (∃ error, (s.query clause).text = .error error) ↔ s.Lacking :=
      exists_text_eq_error_iff clause
    cases htext : (s.query clause).text with
    | error error =>
      have hlacks : s.Lacking := hlacking.mp ⟨error, htext⟩
      constructor <;> simp [h, hlacks, htext, Except.mapError, Except.bind]
    | ok text =>
      have hlacks : ¬ s.Lacking := by
        rw [← hlacking, htext]
        simp
      constructor <;> simp [h, hlacks, htext, Except.mapError, Except.bind]

theorem size_holding (rows : List Row) : (Sheet.holding rows).size = max 1 rows.length := by
  cases rows with
  | nil => rfl
  | cons first rest => simp [Sheet.holding, Sheet.size]

theorem getElem?_holding {rows : List Row} {index : Nat} {row : Row}
    (h : rows[index]? = some row) : (Sheet.holding rows).rows[index]? = some row := by
  cases rows with
  | nil => cases h
  | cons first rest => exact h

theorem exists_refused_iff :
    (∃ index error, s.Refused index error) ↔ s.rows.all (SavedRow.fits s.schema) = false := by
  rw [List.all_eq_false]
  constructor
  · rintro ⟨index, error, saved, hsaved, hrefusal⟩
    have hfits := (SavedRow.exists_refusal_iff index).mp ⟨error, hrefusal⟩
    exact ⟨saved, List.mem_of_getElem? hsaved, by simp [hfits]⟩
  · rintro ⟨saved, hmem, hfits⟩
    obtain ⟨index, hsaved⟩ := List.mem_iff_getElem?.mp hmem
    obtain ⟨error, hrefusal⟩ := (SavedRow.exists_refusal_iff index).mpr (by simpa using hfits)
    exact ⟨index, error, saved, hsaved, hrefusal⟩

/-- A session whose saved rows fit comes out as any answers to its restored rows have it. -/
theorem concludes_of_fits (hfits : s.rows.all (SavedRow.fits s.schema) = true)
    (arrange : List Delivery → List Delivery) (arrived : List Delivery) :
    s.Concludes ((Sheet.holding s.restoredRows).deliverEach arrived).1
      (s.compileArriving arrange).result := by
  have hrestored := s.inOrder_restored hfits
  rw [result_compileArriving, if_pos hfits]
  refine (concludes (inOrder_sheetAfter hfits (arrange s.answers))).congr ?_
  exact (flawed_deliverEach s.distinct_restored hrestored (arrange s.answers)).trans
    (flawed_deliverEach s.distinct_restored hrestored arrived).symm

theorem result_eq_input_iff (arrange : List Delivery → List Delivery) :
    (s.compileArriving arrange).result = .error .input ↔
      s.rows.all (SavedRow.fits s.schema) = false := by
  cases hfits : s.rows.all (SavedRow.fits s.schema) with
  | false => simp [result_compileArriving, hfits]
  | true => exact iff_of_false (concludes_of_fits hfits arrange []).result_ne_input (by decide)

/-- A session fails on its input exactly if a saved row does not fit, and then it says why
that row is refused: for its comparison or its selection. Otherwise there is a row for
each saved one, and whatever answers arrive it fails for its formula or else for its
query, or compiles. -/
theorem failures_of_compile (s : Session) (arrange : List Delivery → List Delivery) :
    let compiled := (s.compileArriving arrange).result
    (compiled = .error .input ↔ ∃ index error, s.Refused index error) ∧
    (compiled ≠ .error .input → ∃ e requests, s.restore.result = .ok (e, requests) ∧
      e.sheet.size = max 1 s.rows.length ∧
      (∀ (index : Nat) (saved : SavedRow), s.rows[index]? = some saved →
        e.sheet.rows[index]? = some (saved.restored s.schema s.address index)) ∧
      ∀ arrived, s.Concludes (e.sheet.deliverEach arrived).1 compiled) ∧
    s.restore.Restores fun index error => s.Refused index error ∧
      (∀ asked rowCount, error ≠ .noSuchRow asked rowCount) ∧
      ∀ asked, error ≠ .unresolvedField asked := by
  intro compiled
  refine ⟨?input, fun h => ?others, ?refusals⟩
  case input => exact (result_eq_input_iff arrange).trans exists_refused_iff.symm
  case others =>
    have hfits : s.rows.all (SavedRow.fits s.schema) = true :=
      Bool.eq_true_of_not_eq_false (mt (result_eq_input_iff arrange).mpr h)
    have hlength : s.restoredRows.length = s.rows.length := List.length_mapIdx
    refine ⟨editorOf s.schema s.restoredRows, s.requests, ?_, ?_, ?_, concludes_of_fits hfits arrange⟩
    · rw [result_restore, if_pos hfits]
    · rw [← hlength]
      exact size_holding s.restoredRows
    · intro index saved hsaved
      apply getElem?_holding
      rw [getElem?_restoredRows, hsaved, Option.map_some]
  case refusals =>
    refine s.restores_restore.imp fun index error hrefused => ⟨hrefused, ?_⟩
    obtain ⟨saved, -, hrefusal⟩ := hrefused
    cases hrefusal <;> simp

/-- A text that is asked for a selection, a formula about a row of an unknown field, a query
without columns, and a session that compiles. -/
theorem failures_of_compile_two_rows :
    let session (selected : List String) (mode : JoinMode) (columns : List String) : Session :=
      ⟨"Account", [⟨"Name", "Name", "String", []⟩], .ofEntries [],
        [⟨"Name", some .equal, "a", selected, .and, none⟩, ⟨"Area", none, "1", [], .or, none⟩],
        mode, "1 AND 2", columns, none, none, .empty⟩
    (session ["a"] .byRow ["Name"]).compile.result = .error .input ∧
      (session [] .byFormula ["Name"]).compile.result = .error .validation ∧
      (session [] .byRow []).compile.result = .error .build ∧
      ∃ compiled, (session [] .byRow ["Name"]).compile.result = .ok compiled := by
  intro session
  have htyped : Field.type? ⟨"Name", "Name", "String", []⟩ = some .string := by decide +kernel
  have hrefused : (session ["a"] .byRow ["Name"]).Refused 0 (.notSelectable 0) :=
    ⟨_, rfl, .selection rfl htyped (by decide) (by decide)⟩
  have hrestored : (session [] .byFormula ["Name"]).restore.result =
      .ok (editorOf ⟨"Account", [⟨"Name", "Name", "String", []⟩]⟩
        [⟨0, 1, 1, "Name", some .equal, "a", .and, .single .string⟩,
          ⟨1, 1, 2, "Area", none, "", .or, .unresolved⟩], []) := by decide +kernel
  refine ⟨(failures_of_compile _ id).1.mpr ⟨0, _, hrefused⟩, ?formula, ?columns, ?compiled⟩
  case formula =>
    obtain ⟨e, requests, hrestore, -, -, h⟩ :=
      (failures_of_compile (session [] .byFormula ["Name"]) id).2.1 (by decide +kernel)
    rw [hrestored] at hrestore
    cases hrestore
    exact (h []).validation.mpr
      ⟨rfl, by decide +kernel, .conditions (.incomplete 2), by decide +kernel⟩
  case columns =>
    obtain ⟨e, requests, -, -, -, h⟩ :=
      (failures_of_compile (session [] .byRow []) id).2.1 (by decide +kernel)
    exact (h []).build.mpr ⟨fun hflawed => absurd hflawed.1 (by decide), .inr rfl⟩
  case compiled =>
    obtain ⟨e, requests, -, -, -, h⟩ :=
      (failures_of_compile (session [] .byRow ["Name"]) id).2.1 (by decide +kernel)
    exact (h []).ok.mpr ⟨fun hflawed => absurd hflawed.1 (by decide),
      fun hlacking => absurd hlacking (by simp [Lacking, session])⟩

end Session
end QueryFilter
