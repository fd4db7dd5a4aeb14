import QueryFilter.Proofs.Sheet.Quotation

/-!
# The literals of a condition

The body of a condition has parts like those of its rows: what a row quotes stands in
literals, and the words and parentheses between the rows have no quotes. So a scan of
the body ends outside literals and finds the values of the rows in order, and what is
outside the literals does not depend on what the values say.
-/

namespace QueryFilter

open Text (Part HasParts plain values mask)

namespace Formula

/-- A part of a formula's text has no quote in it. -/
def Segment.QuoteFree : Segment → Prop
  | words text => '\'' ∉ text.toList
  | row _ => True

theorem quoteFree_segments (f : Formula) : ∀ s ∈ f.segments, s.QuoteFree := by
  intro s hs
  cases s with
  | row number => trivial
  | words text =>
    have hquoteFree : ∀ text ∈ wordsOfFormulas, '\'' ∉ text.toList := by decide
    exact hquoteFree text (words_mem_segments f hs)

end Formula

/-! ### Sheets -/

namespace Sheet

/-- Whether no complete row has a quote in what is written as it is. -/
def QuoteFree (s : Sheet) : Prop :=
  ∀ row ∈ s.complete, row.QuoteFree

/-- The rows whose conditions an arrangement states, in the order of the body. -/
def stated (s : Sheet) : Arrangement → List Row
  | .throughout _ | .byRow => s.complete
  | .byFormula f => f.leaves.filterMap s.completeRow?

/-- The parts of rows that are joined, each after the first led by a word. -/
def joinParts (lead : Row → String) : List Row → List Part
  | [] => []
  | first :: rest => first.parts ++ rest.flatMap fun row => plain (lead row) ++ row.parts

/-- The parts of a formula's segment where the rows of a sheet are filled in. -/
def segmentParts (s : Sheet) : Formula.Segment → List Part
  | .words text => plain text
  | .row number => ((s.completeRow? number).elim [] Row.parts).dropWhile Part.isBlank

/-- The parts of the body that an arrangement gives. -/
def parts (s : Sheet) : Arrangement → List Part
  | .throughout connective => joinParts (fun _ => " " ++ connective.keyword) s.complete
  | .byRow => joinParts (fun row => " " ++ row.joiner.keyword) s.complete
  | .byFormula f =>
    if s.complete.isEmpty then [] else plain " " ++ f.segments.flatMap s.segmentParts

section Scan

variable {s : Sheet}

theorem hasParts_row (hs : s.InOrder) (hfree : s.QuoteFree) {row : Row}
    (hrow : row ∈ s.complete) : HasParts row.fragment row.parts := by
  obtain ⟨hmem, hcomplete⟩ := List.mem_filter.mp hrow
  exact Row.hasParts_fragment (hfree row hrow) (hs.consistent row hmem) hcomplete

theorem hasParts_joinFragments {lead : Row → String} (hlead : ∀ row, '\'' ∉ (lead row).toList)
    {rows : List Row} (h : ∀ row ∈ rows, HasParts row.fragment row.parts) :
    HasParts (joinFragments lead rows) (joinParts lead rows) := by
  cases rows with
  | nil => rfl
  | cons first rest =>
    rw [List.forall_mem_cons] at h
    refine h.1.append (.join fun row hrow => ?_)
    exact (HasParts.of_plain (hlead row)).append (h.2 row hrow)

theorem hasParts_segment (hs : s.InOrder) (hfree : s.QuoteFree) {segment : Formula.Segment}
    (hsegment : segment.QuoteFree) :
    HasParts (segment.text s.fragment?) (s.segmentParts segment) := by
  cases segment with
  | words text => exact .of_plain hsegment
  | row number =>
    refine HasParts.trimStart ?_
    rw [fragment?_eq hs]
    cases hrow : s.completeRow? number with
    | none => rfl
    | some row => exact hasParts_row hs hfree ((completeRow?_eq_some_iff hs).mp hrow).1

theorem quote_notMem_keyword (connective : Connective) :
    '\'' ∉ (" " ++ connective.keyword).toList := by
  cases connective <;> decide

/-- The body of a condition is scanned as its parts. -/
theorem hasParts_clause (hs : s.InOrder) (hfree : s.QuoteFree) {arrangement : Arrangement}
    {clause : Clause} (h : s.clause arrangement = .ok clause) :
    HasParts clause.body (s.parts arrangement) := by
  have hjoined {lead : Row → String} (hlead : ∀ row, '\'' ∉ (lead row).toList) :=
    hasParts_joinFragments hlead fun row (hrow : row ∈ s.complete) => hasParts_row hs hfree hrow
  by_cases hnone : s.complete = []
  · rw [clause_of_complete_eq_nil hnone] at h
    cases h
    cases arrangement <;> simp [parts, hnone, joinParts, Clause.empty, HasParts]
  · cases arrangement with
    | throughout connective =>
      rw [clause_throughout hnone] at h
      cases h
      exact hjoined fun _ => quote_notMem_keyword connective
    | byRow =>
      rw [clause_byRow hnone] at h
      cases h
      exact hjoined fun row => quote_notMem_keyword row.joiner
    | byFormula f =>
      obtain rfl := clause_byFormula_eq_ok hnone h
      have hsegments : HasParts (Formula.textOf s.fragment? f.segments)
          (f.segments.flatMap s.segmentParts) :=
        .join fun segment hsegment =>
          hasParts_segment hs hfree (f.quoteFree_segments segment hsegment)
      simpa [parts, hnone] using (HasParts.of_plain (by decide : '\'' ∉ " ".toList)).append hsegments

end Scan

/-! ### What the parts are -/

theorem values_joinParts (lead : Row → String) (rows : List Row) :
    values (joinParts lead rows) = rows.flatMap Row.quoted := by
  cases rows with
  | nil => rfl
  | cons first rest => simp [joinParts, Row.values_parts, Text.values_flatMap]

theorem values_segmentParts (s : Sheet) (segments : List Formula.Segment) :
    values (segments.flatMap s.segmentParts) =
      ((segments.filterMap Formula.Segment.number?).filterMap s.completeRow?).flatMap
        Row.quoted := by
  induction segments with
  | nil => rfl
  | cons segment rest ih =>
    rw [List.flatMap_cons, Text.values_append, ih]
    cases segment with
    | words text => simp [segmentParts, List.filterMap_cons, Formula.Segment.number?]
    | row number =>
      cases hrow : s.completeRow? number with
      | none => simp [segmentParts, Formula.Segment.number?, hrow]
      | some row =>
        simp [segmentParts, Formula.Segment.number?, hrow, Text.values_dropWhile,
          Row.values_parts]

/-- The literals of a body are the values that the rows stated in it quote. -/
theorem values_parts {s : Sheet} (hs : s.InOrder) (arrangement : Arrangement) :
    values (s.parts arrangement) = (s.stated arrangement).flatMap Row.quoted := by
  cases arrangement with
  | throughout connective => exact values_joinParts _ _
  | byRow => exact values_joinParts _ _
  | byFormula f =>
    by_cases hnone : s.complete = []
    · have hno : ∀ number, s.completeRow? number = none := fun number => by
        rw [Option.eq_none_iff_forall_ne_some]
        intro row hrow
        simpa [hnone] using ((completeRow?_eq_some_iff hs).mp hrow).1
      simp [parts, stated, hnone, hno]
    · simp [parts, stated, hnone, values_segmentParts, Formula.filterMap_number?_segments]

/-! ### Sheets that differ in what they quote -/

/-- Whether the rows of two sheets differ in nothing but texts and selected values. -/
def DifferInQuoted (s t : Sheet) : Prop :=
  s.rows.map Row.emptied = t.rows.map Row.emptied

/-- Whether the same rows of two sheets are complete. -/
def CompleteAlike (s t : Sheet) : Prop :=
  s.rows.map Row.isComplete = t.rows.map Row.isComplete

instance (s : Sheet) : Decidable s.QuoteFree :=
  inferInstanceAs (Decidable (∀ row ∈ s.complete, row.QuoteFree))

instance (s t : Sheet) : Decidable (s.DifferInQuoted t) :=
  inferInstanceAs (Decidable (s.rows.map Row.emptied = t.rows.map Row.emptied))

instance (s t : Sheet) : Decidable (s.CompleteAlike t) :=
  inferInstanceAs (Decidable (s.rows.map Row.isComplete = t.rows.map Row.isComplete))

theorem joiner_emptied (row : Row) : row.emptied.joiner = row.joiner := by
  unfold Row.emptied
  split
  · split_ifs <;> rfl
  · rfl
  · rfl

theorem mask_joinParts_emptied {lead : Row → String} (hlead : ∀ row, lead row.emptied = lead row)
    (rows : List Row) :
    mask (joinParts lead (rows.map Row.emptied)) = mask (joinParts lead rows) := by
  cases rows with
  | nil => rfl
  | cons first rest =>
    simp [joinParts, Row.mask_parts_emptied, Text.mask_flatMap, List.flatMap_map, hlead]

theorem map_filter_of_map_eq {rows later : List Row}
    (hrows : rows.map Row.emptied = later.map Row.emptied)
    (hcomplete : rows.map Row.isComplete = later.map Row.isComplete) :
    (rows.filter Row.isComplete).map Row.emptied =
      (later.filter Row.isComplete).map Row.emptied := by
  induction rows generalizing later with
  | nil =>
    obtain rfl : later = [] := by simpa using hrows.symm
    rfl
  | cons row rows ih =>
    cases later with
    | nil => cases hrows
    | cons row' later =>
      obtain ⟨hrow, hrows⟩ := List.cons.inj hrows
      obtain ⟨hrow', hcomplete⟩ := List.cons.inj hcomplete
      rw [List.filter_cons, List.filter_cons, hrow']
      split_ifs
      · rw [List.map_cons, List.map_cons, hrow, ih hrows hcomplete]
      · exact ih hrows hcomplete

section Differ

variable {s t : Sheet} (hform : s.DifferInQuoted t) (hcomplete : s.CompleteAlike t)
include hform hcomplete

theorem map_emptied_completeRow? (number : Nat) :
    (s.completeRow? number).map Row.emptied = (t.completeRow? number).map Row.emptied := by
  unfold completeRow? row?
  cases number with
  | zero => rfl
  | succ index =>
    have hrow : (s.rows[index]?).map Row.emptied = (t.rows[index]?).map Row.emptied := by
      rw [← List.getElem?_map, ← List.getElem?_map, hform]
    have hsame : (s.rows[index]?).map Row.isComplete = (t.rows[index]?).map Row.isComplete := by
      rw [← List.getElem?_map, ← List.getElem?_map, hcomplete]
    cases hs : s.rows[index]? <;> cases ht : t.rows[index]? <;>
      simp_all [Option.filter]

theorem mask_segmentParts_eq (segment : Formula.Segment) :
    mask (s.segmentParts segment) = mask (t.segmentParts segment) := by
  cases segment with
  | words text => rfl
  | row number =>
    have hrow := map_emptied_completeRow? hform hcomplete number
    unfold segmentParts
    rw [Text.mask_dropWhile, Text.mask_dropWhile]
    cases hs : s.completeRow? number <;> cases ht : t.completeRow? number <;>
      simp_all
    rw [← Row.mask_parts_emptied, hrow, Row.mask_parts_emptied]

theorem mask_parts_eq (arrangement : Arrangement) :
    mask (s.parts arrangement) = mask (t.parts arrangement) := by
  have hrows : s.complete.map Row.emptied = t.complete.map Row.emptied :=
    map_filter_of_map_eq hform hcomplete
  have hjoined {lead : Row → String} (hlead : ∀ row, lead row.emptied = lead row) :
      mask (joinParts lead s.complete) = mask (joinParts lead t.complete) := by
    rw [← mask_joinParts_emptied hlead, hrows, mask_joinParts_emptied hlead]
  cases arrangement with
  | throughout connective => exact hjoined fun _ => rfl
  | byRow => exact hjoined fun row => by rw [joiner_emptied]
  | byFormula f =>
    have hempty : s.complete.isEmpty = t.complete.isEmpty := by
      rw [← List.isEmpty_map (f := Row.emptied), hrows, List.isEmpty_map]
    unfold parts
    rw [hempty]
    split_ifs
    · rfl
    · rw [Text.mask_append, Text.mask_append, Text.mask_flatMap, Text.mask_flatMap]
      simp only [mask_segmentParts_eq hform hcomplete]

end Differ

/-- Along every run from a new sheet, whatever the edits, schemas and deliveries, a
body whose rows have no quotes outside literals ends outside literals, and its
literals are the values of the rows stated in it. Other texts and other selected
values of the same number leave what is outside the literals as it is, as long as
they leave the same rows complete. -/
theorem literals_of_run :
    (∀ events arrangement clause,
      (new.after events).QuoteFree → (new.after events).clause arrangement = .ok clause →
      ∃ parts, HasParts clause.body parts ∧
        values parts = ((new.after events).stated arrangement).flatMap Row.quoted) ∧
    ∀ events events' arrangement clause clause',
      (new.after events).QuoteFree → (new.after events').QuoteFree →
      (new.after events).DifferInQuoted (new.after events') →
      (new.after events).CompleteAlike (new.after events') →
      (new.after events).clause arrangement = .ok clause →
      (new.after events').clause arrangement = .ok clause' →
      ∃ parts parts', HasParts clause.body parts ∧ HasParts clause'.body parts' ∧
        mask parts = mask parts' := by
  refine ⟨?_, ?_⟩
  · intro events arrangement clause hfree hclause
    have horder := inOrder_new.after events
    exact ⟨_, hasParts_clause horder hfree hclause, values_parts horder arrangement⟩
  · intro events events' arrangement clause clause' hfree hfree' hform hcomplete hclause hclause'
    exact ⟨_, _, hasParts_clause (inOrder_new.after events) hfree hclause,
      hasParts_clause (inOrder_new.after events') hfree' hclause',
      mask_parts_eq hform hcomplete arrangement⟩

/-- A formula states the second row and then the negation of the first. Quotes and
backslashes in the values stay in their literals. -/
theorem literals_of_run_two_rows :
    let schema : Schema :=
      ⟨"Account", [⟨"Name", "Name", "String", []⟩, ⟨"Type", "Type", "Picklist", []⟩]⟩
    let events (value : String) (selected : List String) : List Event :=
      [.pointAt 0 "Name", .compareBy 0 .like, .enter 0 value, .add, .pointAt 1 "Type",
        .compareBy 1 .notEqual, .select 1 selected].map (Event.edit schema)
    let arrangement : Arrangement := .byFormula (.all [.row 2, .not (.row 1)])
    let s := new.after (events "' OR 1\\" ["a'b", "\\"])
    let t := new.after (events "x" ["a", "b"])
    let clause : Clause :=
      ⟨" Type NOT IN ('a\\'b', '\\\\') AND NOT Name LIKE '%\\' OR 1\\\\%'", true⟩
    let clause' : Clause := ⟨" Type NOT IN ('a', 'b') AND NOT Name LIKE '%x%'", true⟩
    (s.QuoteFree ∧ t.QuoteFree ∧ s.DifferInQuoted t ∧ s.CompleteAlike t ∧
      s.clause arrangement = .ok clause ∧ t.clause arrangement = .ok clause') ∧
    (∃ parts, HasParts clause.body parts ∧ values parts = ["a'b", "\\", "%' OR 1\\%"]) ∧
    ∃ parts parts', HasParts clause.body parts ∧ HasParts clause'.body parts' ∧
      mask parts = mask parts' := by
  intro schema events arrangement s t clause clause'
  have hfree : s.QuoteFree := by decide +kernel
  have hfree' : t.QuoteFree := by decide +kernel
  have hform : s.DifferInQuoted t := by decide +kernel
  have hcomplete : s.CompleteAlike t := by decide +kernel
  have hclause : s.clause arrangement = .ok clause := by decide +kernel
  have hclause' : t.clause arrangement = .ok clause' := by decide +kernel
  refine ⟨⟨hfree, hfree', hform, hcomplete, hclause, hclause'⟩, ?_, ?_⟩
  · obtain ⟨parts, hparts, hvalues⟩ := literals_of_run.1 _ arrangement clause hfree hclause
    exact ⟨parts, hparts, hvalues.trans (by decide +kernel)⟩
  · exact literals_of_run.2 _ _ arrangement clause clause' hfree hfree' hform hcomplete hclause
      hclause'

/-- A row whose text is emptied states no condition any more, and what stood outside
its literal goes with it. -/
theorem outside_changes_with_emptied_text :
    let schema : Schema := ⟨"Account", [⟨"Name", "Name", "String", []⟩]⟩
    let events (value : String) : List Event :=
      [.pointAt 0 "Name", .compareBy 0 .equal, .enter 0 value].map (Event.edit schema)
    let s := new.after (events "x")
    let t := new.after (events "")
    s.QuoteFree ∧ t.QuoteFree ∧ s.DifferInQuoted t ∧
      s.clause (.throughout .and) = .ok ⟨" Name = 'x'", true⟩ ∧
      t.clause (.throughout .and) = .ok ⟨"", false⟩ ∧
      ∀ parts parts', HasParts " Name = 'x'" parts → HasParts "" parts' →
        (mask parts).reduceOption = " Name = ".toList ∧ (mask parts').reduceOption = [] := by
  intro schema events s t
  refine ⟨by decide +kernel, by decide +kernel, by decide +kernel, by decide +kernel,
    by decide +kernel, ?_⟩
  intro parts parts' hparts hparts'
  have hmask : HasParts " Name = 'x'" (plain " Name = " ++ [.literal "x"]) := by decide +kernel
  rw [hparts.unique hmask, hparts'.unique (rfl : HasParts "" [])]
  exact ⟨by decide, rfl⟩

end Sheet
end QueryFilter
