import QueryFilter.Proofs.Editor.Produce
import QueryFilter.Proofs.Session.Arrival

/-!
# What a session states

The condition of a session can be read off its saved rows, one by one and without an
editor: each row states a fragment or nothing, and the fragments are joined as the
session says. Restoring the rows in an editor and delivering the answers to its
requests comes to the same.
-/

namespace QueryFilter

/-! ### Reading the saved rows -/

namespace SavedRow

/-- Whether a field offers no values by itself and the session has values for it. -/
def Served (s : Session) (field : Field) (saved : SavedRow) : Prop :=
  field.choices = [] ∧ (s.values.find? saved.field).isSome = true

instance (s : Session) (field : Field) (saved : SavedRow) : Decidable (saved.Served s field) :=
  inferInstanceAs (Decidable (field.choices = [] ∧ (s.values.find? saved.field).isSome = true))

/-- The selection that a saved row stands for at a field: its own, or else the entries of
its value where the session serves the values. -/
def selection (s : Session) (field : Field) (saved : SavedRow) : List String :=
  if saved.selected ≠ [] then saved.selected
  else if saved.Served s field then Text.entries (saved.valueFor s.address)
  else []

/-- The fragment that a saved row with a comparison states at a field of some type, if
there is anything to compare with. -/
def readingAt (s : Session) (saved : SavedRow) (field : Field) (type : FieldType)
    (comparison : Comparison) : Option String :=
  let value := saved.valueFor s.address
  match type.shape with
  | .chosen =>
    let selection := saved.selection s field
    if value ≠ "" ∨ selection ≠ [] then
      some (Fragment.ofSelection saved.field (some comparison) selection)
    else none
  | .truth =>
    if value ≠ "" then some (Fragment.ofTruth saved.field (some comparison) value) else none
  | .single =>
    if value ≠ "" then
      some (if type.isQuoted then Fragment.ofText saved.field (some comparison) value
        else Fragment.verbatim saved.field (some comparison) value)
    else none

/-- The fragment that a saved row states. One without a field, a known type or a
comparison states nothing. -/
def reading (s : Session) (saved : SavedRow) : Option String :=
  if saved.field = "" then none
  else
    (s.schema.find? saved.field).bind fun field =>
      field.type?.bind fun type =>
        saved.comparison.bind fun comparison => saved.readingAt s field type comparison

theorem selection_of_served {s : Session} {field : Field} {saved : SavedRow}
    (h : saved.Served s field) :
    saved.selection s field =
      if saved.selected.isEmpty then Text.entries (saved.valueFor s.address)
      else saved.selected := by
  cases hselected : saved.selected <;> simp [selection, hselected, h]

theorem selection_of_not_served {s : Session} {field : Field} {saved : SavedRow}
    (h : ¬ saved.Served s field) : saved.selection s field = saved.selected := by
  cases hselected : saved.selected <;> simp [selection, hselected, h]

end SavedRow

/-- The fragment of a row, if the row is complete. -/
def Row.stated? (row : Row) : Option String :=
  if row.isComplete then some row.fragment else none

namespace Session

/-- The fragments that the rows of a session state, each with the joiner of its row. -/
def stated (s : Session) : List (Connective × String) :=
  s.rows.filterMap fun saved => (saved.reading s).map fun fragment => (saved.joiner, fragment)

/-- The fragment of the row at a position, counting from 1. -/
def fragmentAt (s : Session) : Nat → Option String
  | 0 => none
  | index + 1 => s.rows[index]?.bind (SavedRow.reading s)

/-- Fragments joined by the joiner of each but the first. -/
def joinEach : List (Connective × String) → String
  | [] => ""
  | first :: rest =>
    first.2 ++ String.join (rest.map fun part => " " ++ part.1.keyword ++ part.2)

/-- The condition that the rows of a session state together. -/
inductive States (s : Session) : Clause → Prop
  | nothing (none_stated : s.stated = []) : States s .empty
  | throughout {connective : Connective} (some_stated : s.stated ≠ [])
      (mode : s.mode = .throughout connective) :
      States s ⟨(" " ++ connective.keyword).intercalate (s.stated.map Prod.snd), true⟩
  | byRow (some_stated : s.stated ≠ []) (mode : s.mode = .byRow) :
      States s ⟨joinEach s.stated, true⟩
  | byFormula {f : Formula} {written : String} (some_stated : s.stated ≠ [])
      (mode : s.mode = .byFormula) (parsed : Formula.parse s.formulaText = .ok f)
      (numbers : ∀ n, n ∈ f.numbers ↔ 1 ≤ n ∧ n ≤ max 1 s.rows.length)
      (all_stated : ∀ saved ∈ s.rows, (saved.reading s).isSome = true)
      (filled : f.fill s.fragmentAt = .ok written) : States s ⟨" " ++ written, true⟩

theorem States.unique {s : Session} {first second : Clause} (h : s.States first)
    (h' : s.States second) : first = second := by
  cases h with
  | nothing hnone =>
    cases h' with
    | nothing _ => rfl
    | _ hsome => exact absurd hnone hsome
  | throughout hsome hmode =>
    cases h' with
    | nothing hnone => exact absurd hnone hsome
    | _ _ hmode' => simp_all
  | byRow hsome hmode =>
    cases h' with
    | nothing hnone => exact absurd hnone hsome
    | _ _ hmode' => simp_all
  | byFormula hsome hmode hparse hnumbers hall hfill =>
    cases h' with
    | nothing hnone => exact absurd hnone hsome
    | _ _ hmode' => simp_all

/-! ### Restored rows that have received their answers -/

/-- A restored row once the answer to its request has arrived. -/
def settle (s : Session) (row : Row) : Row :=
  match row.request? s.schema with
  | none => row
  | some request => row.take (s.values.answer request)

section Settle

variable {s : Session}

/-- Answers to the other requests do not concern a row. -/
theorem takeEach_restored {arrived : List Delivery} (harrived : ∀ d, d ∈ arrived ↔ d ∈ s.answers)
    {row : Row} (hrow : row ∈ s.restoredRows) : row.takeEach arrived = s.settle row := by
  unfold settle
  cases hrequest : row.request? s.schema with
  | some request =>
    have hanswer : s.values.answer request ∈ s.answers :=
      List.mem_map_of_mem (List.mem_filterMap.mpr ⟨row, hrow, hrequest⟩)
    exact Sheet.takeEach_eq_take s.nodup_stamp_answers harrived hanswer
      (Row.request?_eq_some hrequest).1
  | none =>
    apply Row.takeEach_of_absent
    intro d hd hstamp
    obtain ⟨request, hmem, rfl⟩ := List.mem_map.mp ((harrived d).mp hd)
    obtain ⟨other, hother, hrequest'⟩ := List.mem_filterMap.mp hmem
    have hbears : other.stamp = row.stamp := (Row.request?_eq_some hrequest').1.symm.trans hstamp
    have hsame : other = row :=
      List.inj_on_of_nodup_map s.nodup_id_restoredRows hother hrow (congrArg Stamp.id hbears)
    rw [hsame, hrequest] at hrequest'
    cases hrequest'

theorem settle_of_not_isPicklist {row : Row} (h : row.content.isPicklist = false) :
    s.settle row = row := by
  cases hrequest : row.request? s.schema with
  | none => simp only [settle, hrequest]
  | some request =>
    rw [(Row.request?_eq_some hrequest).2.2] at h
    cases h

theorem settle_restored_of_not_isPicklist {saved : SavedRow} (index : Nat)
    (h : (s.schema.content saved.field).isPicklist = false) :
    s.settle (saved.restored s.schema s.address index) =
      saved.restored s.schema s.address index :=
  settle_of_not_isPicklist ((Content.isPicklist_choose _ _).trans h)

section Picklist

variable {row : Row} {list : Picklist} (hlist : row.content = .picklist list)
include hlist

theorem settle_of_choices (h : list.choices ≠ []) : s.settle row = row := by
  have hrequest : row.request? s.schema = none := by simp [Row.request?, hlist, h]
  simp only [settle, hrequest]

/-- A picklist row without choices takes in the answer of the session. -/
theorem settle_of_no_choices (h : list.choices = []) :
    s.settle row = (s.values.find? row.field).elim row fun choices => row.receive choices := by
  have hrequest : row.request? s.schema = some ⟨row.stamp, s.schema.objectType, row.field⟩ := by
    simp [Row.request?, hlist, h]
  cases hvalues : s.values.find? row.field <;>
    simp [settle, hrequest, Row.take, ValueTable.answer, Request.answer, hvalues]

end Picklist

/-- A picklist row is left with the selection that its saved row stands for. -/
theorem settle_restored_picklist {saved : SavedRow} {field : Field} {loaded : Bool} (index : Nat)
    (hcontent : s.schema.content saved.field = .picklist ⟨field.choices, [], loaded⟩) :
    ∃ list, list.selected = saved.selection s field ∧
      s.settle (saved.restored s.schema s.address index) =
        { saved.restored s.schema s.address index with content := .picklist list } := by
  have hrow : (saved.restored s.schema s.address index).content =
      .picklist ⟨field.choices, saved.selected, loaded⟩ := by
    cases hselected : saved.selected <;>
      simp [SavedRow.restored, hcontent, hselected, Content.choose]
  have hvalue : (saved.restored s.schema s.address index).value = saved.valueFor s.address := by
    simp [SavedRow.restored, hcontent, Content.type?]
  have hfield : (saved.restored s.schema s.address index).field = saved.field := rfl
  generalize saved.restored s.schema s.address index = row at *
  by_cases hserved : saved.Served s field
  · obtain ⟨choices, hvalues⟩ := Option.isSome_iff_exists.mp hserved.2
    refine ⟨⟨choices, saved.selection s field, true⟩, rfl, ?_⟩
    rw [settle_of_no_choices hrow hserved.1, hfield, hvalues, Option.elim_some,
      SavedRow.selection_of_served hserved]
    simp only [Row.receive, hrow, hvalue]
  · have hkept : s.settle row = row := by
      by_cases hchoices : field.choices = []
      · have hnone : s.values.find? row.field = none := by
          rw [hfield, ← Option.not_isSome_iff_eq_none]
          exact fun hsome => hserved ⟨hchoices, hsome⟩
        rw [settle_of_no_choices hrow hchoices, hnone, Option.elim_none]
      · exact settle_of_choices hrow hchoices
    refine ⟨⟨field.choices, saved.selected, loaded⟩, ?_, ?_⟩
    · rw [SavedRow.selection_of_not_served hserved]
    · rw [hkept, ← hrow]

theorem content_eq {name : String} {field : Field} (h : s.schema.find? name = some field) :
    s.schema.content name = Content.ofField field := by
  simp [Schema.content, h]

theorem stated?_eq (row : Row) :
    row.stated? =
      if row.field = "" then none
      else row.comparison.bind fun _ =>
        if row.value ≠ "" ∨ row.content.selected ≠ [] then some row.fragment else none := by
  unfold Row.stated? Row.isComplete
  by_cases hfield : row.field = ""
  · simp [hfield]
  · cases hcomparison : row.comparison with
    | none => simp
    | some comparison => simp [hfield]

/-- A row whose field is not known states nothing. -/
theorem stated?_settle_of_unknown {saved : SavedRow} (index : Nat)
    (h : s.schema.content saved.field = .unresolved) :
    (s.settle (saved.restored s.schema s.address index)).stated? = none := by
  have hlist : (s.schema.content saved.field).isPicklist = false := by rw [h]; rfl
  rw [settle_restored_of_not_isPicklist index hlist, stated?_eq]
  simp [SavedRow.restored, h, Content.type?]

/-- What a row holds in the end that is restored at a field of a known type. -/
structure Keeps (s : Session) (saved : SavedRow) (field : Field) (type : FieldType) (row : Row) :
    Prop where
  name : row.field = saved.field
  comparison : row.comparison = saved.comparison
  value : row.value = saved.valueFor s.address
  content : match type.shape with
    | .single => row.content = .single type
    | .truth => row.content = .truth
    | .chosen => ∃ list, row.content = .picklist list ∧ list.selected = saved.selection s field

theorem keeps_settle {saved : SavedRow} (index : Nat) {field : Field} {type : FieldType}
    (hfield : s.schema.find? saved.field = some field) (htype : field.type? = some type) :
    s.Keeps saved field type (s.settle (saved.restored s.schema s.address index)) := by
  have hcontent := content_eq hfield
  unfold Content.ofField at hcontent
  rw [htype] at hcontent
  cases hshape : type.shape with
  | single =>
    simp only [hshape] at hcontent
    rw [settle_restored_of_not_isPicklist index (by rw [hcontent]; rfl)]
    constructor <;> simp [SavedRow.restored, hcontent, hshape, Content.type?, Content.choose]
  | truth =>
    simp only [hshape] at hcontent
    rw [settle_restored_of_not_isPicklist index (by rw [hcontent]; rfl)]
    constructor <;> simp [SavedRow.restored, hcontent, hshape, Content.type?, Content.choose]
  | chosen =>
    simp only [hshape] at hcontent
    obtain ⟨list, hselected, hsettle⟩ := settle_restored_picklist index hcontent
    rw [hsettle]
    constructor <;> simp [SavedRow.restored, hcontent, hshape, hselected, Content.type?]

theorem Keeps.stated?_eq {saved : SavedRow} {field : Field} {type : FieldType} {row : Row}
    (h : s.Keeps saved field type row) :
    row.stated? =
      if saved.field = "" then none
      else saved.comparison.bind fun comparison => saved.readingAt s field type comparison := by
  have hcontent := h.content
  rw [Session.stated?_eq, h.name, h.comparison, h.value]
  by_cases hname : saved.field = ""
  · simp [hname]
  · cases hcomparison : saved.comparison with
    | none => simp
    | some comparison =>
      have hrow := h.comparison.trans hcomparison
      simp only [hname, if_false, Option.bind_some, SavedRow.readingAt]
      cases hshape : type.shape with
      | single =>
        rw [hshape] at hcontent
        simp [Row.fragment, hcontent, hrow, h.name, h.value, Content.selected]
      | truth =>
        rw [hshape] at hcontent
        simp [Row.fragment, hcontent, hrow, h.name, h.value, Content.selected]
      | chosen =>
        rw [hshape] at hcontent
        obtain ⟨list, hlist, hselected⟩ := hcontent
        simp [Row.fragment, hlist, hrow, h.name, hselected, Content.selected]

/-- A restored row that has received its answer states what the saved row does. -/
theorem stated?_settle (saved : SavedRow) (index : Nat) :
    (s.settle (saved.restored s.schema s.address index)).stated? = saved.reading s := by
  unfold SavedRow.reading
  cases hfield : s.schema.find? saved.field with
  | none =>
    rw [stated?_settle_of_unknown index (by simp [Schema.content, hfield])]
    simp
  | some field =>
    cases htype : field.type? with
    | none =>
      rw [stated?_settle_of_unknown index (by simp [content_eq hfield, Content.ofField, htype])]
      simp [htype]
    | some type =>
      rw [(keeps_settle index hfield htype).stated?_eq]
      simp [htype]

theorem joiner_settle (row : Row) : (s.settle row).joiner = row.joiner := by
  have htake (answer : Delivery) : (row.take answer).joiner = row.joiner := by
    unfold Row.take Row.receive
    split_ifs
    · split
      · split <;> rfl
      · rfl
    · rfl
  unfold settle
  split
  · rfl
  · exact htake _

end Settle

/-! ### The sheet once all answers have arrived -/

section Sheet

variable {s : Session} {arrived : List Delivery} (harrived : ∀ d, d ∈ arrived ↔ d ∈ s.answers)
include harrived

theorem sheetAfter_of_rows_eq_nil (h : s.rows = []) : s.sheetAfter arrived = .new := by
  have hnone : arrived = [] := by
    apply List.eq_nil_iff_forall_not_mem.mpr
    intro d hd
    simpa [answers, requests, restoredRows, h] using (harrived d).mp hd
  simp [sheetAfter, hnone, restoredRows, h, Sheet.deliverEach, Sheet.holding]

theorem rows_sheetAfter (h : s.rows ≠ []) :
    (s.sheetAfter arrived).rows =
      s.rows.mapIdx fun index saved => s.settle (saved.restored s.schema s.address index) := by
  have hholding : (Sheet.holding s.restoredRows).rows = s.restoredRows := by
    simp [Sheet.holding, restoredRows, h]
  rw [sheetAfter, Sheet.deliverEach_fst s.distinct_restored, hholding,
    List.map_congr_left fun row hrow => takeEach_restored harrived hrow]
  apply List.ext_getElem?
  intro index
  simp [restoredRows, Function.comp_def]

end Sheet

/-- The complete rows are those that state a fragment. -/
theorem map_complete (t : Sheet) :
    t.complete.map (fun row => (row.joiner, row.fragment)) =
      t.rows.filterMap fun row => row.stated?.map fun fragment => (row.joiner, fragment) := by
  unfold Sheet.complete
  induction t.rows with
  | nil => rfl
  | cons row rest ih =>
    by_cases hcomplete : row.isComplete = true
    · simp [hcomplete, Row.stated?, ih]
    · simp [hcomplete, Row.stated?, ih]

theorem filterMap_mapIdx {α β γ : Type} {f : Nat → α → β} {g : β → Option γ} {g' : α → Option γ}
    (h : ∀ index a, g (f index a) = g' a) (l : List α) :
    (l.mapIdx f).filterMap g = l.filterMap g' := by
  induction l generalizing f with
  | nil => rfl
  | cons a rest ih =>
    rw [List.mapIdx_cons, List.filterMap_cons, List.filterMap_cons, h 0 a,
      ih fun index => h (index + 1)]

theorem map_complete_sheetAfter {s : Session} {arrived : List Delivery}
    (harrived : ∀ d, d ∈ arrived ↔ d ∈ s.answers) :
    (s.sheetAfter arrived).complete.map (fun row => (row.joiner, row.fragment)) = s.stated := by
  rw [map_complete]
  by_cases h : s.rows = []
  · rw [sheetAfter_of_rows_eq_nil harrived h, stated, h]
    rfl
  · rw [rows_sheetAfter harrived h]
    refine filterMap_mapIdx (fun index saved => ?_) s.rows
    rw [stated?_settle, joiner_settle]
    rfl

theorem fragment?_sheetAfter {s : Session} {arrived : List Delivery}
    (harrived : ∀ d, d ∈ arrived ↔ d ∈ s.answers) (hs : (s.sheetAfter arrived).InOrder)
    (h : s.rows ≠ []) : (s.sheetAfter arrived).fragment? = s.fragmentAt := by
  funext number
  rw [Sheet.fragment?_eq hs, Sheet.completeRow?]
  cases number with
  | zero => rfl
  | succ index =>
    rw [Sheet.row?, rows_sheetAfter harrived h, List.getElem?_mapIdx, fragmentAt]
    cases s.rows[index]? with
    | none => rfl
    | some saved =>
      rw [Option.bind_some, ← stated?_settle saved index, Option.map_some, Row.stated?]
      cases hcomplete : (s.settle (saved.restored s.schema s.address index)).isComplete with
      | true => simp [Option.filter, hcomplete]
      | false => simp [Option.filter, hcomplete]

theorem inOrder_deliverEach {t : Sheet} (ht : t.InOrder) (arrived : List Delivery) :
    (t.deliverEach arrived).1.InOrder := by
  induction arrived generalizing t with
  | nil => exact ht
  | cons first rest ih => exact ih ((t.step_deliver first).inOrder ht)

theorem inOrder_sheetAfter {s : Session} (hfits : s.rows.all (SavedRow.fits s.schema) = true)
    (arrived : List Delivery) : (s.sheetAfter arrived).InOrder :=
  inOrder_deliverEach (s.inOrder_restored hfits) arrived

/-! ### Compiled sessions -/

theorem produce_of_conclude {s : Session} {e : Editor} {compiled : Compiled}
    (h : (s.conclude e).result = .ok compiled) :
    ((e.setMode s.mode).setFormula s.formulaText).produce.2 = .ok compiled.clause := by
  simp only [conclude, Report.result_bind, Report.result_ofExcept] at h
  cases hmade : ((e.setMode s.mode).setFormula s.formulaText).produce.2 with
  | error error => simp [hmade, Except.mapError, Except.bind] at h
  | ok clause =>
    simp only [hmade, Except.mapError, Except.bind] at h
    cases htext : (s.query clause).text with
    | error error => simp [htext] at h
    | ok text =>
      simp only [htext, Report.result_pure, Except.ok.injEq] at h
      rw [← h]

/-- The rows that an editor joins are the stated ones. -/
structure Mirrors (s : Session) (e : Editor) : Prop where
  mode : e.mode = s.mode
  text : e.formulaText = s.formulaText
  size : e.sheet.size = max 1 s.rows.length
  complete : e.sheet.complete.map (fun row => (row.joiner, row.fragment)) = s.stated
  fragment : s.rows ≠ [] → e.sheet.fragment? = s.fragmentAt

section Mirrors

variable {s : Session} {e : Editor}

theorem mirrors_of_arrived {arrived : List Delivery} (harrived : ∀ d, d ∈ arrived ↔ d ∈ s.answers)
    (hfits : s.rows.all (SavedRow.fits s.schema) = true)
    (hsheet : e.sheet = s.sheetAfter arrived) :
    s.Mirrors ((e.setMode s.mode).setFormula s.formulaText) := by
  have hkept : ((e.setMode s.mode).setFormula s.formulaText).sheet = s.sheetAfter arrived :=
    (e.sheet_setMode s.mode).trans hsheet
  constructor
  · exact e.mode_setMode s.mode
  · rfl
  · rw [hkept, Sheet.size]
    by_cases h : s.rows = []
    · rw [sheetAfter_of_rows_eq_nil harrived h, h]
      rfl
    · have hpos := List.length_pos_of_ne_nil h
      rw [rows_sheetAfter harrived h, List.length_mapIdx]
      omega
  · rw [hkept, map_complete_sheetAfter harrived]
  · intro h
    rw [hkept, fragment?_sheetAfter harrived (inOrder_sheetAfter hfits arrived) h]

theorem Mirrors.complete_eq_nil_iff (h : s.Mirrors e) : e.sheet.complete = [] ↔ s.stated = [] := by
  rw [← h.complete, List.map_eq_nil_iff]

theorem joinFragments_eq_joinEach (rows : List Row) :
    Sheet.joinFragments (fun row => " " ++ row.joiner.keyword) rows =
      joinEach (rows.map fun row => (row.joiner, row.fragment)) := by
  cases rows with
  | nil => rfl
  | cons first rest => simp [Sheet.joinFragments, joinEach, Function.comp_def]

/-- A formula about the rows that can be filled in mentions each row, so each has a fragment. -/
theorem Mirrors.states_of_formula (h : s.Mirrors e) (hstated : s.stated ≠ [])
    (hmode : s.mode = .byFormula) {clause : Clause} (hmade : e.produce.2 = .ok clause) :
    s.States clause := by
  have hrows : s.rows ≠ [] := by
    intro hnone
    exact hstated (by simp [stated, hnone])
  have hcomplete : e.sheet.complete ≠ [] := fun hnil => hstated (h.complete_eq_nil_iff.mp hnil)
  obtain ⟨f, hcheck, hmissing, rfl⟩ :=
    Editor.exists_of_produce_eq_ok (h.mode.trans hmode) hcomplete hmade
  obtain ⟨hparse, hnumbers⟩ := Formula.check_eq_ok_iff.mp hcheck
  rw [h.text] at hparse
  rw [h.size] at hnumbers
  rw [h.fragment hrows] at hmissing ⊢
  refine .byFormula hstated hmode hparse hnumbers ?_ ?_
  · intro saved hsaved
    obtain ⟨index, hindex⟩ := List.mem_iff_getElem?.mp hsaved
    have hlt := (List.getElem?_eq_some_iff.mp hindex).1
    have hleaf : index + 1 ∈ f.leaves := Formula.mem_numbers.mp ((hnumbers _).mpr (by omega))
    have hsome := Formula.firstMissing?_eq_none_iff.mp hmissing _ hleaf
    simpa [fragmentAt, hindex] using hsome
  · exact Formula.fill_eq_ok_iff.mpr ⟨Formula.firstMissing?_eq_none_iff.mp hmissing, rfl⟩

theorem Mirrors.states (h : s.Mirrors e) {clause : Clause} (hmade : e.produce.2 = .ok clause) :
    s.States clause := by
  by_cases hcomplete : e.sheet.complete = []
  · rw [Editor.produce_of_complete_eq_nil hcomplete] at hmade
    cases hmade
    exact .nothing (h.complete_eq_nil_iff.mp hcomplete)
  · have hstated : s.stated ≠ [] := fun hnil => hcomplete (h.complete_eq_nil_iff.mpr hnil)
    cases hmode : s.mode with
    | throughout connective =>
      have hbody : s.stated.map Prod.snd = e.sheet.complete.map Row.fragment := by
        rw [← h.complete, List.map_map]
        rfl
      simp only [Editor.produce, h.mode.trans hmode, Sheet.clause_throughout hcomplete,
        ← Sheet.intercalate_fragments, ← hbody] at hmade
      cases hmade
      exact .throughout hstated hmode
    | byRow =>
      simp only [Editor.produce, h.mode.trans hmode, Sheet.clause_byRow hcomplete,
        joinFragments_eq_joinEach, h.complete] at hmade
      cases hmade
      exact .byRow hstated hmode
    | byFormula => exact h.states_of_formula hstated hmode hmade

end Mirrors

/-- Whichever order the answers arrive in, a session that compiles has the condition
that its saved rows state, read one by one. -/
theorem compile_eq_reading (s : Session) (arrange : List Delivery → List Delivery)
    (compiled : Compiled) (harrange : ∀ ds d, d ∈ arrange ds ↔ d ∈ ds)
    (hcompiled : (s.compileArriving arrange).result = .ok compiled) :
    ∀ clause, s.States clause ↔ clause = compiled.clause := by
  rw [result_compileArriving] at hcompiled
  split_ifs at hcompiled with hfits
  have hsheet : { Editor.new s.schema with sheet := s.sheetAfter (arrange s.answers) }.sheet =
    s.sheetAfter (arrange s.answers) := rfl
  have hmirrors := mirrors_of_arrived (harrange s.answers) hfits hsheet
  have hstates := hmirrors.states (produce_of_conclude hcompiled)
  intro clause
  constructor
  · intro h
    exact h.unique hstates
  · rintro rfl
    exact hstates

/-- One row takes the country of the user, one the entries of its value, and one is of
an unknown type. -/
theorem compile_eq_reading_three_rows :
    let fields : List Field := [⟨"Country", "Country", "String", []⟩,
      ⟨"Type", "Type", "Picklist", []⟩, ⟨"Area", "Area", "Geolocation", []⟩]
    let rows : List SavedRow := [⟨"Country", some .equal, "US", [], .and, some .country⟩,
      ⟨"Area", some .equal, "1", [], .and, none⟩, ⟨"Type", some .notEqual, "a, b", [], .or, none⟩]
    let table : ValueTable := .ofEntries [("Type", [])]
    let session : Session := ⟨"Account", fields, table, rows, .byRow, "", ["Type"], none, none,
      ⟨none, some "FR", none⟩⟩
    let clause : Clause := ⟨" Country = 'FR' OR Type NOT IN ('a', 'b')", true⟩
    session.States clause ∧ ∀ other, session.States other → other = clause := by
  intro fields rows table session clause
  have hcompiled : (session.compileArriving List.reverse).result =
      .ok ⟨clause, "SELECT Id, Name, Type FROM Account WHERE " ++
        "Country = 'FR' OR Type NOT IN ('a', 'b') LIMIT 5000"⟩ := by decide +kernel
  have h := compile_eq_reading session List.reverse _ (fun _ _ => List.mem_reverse) hcompiled
  exact ⟨(h clause).mpr rfl, fun other hother => (h other).mp hother⟩

end Session
end QueryFilter
