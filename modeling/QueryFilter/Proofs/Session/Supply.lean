import QueryFilter.Proofs.Session.Reading

/-!
# Where the values of a picklist come from

What a session compiles to depends on its fields and its values only through whether
each saved row fits and what it reads as. Values may therefore move from the table of
a session to the field itself as long as no saved value waits for them: a value is
taken apart into a selection when values arrive, and a field that brings its own
never asks for any.
-/

namespace QueryFilter

/-! ### What a condition depends on -/

namespace Editor

/-- Editors that join the same fragments in the same way. -/
structure Alike (e e' : Editor) : Prop where
  mode : e.mode = e'.mode
  text : e.formulaText = e'.formulaText
  size : e.sheet.size = e'.sheet.size
  complete : e.sheet.complete.map (fun row => (row.joiner, row.fragment)) =
    e'.sheet.complete.map fun row => (row.joiner, row.fragment)
  fragment : e.sheet.complete ≠ [] → e.sheet.fragment? = e'.sheet.fragment?

namespace Alike

variable {e e' : Editor} (h : e.Alike e')
include h

theorem complete_eq_nil_iff : e.sheet.complete = [] ↔ e'.sheet.complete = [] := by
  rw [← List.map_eq_nil_iff, h.complete, List.map_eq_nil_iff]

theorem fragments : e.sheet.complete.map Row.fragment = e'.sheet.complete.map Row.fragment := by
  have hparts := congrArg (List.map Prod.snd) h.complete
  rwa [List.map_map, List.map_map] at hparts

theorem check_eq : e.check = e'.check := by
  rw [check, check, h.text, h.size]

theorem produce_of_formula (hmode : e.mode = .byFormula) (hsome : e.sheet.complete ≠ []) :
    e.produce.2 = e'.produce.2 := by
  have hmode' : e'.mode = .byFormula := h.mode.symm.trans hmode
  have hsome' : e'.sheet.complete ≠ [] := mt h.complete_eq_nil_iff.mpr hsome
  have hfragment := h.fragment hsome
  cases hcheck : e.check with
  | error error =>
    have hcheck' := h.check_eq.symm.trans hcheck
    rw [(produce_of_check_eq_error hmode hsome hcheck).1,
      (produce_of_check_eq_error hmode' hsome' hcheck').1]
  | ok f =>
    have hcheck' := h.check_eq.symm.trans hcheck
    cases hmissing : Formula.firstMissing? e.sheet.fragment? f.leaves with
    | some number =>
      rw [(produce_of_missing hmode hsome hcheck hmissing).1,
        (produce_of_missing hmode' hsome' hcheck' (hfragment ▸ hmissing)).1]
    | none =>
      rw [(produce_of_fragments hmode hsome hcheck hmissing).1,
        (produce_of_fragments hmode' hsome' hcheck' (hfragment ▸ hmissing)).1, hfragment]

/-- Editors that join the same fragments in the same way produce the same condition. -/
theorem produce_eq : e.produce.2 = e'.produce.2 := by
  by_cases hnone : e.sheet.complete = []
  · rw [produce_of_complete_eq_nil hnone,
      produce_of_complete_eq_nil (h.complete_eq_nil_iff.mp hnone)]
  · have hsome' : e'.sheet.complete ≠ [] := mt h.complete_eq_nil_iff.mpr hnone
    cases hmode : e.mode with
    | throughout connective =>
      simp only [produce, ← h.mode, hmode, Sheet.clause_throughout hnone,
        Sheet.clause_throughout hsome', ← Sheet.intercalate_fragments, h.fragments]
    | byRow =>
      simp only [produce, ← h.mode, hmode, Sheet.clause_byRow hnone, Sheet.clause_byRow hsome',
        Session.joinFragments_eq_joinEach, h.complete]
    | byFormula => exact h.produce_of_formula hmode hnone

end Alike
end Editor

/-! ### What a session compiles to depends on -/

namespace Session

theorem Mirrors.alike {s s' : Session} {e e' : Editor} (h : s.Mirrors e) (h' : s'.Mirrors e')
    (hmode : s.mode = s'.mode) (htext : s.formulaText = s'.formulaText)
    (hlength : s.rows.length = s'.rows.length) (hstated : s.stated = s'.stated)
    (hfragment : s.fragmentAt = s'.fragmentAt) : e.Alike e' := by
  constructor
  · rw [h.mode, h'.mode, hmode]
  · rw [h.text, h'.text, htext]
  · rw [h.size, h'.size, hlength]
  · rw [h.complete, h'.complete, hstated]
  · intro hsome
    have hrows : s.rows ≠ [] := by
      intro hnil
      exact hsome (h.complete_eq_nil_iff.mpr (by simp [stated, hnil]))
    have hrows' : s'.rows ≠ [] := by
      rw [← List.length_pos_iff, ← hlength, List.length_pos_iff]
      exact hrows
    rw [h.fragment hrows, h'.fragment hrows', hfragment]

/-- A session with other fields and other values. -/
def supplied (s : Session) (fields : List Field) (values : ValueTable) : Session :=
  { s with fields := fields, values := values }

section Supplied

variable {s : Session} {fields : List Field} {values : ValueTable}

theorem result_conclude_supplied {e e' : Editor}
    (h : ((e.setMode s.mode).setFormula s.formulaText).Alike
      ((e'.setMode s.mode).setFormula s.formulaText)) :
    ((s.supplied fields values).conclude e).result = (s.conclude e').result := by
  have hmade : ((e.setMode (s.supplied fields values).mode).setFormula
      (s.supplied fields values).formulaText).produce.2 =
      ((e'.setMode s.mode).setFormula s.formulaText).produce.2 := h.produce_eq
  rw [conclude, conclude, hmade]
  rfl

variable (hreading : ∀ saved ∈ s.rows, saved.reading (s.supplied fields values) = saved.reading s)
include hreading

theorem stated_supplied : (s.supplied fields values).stated = s.stated := by
  apply List.filterMap_congr
  intro saved hsaved
  rw [hreading saved hsaved]

theorem fragmentAt_supplied : (s.supplied fields values).fragmentAt = s.fragmentAt := by
  funext number
  cases number with
  | zero => rfl
  | succ index =>
    rw [fragmentAt, fragmentAt, show (s.supplied fields values).rows = s.rows from rfl]
    cases hsaved : s.rows[index]? with
    | none => rfl
    | some saved => exact hreading saved (List.mem_of_getElem? hsaved)

/-- A session compiles to the same with other fields and other values if each of its
rows fits as it did and reads as it did. -/
theorem compile_supplied
    (hfits : ∀ saved ∈ s.rows, saved.fits (s.supplied fields values).schema = saved.fits s.schema)
    {arrange arrange' : List Delivery → List Delivery}
    (harrange : ∀ ds d, d ∈ arrange ds ↔ d ∈ ds) (harrange' : ∀ ds d, d ∈ arrange' ds ↔ d ∈ ds) :
    ((s.supplied fields values).compileArriving arrange).result =
      (s.compileArriving arrange').result := by
  have hall :
      (s.supplied fields values).rows.all (SavedRow.fits (s.supplied fields values).schema) =
        s.rows.all (SavedRow.fits s.schema) := by
    rw [Bool.eq_iff_iff, List.all_eq_true, List.all_eq_true]
    exact forall₂_congr fun saved hsaved => by rw [hfits saved hsaved]
  rw [result_compileArriving, result_compileArriving]
  by_cases h : s.rows.all (SavedRow.fits s.schema) = true
  · have h' := hall.trans h
    rw [if_pos h, if_pos h']
    apply result_conclude_supplied
    exact (mirrors_of_arrived (harrange _) h' rfl).alike (mirrors_of_arrived (harrange' _) h rfl)
      rfl rfl rfl (stated_supplied hreading) (fragmentAt_supplied hreading)
  · rw [if_neg h, if_neg (hall ▸ h)]

end Supplied

end Session

/-! ### Fields that bring values of their own -/

/-- A change of one element that keeps what is looked for matters only to the first
element found. -/
theorem find?_modify {α : Type} {p : α → Bool} {f : α → α} (hp : ∀ a, p (f a) = p a) (l : List α)
    (index : Nat) :
    (l.modify index f).find? p =
      if l.findIdx? p = some index then (l.find? p).map f else l.find? p := by
  induction l generalizing index with
  | nil => simp
  | cons a rest ih =>
    cases index with
    | zero =>
      rw [List.modify_zero_cons, List.find?_cons, List.find?_cons, List.findIdx?_cons, hp]
      cases p a <;> simp
    | succ index =>
      rw [List.modify_succ_cons, List.find?_cons, List.find?_cons, List.findIdx?_cons, ih]
      cases p a <;> simp

/-- A field that brings some values of its own. -/
def Field.bringing (choices : List Choice) (field : Field) : Field :=
  { field with choices := choices }

@[simp] theorem Field.type?_bringing (choices : List Choice) (field : Field) :
    (field.bringing choices).type? = field.type? := rfl

/-- Which values a field brings makes no difference to the kind of content it calls for. -/
theorem Content.kind_ofField_bringing (choices : List Choice) (field : Field) :
    (ofField (field.bringing choices)).type? = (ofField field).type? ∧
      (ofField (field.bringing choices)).isPicklist = (ofField field).isPicklist := by
  unfold ofField
  rw [field.type?_bringing]
  cases field.type? with
  | none => exact ⟨rfl, rfl⟩
  | some type =>
    dsimp only
    cases type.shape <;> exact ⟨rfl, rfl⟩

namespace SavedRow

/-- Whether the selection of a saved row waits for no values: the row has one of its
own, or its value has no entries to be taken apart into. -/
def Settled (s : Session) (saved : SavedRow) : Prop :=
  saved.selected ≠ [] ∨ Text.entries (saved.valueFor s.address) = []

instance (s : Session) (saved : SavedRow) : Decidable (saved.Settled s) :=
  inferInstanceAs (Decidable (_ ∨ _))

theorem Settled.selection_eq {s : Session} {saved : SavedRow} (h : saved.Settled s)
    (field : Field) : saved.selection s field = saved.selected := by
  unfold selection
  rcases h with hselected | hentries
  · rw [if_pos hselected]
  · rw [hentries, ite_self, ite_eq_left_iff, not_not]
    exact Eq.symm

theorem readingAt_congr {s s' : Session} (haddress : s.address = s'.address) {saved : SavedRow}
    {field field' : Field} (hselection : saved.selection s field = saved.selection s' field') :
    saved.readingAt s field = saved.readingAt s' field' := by
  funext type comparison
  unfold readingAt
  rw [haddress, hselection]

end SavedRow

namespace Session

/-- A session whose field at an index brings values of its own, with a table of values
for the others. -/
def offering (s : Session) (index : Nat) (choices : List Choice) (values : ValueTable) : Session :=
  s.supplied (s.fields.modify index (Field.bringing choices)) values

section Offering

variable {s : Session} {index : Nat} {choices : List Choice} {values : ValueTable}

theorem find?_offering (name : String) :
    (s.offering index choices values).schema.find? name =
      if s.fields.findIdx? (·.apiName == name) = some index then
        (s.schema.find? name).map (Field.bringing choices)
      else s.schema.find? name :=
  find?_modify (f := Field.bringing choices) (fun _ => rfl) s.fields index

theorem kind_content_offering (name : String) :
    ((s.offering index choices values).schema.content name).type? =
        (s.schema.content name).type? ∧
      ((s.offering index choices values).schema.content name).isPicklist =
        (s.schema.content name).isPicklist := by
  unfold Schema.content
  rw [find?_offering]
  split_ifs
  · cases s.schema.find? name with
    | none => exact ⟨rfl, rfl⟩
    | some field => exact Content.kind_ofField_bringing choices field
  · exact ⟨rfl, rfl⟩

theorem fits_offering (saved : SavedRow) :
    saved.fits (s.offering index choices values).schema = saved.fits s.schema := by
  obtain ⟨htype, hlist⟩ := kind_content_offering (s := s) saved.field
  unfold SavedRow.fits
  rw [htype, hlist]

theorem find?_of_findIdx? {field : Field} {name : String} (hfield : s.fields[index]? = some field)
    (hfirst : s.fields.findIdx? (·.apiName == name) = some index) :
    s.schema.find? name = some field ∧ field.apiName = name := by
  have hfound : s.schema.find? name = some field := by
    rw [Schema.find?, List.find?_eq_bind_findIdx?_getElem?]
    exact (congrArg (Option.bind · _) hfirst).trans hfield
  exact ⟨hfound, by simpa using List.find?_some hfound⟩

variable {field : Field} (hfield : s.fields[index]? = some field)
include hfield

/-- A saved row that waits for no values reads the same wherever they come from, and so
does one at another field. -/
theorem reading_offering
    (hvalues : ∀ name, name ≠ field.apiName → values.find? name = s.values.find? name)
    {saved : SavedRow} (h : saved.field = field.apiName → saved.Settled s) :
    saved.reading (s.offering index choices values) = saved.reading s := by
  have haddress : (s.offering index choices values).address = s.address := rfl
  unfold SavedRow.reading
  rw [find?_offering]
  split_ifs with hempty hfirst
  · rfl
  · obtain ⟨hfound, hname⟩ := find?_of_findIdx? hfield hfirst
    have hsettled : saved.Settled s := h hname.symm
    have hsettled' : saved.Settled (s.offering index choices values) := hsettled
    have hselection : saved.selection (s.offering index choices values) (field.bringing choices) =
        saved.selection s field := by
      rw [hsettled.selection_eq, hsettled'.selection_eq]
    simp only [hfound, Option.map_some, Option.bind_some, Field.type?_bringing,
      SavedRow.readingAt_congr haddress hselection]
  · cases s.schema.find? saved.field with
    | none => rfl
    | some found =>
      have hselection : saved.selection (s.offering index choices values) found =
          saved.selection s found := by
        -- an earlier field of the same name may have lost the entry of the table
        by_cases hname : saved.field = field.apiName
        · have hsettled' : saved.Settled (s.offering index choices values) := h hname
          rw [(h hname).selection_eq, hsettled'.selection_eq]
        · have hserved : saved.Served (s.offering index choices values) found ↔
              saved.Served s found := by
            unfold SavedRow.Served
            rw [← hvalues saved.field hname]
            rfl
          simp only [SavedRow.selection, hserved]
          rfl
      rw [Option.bind_some, Option.bind_some, SavedRow.readingAt_congr haddress hselection]

/-- A saved row whose value has entries to be taken apart into, and no selection of its
own, reads as these entries where values are delivered and as no selection at a field
that brings its own. -/
theorem reading_offering_of_not_settled (htype : field.type? = some .picklist)
    (hnone : field.choices = []) (hserved : s.values.find? field.apiName = some choices)
    (hsome : choices ≠ []) {saved : SavedRow}
    (hfirst : s.fields.findIdx? (·.apiName == saved.field) = some index)
    (hname : saved.field ≠ "") (hwaits : ¬ saved.Settled s) {comparison : Comparison}
    (hcomparison : saved.comparison = some comparison) :
    saved.reading s = some (Fragment.ofSelection saved.field (some comparison)
        (Text.entries (saved.valueFor s.address))) ∧
      saved.reading (s.offering index choices values) =
        some (Fragment.ofSelection saved.field (some comparison) []) := by
  obtain ⟨hfound, heq⟩ := find?_of_findIdx? hfield hfirst
  rw [SavedRow.Settled, not_or, not_not] at hwaits
  obtain ⟨hselected, hentries⟩ := hwaits
  have hvalue : saved.valueFor s.address ≠ "" := by
    intro hempty
    rw [hempty] at hentries
    exact hentries (by decide)
  have hmoved : (s.offering index choices values).schema.find? saved.field =
      some (field.bringing choices) := by
    rw [find?_offering, if_pos hfirst, hfound, Option.map_some]
  have hselection : saved.selection s field = Text.entries (saved.valueFor s.address) := by
    have hserves : saved.Served s field := ⟨hnone, by rw [← heq, hserved]; rfl⟩
    rw [SavedRow.selection, if_neg (not_not.mpr hselected), if_pos hserves]
  have hselection' : saved.selection (s.offering index choices values) (field.bringing choices) =
      [] := by
    rw [SavedRow.selection_of_not_served fun hserves => hsome hserves.1, hselected]
  constructor
  · rw [SavedRow.reading, if_neg hname, hfound, Option.bind_some, htype, hcomparison]
    simp [SavedRow.readingAt, hselection, hvalue, FieldType.shape]
  · rw [SavedRow.reading, if_neg hname, hmoved, Option.bind_some, Field.type?_bringing, htype,
      hcomparison]
    have hvalue' : saved.valueFor (s.offering index choices values).address ≠ "" := hvalue
    simp [SavedRow.readingAt, hselection', hvalue', FieldType.shape]

end Offering

/-- Values that move from the table of a session to a picklist field of it make no
difference as long as each row saved for the field is settled, in whichever order
answers arrive, and whether or not the table keeps them. A row that is not reads as the
entries of its value before and as an empty selection after. -/
theorem compile_of_moved_values (s : Session) (index : Nat) (field : Field)
    (choices : List Choice) (values : ValueTable) (hfield : s.fields[index]? = some field)
    (htype : field.type? = some .picklist) (hnone : field.choices = [])
    (hserved : s.values.find? field.apiName = some choices) (hsome : choices ≠ [])
    (hvalues : ∀ name, name ≠ field.apiName → values.find? name = s.values.find? name) :
    let moved := s.offering index choices values
    ((∀ saved ∈ s.rows, saved.field = field.apiName → saved.Settled s) →
      ∀ arrange arrange' : List Delivery → List Delivery,
        (∀ ds d, d ∈ arrange ds ↔ d ∈ ds) → (∀ ds d, d ∈ arrange' ds ↔ d ∈ ds) →
        (moved.compileArriving arrange).result = (s.compileArriving arrange').result) ∧
    ∀ saved : SavedRow, s.fields.findIdx? (·.apiName == saved.field) = some index →
      saved.field ≠ "" → ¬ saved.Settled s →
      ∀ comparison, saved.comparison = some comparison →
        saved.reading s = some (Fragment.ofSelection saved.field (some comparison)
          (Text.entries (saved.valueFor s.address))) ∧
        saved.reading moved = some (Fragment.ofSelection saved.field (some comparison) []) := by
  intro moved
  constructor
  · intro hsettled arrange arrange' harrange harrange'
    refine compile_supplied (fun saved hsaved => ?_) (fun saved _ => fits_offering saved) harrange
      harrange'
    exact reading_offering hfield hvalues (hsettled saved hsaved)
  · intro saved hfirst hname hwaits comparison hcomparison
    exact reading_offering_of_not_settled hfield htype hnone hserved hsome hfirst hname hwaits
      hcomparison

/-- One row selects a value and the value of another has no entries, so the session
compiles to the same; a third row would read as something else. -/
theorem compile_of_moved_values_two_rows :
    let field : Field := ⟨"Industry", "Industry", "Picklist", []⟩
    let choices : List Choice := [⟨"Energy", "Energy"⟩, ⟨"Retail", "Retail"⟩]
    let rows : List SavedRow := [⟨"Industry", some .equal, "Energy,Retail", ["Retail"], .and, none⟩,
      ⟨"Industry", some .notEqual, " , ", [], .or, none⟩]
    let s : Session := ⟨"Account", [field], .ofEntries [("Industry", choices)], rows, .byRow, "",
      ["Industry"], none, none, .empty⟩
    let moved := s.offering 0 choices .empty
    let third : SavedRow := ⟨"Industry", some .equal, "Energy, Retail", [], .and, none⟩
    (moved.compile.result = s.compile.result ∧ s.compile.result =
      .ok ⟨⟨" Industry IN ('Retail') OR Industry != ''", true⟩, "SELECT Id, Name, Industry " ++
        "FROM Account WHERE Industry IN ('Retail') OR Industry != '' LIMIT 5000"⟩) ∧
    third.reading s = some " Industry IN ('Energy', 'Retail')" ∧
      third.reading moved = some " Industry = ''" := by
  intro field choices rows s moved third
  have hvalues : ∀ name, name ≠ "Industry" →
      ValueTable.empty.find? name = s.values.find? name := by
    intro name hname
    have hlookup : [("Industry", choices)].lookup name = none := by
      rw [List.lookup_cons, beq_false_of_ne hname]
      rfl
    exact hlookup.symm
  obtain ⟨hsame, hreading⟩ := compile_of_moved_values s 0 field choices .empty rfl
    (by decide +kernel) rfl (by decide +kernel) (by decide) hvalues
  refine ⟨⟨?_, by decide +kernel⟩, ?_⟩
  · exact hsame (by decide +kernel) id id (fun _ _ => Iff.rfl) fun _ _ => Iff.rfl
  · have h := hreading third (by decide +kernel) (by decide) (by decide +kernel) .equal rfl
    refine ⟨h.1.trans ?_, h.2.trans ?_⟩
    · decide +kernel
    · decide +kernel

/-- A saved value that becomes the selection of a row where values are delivered is lost
on a field that brings the same values along. -/
theorem compile_changes_with_moved_values :
    let field : Field := ⟨"Industry", "Industry", "Picklist", []⟩
    let choices : List Choice := [⟨"Energy", "Energy"⟩, ⟨"Retail", "Retail"⟩]
    let s : Session := ⟨"Account", [field], .ofEntries [("Industry", choices)],
      [⟨"Industry", some .equal, "Energy,Retail", [], .and, none⟩], .throughout .and, "",
      ["Industry"], none, none, .empty⟩
    s.compile.result = .ok ⟨⟨" Industry IN ('Energy', 'Retail')", true⟩,
        "SELECT Id, Name, Industry FROM Account WHERE " ++
          "Industry IN ('Energy', 'Retail') LIMIT 5000"⟩ ∧
      (s.offering 0 choices .empty).compile.result = .ok ⟨⟨" Industry = ''", true⟩,
        "SELECT Id, Name, Industry FROM Account WHERE Industry = '' LIMIT 5000"⟩ := by
  decide +kernel

end Session
end QueryFilter
