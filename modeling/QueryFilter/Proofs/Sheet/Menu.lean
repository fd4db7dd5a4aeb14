import Mathlib.Data.List.Pairwise
import Mathlib.Data.String.Basic
import QueryFilter.Proofs.Sheet.Order

/-!
# The menu of fields

The fields that can be filtered on are listed by label. The list is the only one that has
each of them as often as the schema does, ascends by label, and keeps fields with one label
in their order. Where names tell the fields of a schema apart, a row that is pointed at a
listed field has the type of that field and takes the comparisons offered for it, and no
others; and it asks for values exactly if the field is a picklist that brings none.
-/

namespace QueryFilter

/-! ### Labels -/

namespace Text

/-- The code points of a text. -/
def codePoints (s : String) : List Nat :=
  s.toList.map Char.toNat

theorem codePoints_le_iff {s t : String} : codePoints s ≤ codePoints t ↔ s ≤ t := by
  have hmono : StrictMono (List.map Char.toNat) := fun _ _ h => List.map_lt (fun _ _ h => h) h
  rw [codePoints, codePoints, hmono.le_iff_le, String.le_iff_toList_le]

end Text

namespace Field

theorem canBeFiltered_iff {field : Field} :
    field.canBeFiltered = true ↔ ∃ type, field.type? = some type ∧ type ≠ .textArea := by
  simp [canBeFiltered, FieldType.canBeFiltered, Option.any_eq_true]

theorem byLabel_trans (a b c : Field) (hab : decide (a.label ≤ b.label) = true)
    (hbc : decide (b.label ≤ c.label) = true) : decide (a.label ≤ c.label) = true :=
  decide_eq_true (le_trans (of_decide_eq_true hab) (of_decide_eq_true hbc))

theorem byLabel_total (a b : Field) :
    (decide (a.label ≤ b.label) || decide (b.label ≤ a.label)) = true := by
  simpa using le_total a.label b.label

/-- Fields that are picked out of a list keep their order in a rearrangement of the list if
they occur in it in that order. -/
theorem filter_eq_of_sublist {first second : List Field} {p : Field → Bool}
    (hsub : (first.filter p).Sublist second) (hperm : first.Perm second) :
    first.filter p = second.filter p := by
  have hkept := hsub.filter p
  simp only [List.filter_filter, Bool.and_self] at hkept
  exact hkept.eq_of_length (hperm.filter p).length_eq

theorem mem_of_filter_label {first second : List Field} {field : Field}
    (h : first.filter (·.label == field.label) = second.filter (·.label == field.label))
    (hfield : field ∈ first) : field ∈ second := by
  have hkept : field ∈ first.filter (·.label == field.label) :=
    List.mem_filter.mpr ⟨hfield, beq_self_eq_true _⟩
  rw [h] at hkept
  exact List.mem_of_mem_filter hkept

/-- Fields that ascend by label are settled by which ones have each label, and in what order. -/
theorem eq_of_ascending {first second : List Field}
    (hfirst : first.Pairwise fun a b => a.label ≤ b.label)
    (hsecond : second.Pairwise fun a b => a.label ≤ b.label)
    (h : ∀ label, first.filter (·.label == label) = second.filter (·.label == label)) :
    first = second := by
  induction first generalizing second with
  | nil =>
    cases second with
    | nil => rfl
    | cons b second => simpa using h b.label
  | cons a first ih =>
    cases second with
    | nil => simpa using h a.label
    | cons b second =>
      have hlabel : a.label = b.label := by
        have ha : a ∈ b :: second := mem_of_filter_label (h a.label) List.mem_cons_self
        have hb : b ∈ a :: first := mem_of_filter_label (h b.label).symm List.mem_cons_self
        exact le_antisymm (hfirst.rel_head_of_rel_head_head hb le_rfl)
          (hsecond.rel_head_of_rel_head_head ha le_rfl)
      have hheads : a = b := by
        have hfilter := h a.label
        rw [List.filter_cons_of_pos (by simp), List.filter_cons_of_pos (by simp [hlabel])]
          at hfilter
        exact (List.cons.inj hfilter).1
      subst hheads
      refine congrArg (a :: ·) (ih hfirst.of_cons hsecond.of_cons fun label => ?_)
      have hfilter := h label
      by_cases heq : a.label = label <;> simpa [List.filter_cons, heq] using hfilter

end Field

/-! ### The listed fields -/

namespace Schema

/-- A list of the fields that can be filtered on: all whose type is known and not one of long
texts, each as often as it occurs, ascending by label in code point order, and fields with
one label in the order in which the schema has them. -/
structure IsMenu (schema : Schema) (menu : List Field) : Prop where
  eligible : ∀ field ∈ menu, ∃ type, field.type? = some type ∧ type ≠ .textArea
  count_eq : ∀ field type, field.type? = some type → type ≠ .textArea →
    menu.count field = schema.fields.count field
  ascending : menu.Pairwise fun a b => Text.codePoints a.label ≤ Text.codePoints b.label
  steady : ∀ label, (menu.filter (·.label == label)).Sublist schema.fields

/-- The fields that can be filtered on, as the schema has them. -/
def eligibleFields (schema : Schema) : List Field :=
  schema.fields.filter (·.canBeFiltered)

variable {schema : Schema}

theorem perm_filterFields : schema.filterFields.Perm schema.eligibleFields :=
  List.mergeSort_perm _ _

theorem pairwise_filterFields :
    schema.filterFields.Pairwise fun a b => a.label ≤ b.label :=
  (List.pairwise_mergeSort Field.byLabel_trans Field.byLabel_total schema.eligibleFields).imp
    of_decide_eq_true

/-- Fields with one label are in the order that they had. -/
theorem filter_label_filterFields (label : String) :
    schema.filterFields.filter (·.label == label) =
      schema.eligibleFields.filter (·.label == label) := by
  have hsub : (schema.eligibleFields.filter (·.label == label)).Sublist schema.filterFields := by
    refine List.sublist_mergeSort Field.byLabel_trans Field.byLabel_total ?_ List.filter_sublist
    refine List.pairwise_of_forall_mem_list fun a ha b hb => ?_
    rw [eq_of_beq (List.mem_filter.mp ha).2, eq_of_beq (List.mem_filter.mp hb).2]
    exact decide_eq_true le_rfl
  exact (Field.filter_eq_of_sublist hsub perm_filterFields.symm).symm

theorem isMenu_filterFields : schema.IsMenu schema.filterFields := by
  constructor
  · intro field hfield
    have hmem := perm_filterFields.subset hfield
    exact Field.canBeFiltered_iff.mp (List.mem_filter.mp hmem).2
  · intro field type htype hne
    rw [perm_filterFields.count_eq, eligibleFields,
      List.count_filter (Field.canBeFiltered_iff.mpr ⟨type, htype, hne⟩)]
  · simpa only [Text.codePoints_le_iff] using pairwise_filterFields
  · intro label
    rw [filter_label_filterFields]
    exact List.filter_sublist.trans List.filter_sublist

namespace IsMenu

variable {menu : List Field} (h : schema.IsMenu menu)
include h

theorem canBeFiltered {field : Field} (hfield : field ∈ menu) : field.canBeFiltered = true :=
  Field.canBeFiltered_iff.mpr (h.eligible field hfield)

theorem perm : menu.Perm schema.eligibleFields := by
  refine List.perm_iff_count.mpr fun field => ?_
  by_cases hfield : field.canBeFiltered = true
  · obtain ⟨type, htype, hne⟩ := Field.canBeFiltered_iff.mp hfield
    rw [h.count_eq field type htype hne, eligibleFields, List.count_filter hfield]
  · have hmenu : field ∉ menu := fun hmem => hfield (h.canBeFiltered hmem)
    have hfields : field ∉ schema.eligibleFields := fun hmem => hfield (List.mem_filter.mp hmem).2
    rw [List.count_eq_zero_of_not_mem hmenu, List.count_eq_zero_of_not_mem hfields]

theorem filter_label (label : String) :
    menu.filter (·.label == label) = schema.eligibleFields.filter (·.label == label) := by
  have hsub : (menu.filter (·.label == label)).Sublist schema.eligibleFields := by
    have hkept := (h.steady label).filter (·.canBeFiltered)
    rwa [List.filter_eq_self.mpr fun field hfield =>
      h.canBeFiltered (List.mem_of_mem_filter hfield)] at hkept
  exact Field.filter_eq_of_sublist hsub h.perm

theorem eq_filterFields : menu = schema.filterFields := by
  refine Field.eq_of_ascending ?_ pairwise_filterFields fun label => ?_
  · simpa only [Text.codePoints_le_iff] using h.ascending
  · rw [h.filter_label, filter_label_filterFields]

end IsMenu

/-- Names that tell the fields of a schema apart find each of them. -/
theorem find?_apiName (hdistinct : (schema.fields.map Field.apiName).Nodup) {field : Field}
    (hfield : field ∈ schema.fields) : schema.find? field.apiName = some field := by
  unfold find?
  obtain ⟨found, hfound⟩ : ∃ found, schema.fields.find? (·.apiName == field.apiName) = some found :=
    Option.isSome_iff_exists.mp (List.find?_isSome.mpr ⟨field, hfield, beq_self_eq_true _⟩)
  have hname : found.apiName = field.apiName := by simpa using List.find?_some hfound
  rw [hfound, List.inj_on_of_nodup_map hdistinct (List.mem_of_find?_eq_some hfound) hfield hname]

end Schema

/-! ### Listed fields in rows -/

namespace Row

variable {schema : Schema} {name : String} {field : Field}

theorem type?_pointAt (hfound : schema.find? name = some field) (row : Row) :
    (row.pointAt schema name).type? = field.type? := by
  rw [type?, pointAt, hfound]
  exact Content.type?_ofField field

theorem request?_pointAt (hfound : schema.find? name = some field) {type : FieldType}
    (htype : field.type? = some type) (row : Row) :
    (row.pointAt schema name).request? schema =
      if type = .picklist ∧ field.choices = [] then
        some ⟨(row.pointAt schema name).stamp, schema.objectType, name⟩
      else none := by
  simp only [request?, pointAt, hfound, Option.elim_some, Content.ofField, htype]
  cases type <;> simp [FieldType.shape, stamp]

end Row

namespace Sheet

variable {s : Sheet} {index : Nat} {row : Row}

/-- A row takes the comparisons that are offered for it, and no others. -/
theorem compareBy_eq_ok_iff (hrow : s.rows[index]? = some row) {comparison : Comparison} :
    s.compareBy index comparison =
        ({ s with rows := s.rows.set index { row with comparison := some comparison } },
          .ok none) ↔
      comparison ∈ row.comparisons := by
  rw [compareBy, update_of_some hrow]
  cases htype : row.type? with
  | none => simp [Row.comparisons, htype]
  | some type =>
    rw [Row.comparisons_of_type? htype, FieldType.mem_comparisons]
    cases hadmits : comparison.admits type <;> simp [hadmits]

end Sheet

namespace Schema

/-- The list of fields to filter on is the one menu of the schema. Where names tell fields
apart, a row of any sheet that is pointed at a listed field has the type of that field and
takes exactly the comparisons offered for it. It asks for values exactly if the field is a
picklist that brings none. -/
theorem filterFields_characterization (schema : Schema) :
    (∀ menu, schema.IsMenu menu ↔ menu = schema.filterFields) ∧
    ((schema.fields.map Field.apiName).Nodup → ∀ field ∈ schema.filterFields,
      ∃ type, field.type? = some type ∧
        ∀ (s : Sheet) (index : Nat) (row : Row), s.rows[index]? = some row →
          let later := row.pointAt schema field.apiName
          let pointed : Sheet := { s with rows := s.rows.set index later }
          s.pointAt schema index field.apiName = (pointed, .ok (
            if type = .picklist ∧ field.choices = [] then
              some ⟨later.stamp, schema.objectType, field.apiName⟩
            else none)) ∧
          later.field = field.apiName ∧ later.type? = some type ∧ later.content ≠ .unresolved ∧
          later.comparisons = type.comparisons ∧
          ∀ comparison, comparison ∈ later.comparisons ↔
            pointed.compareBy index comparison =
              ({ s with
                rows := s.rows.set index { later with comparison := some comparison } },
                .ok none)) := by
  refine ⟨fun menu => ⟨IsMenu.eq_filterFields, ?_⟩, fun hdistinct field hfield => ?_⟩
  · rintro rfl
    exact isMenu_filterFields
  obtain ⟨type, htype, -⟩ := isMenu_filterFields.eligible field hfield
  have hfound : schema.find? field.apiName = some field :=
    find?_apiName hdistinct (List.mem_of_mem_filter (perm_filterFields.subset hfield))
  refine ⟨type, htype, fun s index row hrow => ?_⟩
  intro later pointed
  have hlater : later.type? = some type := (Row.type?_pointAt hfound row).trans htype
  have hpointed : pointed.rows[index]? = some later :=
    List.getElem?_set_self (List.getElem?_eq_some_iff.mp hrow).1
  refine ⟨?_, rfl, hlater, ?_, Row.comparisons_of_type? hlater, fun comparison => ?_⟩
  · rw [Sheet.pointAt, Sheet.update_of_some hrow, Row.request?_pointAt hfound htype row]
  · intro hcontent
    rw [Row.type?_eq_none_iff.mpr hcontent] at hlater
    cases hlater
  · rw [← Sheet.compareBy_eq_ok_iff hpointed]
    simp only [pointed, List.set_set]

/-- Two fields have one label, and two more are not listed. The second row of a sheet is
pointed at the picklist among the listed fields. -/
theorem filterFields_characterization_five_fields :
    let stage : Field := ⟨"Stage", "Stage__c", "PICKLIST", []⟩
    let name : Field := ⟨"Name", "Name", " string ", []⟩
    let parent : Field := ⟨"Stage", "ParentStage__c", "ID", []⟩
    let schema : Schema := ⟨"Lead",
      [stage, ⟨"Notes", "Notes", "TextArea", []⟩, name, ⟨"Logo", "Logo", "Base64", []⟩, parent]⟩
    let s := Sheet.new.after [.edit schema .add]
    let later : Row := { Row.blank 1 2 with
      generation := 1, field := "Stage__c", content := .picklist ⟨[], [], false⟩ }
    let pointed : Sheet := { s with rows := s.rows.set 1 later }
    (schema.fields.map Field.apiName).Nodup ∧ schema.IsMenu [name, stage, parent] ∧
      s.pointAt schema 1 "Stage__c" = (pointed, .ok (some ⟨⟨1, 1⟩, "Lead", "Stage__c"⟩)) ∧
      (pointed.compareBy 1 .notEqual).2.isOk = true ∧
      (pointed.compareBy 1 .like).2.isOk = false := by
  intro stage name parent schema s later pointed
  have heligible : schema.eligibleFields = [stage, name, parent] := by decide +kernel
  have hmenu : [name, stage, parent] = schema.filterFields := by
    show _ = schema.eligibleFields.mergeSort _
    rw [heligible]
    simp [List.mergeSort, List.MergeSort.Internal.splitInTwo, stage, name, parent]
  have hdistinct : (schema.fields.map Field.apiName).Nodup := by decide
  have hstage : stage ∈ schema.filterFields := by simp [← hmenu]
  obtain ⟨hunique, hlisted⟩ := filterFields_characterization schema
  obtain ⟨type, htype, hrow⟩ := hlisted hdistinct stage hstage
  obtain rfl : type = .picklist := Option.some.inj (htype.symm.trans (by decide +kernel))
  obtain ⟨hpointed, -, -, -, hoffered, htaken⟩ := hrow s 1 (.blank 1 2) (by decide +kernel)
  have hlater : (Row.blank 1 2).pointAt schema "Stage__c" = later := by decide +kernel
  rw [hlater] at hpointed hoffered htaken
  refine ⟨hdistinct, (hunique _).mpr hmenu, hpointed, ?_, by decide +kernel⟩
  rw [(htaken .notEqual).mp (by rw [hoffered]; decide)]
  rfl

end Schema
end QueryFilter
