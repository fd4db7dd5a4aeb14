import QueryFilter.Proofs.Sheet.Event

/-!
# Sheets in order

What events do to the contents of rows is said once, by `Change` for one row and by
`Step` for the sheet. From it follows what every sheet that events lead to keeps:
the row at index `i` has number `i + 1`, a comparison is one that the type of the
row's field admits, and a row for single values has a type of that shape.
-/

namespace QueryFilter
namespace Row

/-- What an edit or a delivery makes of the one row that it changes. -/
inductive Change (row : Row) : Row → Prop
  | cleared : Change row row.clear
  | pointed (schema : Schema) (field : String) : Change row (row.pointAt schema field)
  | compared {comparison : Comparison} {type : FieldType} (typed : row.type? = some type)
      (admitted : comparison.admits type = true) :
      Change row { row with comparison := some comparison }
  | entered (value : String) : Change row { row with value := value }
  | selected {list : Picklist} (values : List String) (held : row.content = .picklist list) :
      Change row { row with content := .picklist { list with selected := values } }
  | joined (joiner : Connective) : Change row { row with joiner := joiner }
  | received (choices : List Choice) : Change row (row.receive choices)

end Row

namespace Sheet

/-- What an event does to the rows of a sheet. -/
inductive Step (s : Sheet) : Sheet → Prop
  | unchanged : Step s s
  | added : Step s s.add
  | restarted : Step s s.reset
  | changed {index : Nat} {row later : Row} (found : s.rows[index]? = some row)
      (change : row.Change later) : Step s { s with rows := s.rows.set index later }
  | removed {index : Nat} (several : s.size ≠ 1) (inside : index < s.size) :
      Step s { s with rows := renumber (s.rows.eraseIdx index) }

theorem step_update {s : Sheet} {index : Nat} {change : Row → Row × EditResult}
    (h : ∀ row, (change row).1 = row ∨ row.Change (change row).1) :
    Step s (s.update index change).1 := by
  cases hrow : s.rows[index]? with
  | none =>
    rw [update_of_none hrow]
    exact .unchanged
  | some row =>
    rw [update_of_some hrow]
    rcases h row with hsame | hchange
    · rw [hsame, set_self hrow]
      exact .unchanged
    · exact .changed hrow hchange

theorem step_clear (s : Sheet) (index : Nat) : Step s (s.clear index).1 :=
  step_update fun _ => .inr .cleared

theorem step_edit (s : Sheet) (schema : Schema) (change : Edit) :
    Step s (s.edit schema change).1 := by
  cases change with
  | add => exact .added
  | reset => exact .restarted
  | clear index => exact s.step_clear index
  | remove index =>
    simp only [edit, remove]
    split_ifs with hone hlt
    · exact s.step_clear index
    · exact .removed hone hlt
    · exact .unchanged
  | pointAt index field => exact step_update fun _ => .inr (.pointed schema field)
  | compareBy index comparison =>
    refine step_update fun row => ?_
    split
    · exact .inl rfl
    · next htype =>
      split_ifs with hadmits
      · exact .inr (.compared htype hadmits)
      · exact .inl rfl
  | enter index value => exact step_update fun _ => .inr (.entered value)
  | select index values =>
    refine step_update fun row => ?_
    split
    · next hlist => exact .inr (.selected values hlist)
    · exact .inl rfl
  | joinBy index joiner => exact step_update fun _ => .inr (.joined joiner)

theorem step_deliver (s : Sheet) (delivery : Delivery) : Step s (s.deliver delivery).1 := by
  simp only [deliver]
  cases hrow : s.rows[s.indexOf delivery.stamp.id]? with
  | none => exact .unchanged
  | some row =>
    cases delivery.result with
    | error failure =>
      dsimp only
      split_ifs <;> exact .unchanged
    | ok choices =>
      dsimp only
      split_ifs
      · exact .unchanged
      · exact .changed hrow (.received choices)
      · exact .unchanged

theorem step (s : Sheet) (event : Event) : Step s (event.apply s) := by
  cases event with
  | edit schema change => exact s.step_edit schema change
  | deliver delivery => exact s.step_deliver delivery

/-- What every step keeps, events keep. -/
theorem after_induction {P : Sheet → Prop} (hstep : ∀ s later : Sheet, s.Step later → P s → P later)
    {s : Sheet} (hs : P s) (events : List Event) : P (s.after events) := by
  induction events generalizing s with
  | nil => exact hs
  | cons event rest ih => exact ih (hstep _ _ (s.step event) hs)

end Sheet

/-! ### Rows -/

namespace Content

theorem type?_ofField (field : Field) : (ofField field).type? = field.type? := by
  unfold ofField
  cases htype : field.type? with
  | none => rfl
  | some type => cases type <;> rfl

theorem isPicklist_ofField {field : Field} {type : FieldType} (h : field.type? = some type) :
    (ofField field).isPicklist = true ↔ type = .picklist := by
  unfold ofField
  rw [h]
  cases type <;> simp [FieldType.shape, isPicklist]

end Content

namespace Row

/-- A comparison is one that the row's type admits, and single values are held for
the types that have them. -/
structure Consistent (row : Row) : Prop where
  admitted : ∀ comparison, row.comparison = some comparison →
    ∃ type, row.type? = some type ∧ comparison.admits type = true
  single : ∀ type, row.content = .single type → type.shape = .single

theorem consistent_blank (id number : Nat) : (blank id number).Consistent := by
  constructor <;> simp [blank]

theorem type?_receive (choices : List Choice) (row : Row) :
    (row.receive choices).type? = row.type? := by
  unfold receive
  split
  · next h => rw [type?, type?, h]; rfl
  · rfl

theorem comparison_receive (choices : List Choice) (row : Row) :
    (row.receive choices).comparison = row.comparison := by
  unfold receive
  split <;> rfl

theorem type?_eq_none_iff {row : Row} : row.type? = none ↔ row.content = .unresolved := by
  unfold type?
  cases row.content <;> simp [Content.type?]

theorem comparisons_of_type? {row : Row} {type : FieldType} (h : row.type? = some type) :
    row.comparisons = type.comparisons := by
  rw [comparisons, h]
  rfl

theorem shape_of_ofField {field : Field} {type : FieldType}
    (h : Content.ofField field = .single type) : type.shape = .single := by
  unfold Content.ofField at h
  split at h
  · cases h
  · split at h
    · next hshape =>
      cases h
      exact hshape
    · cases h
    · cases h

theorem shape_of_pointAt {schema : Schema} {field : String} {row : Row} {type : FieldType}
    (h : (row.pointAt schema field).content = .single type) : type.shape = .single := by
  unfold pointAt at h
  cases hfield : schema.find? field with
  | none => simp [hfield] at h
  | some found => exact shape_of_ofField (by simpa [hfield] using h)

theorem Change.number_eq {row later : Row} (h : row.Change later) :
    later.number = row.number := by
  cases h with
  | received choices => unfold receive; split <;> rfl
  | _ => rfl

theorem Change.consistent {row later : Row} (h : row.Change later) (hrow : row.Consistent) :
    later.Consistent := by
  cases h with
  | cleared => constructor <;> simp [clear]
  | pointed schema field =>
    refine ⟨fun comparison hc => ?_, fun type htype => shape_of_pointAt htype⟩
    cases hc
  | compared typed admitted =>
    refine ⟨fun comparison hc => ?_, hrow.single⟩
    cases hc
    exact ⟨_, typed, admitted⟩
  | entered value => exact ⟨hrow.admitted, hrow.single⟩
  | selected values held =>
    refine ⟨fun comparison hc => ?_, fun type htype => by cases htype⟩
    obtain ⟨type, htype, hadmits⟩ := hrow.admitted comparison hc
    rw [type?, held] at htype
    exact ⟨type, htype, hadmits⟩
  | joined joiner => exact ⟨hrow.admitted, hrow.single⟩
  | received choices =>
    refine ⟨?_, fun type htype => ?_⟩
    · rw [comparison_receive, type?_receive]
      exact hrow.admitted
    · unfold receive at htype
      split at htype
      · cases htype
      · exact hrow.single type htype

theorem isComplete_iff {row : Row} :
    row.isComplete = true ↔ row.field ≠ "" ∧ row.comparison.isSome = true ∧
      (row.value ≠ "" ∨ row.content.selected ≠ []) := by
  simp [isComplete, and_assoc]

/-- A complete row has a type. -/
theorem Consistent.type?_isSome {row : Row} (h : row.Consistent)
    (hcomplete : row.isComplete = true) : row.type?.isSome = true := by
  obtain ⟨-, hcompared, -⟩ := isComplete_iff.mp hcomplete
  obtain ⟨comparison, hcomparison⟩ := Option.isSome_iff_exists.mp hcompared
  obtain ⟨type, htype, -⟩ := h.admitted comparison hcomparison
  rw [htype]
  rfl

end Row

/-! ### Sheets -/

namespace Sheet

/-- The row with a number. Numbers count from 1. -/
def row? (s : Sheet) : Nat → Option Row
  | 0 => none
  | index + 1 => s.rows[index]?

/-- Rows are numbered from 1 on, and each of them is consistent. -/
structure InOrder (s : Sheet) : Prop where
  numbered : ∀ index row, s.rows[index]? = some row → row.number = index + 1
  consistent : ∀ row ∈ s.rows, row.Consistent

theorem inOrder_new : InOrder .new := by
  constructor
  · intro index row h
    cases index with
    | zero => cases h; rfl
    | succ index => cases h
  · intro row h
    rw [List.mem_singleton.mp h]
    exact Row.consistent_blank 0 1

variable {s later : Sheet}

/-- What blank rows have, and what every change and every other number keeps, all rows keep. -/
theorem Step.forall_rows {P : Row → Prop} (h : s.Step later)
    (hblank : ∀ id number, P (.blank id number))
    (hchange : ∀ row changed : Row, row.Change changed → P row → P changed)
    (hnumber : ∀ (row : Row) (number : Nat), P row → P { row with number := number })
    (hs : ∀ row ∈ s.rows, P row) : ∀ row ∈ later.rows, P row := by
  intro row hrow
  cases h with
  | unchanged => exact hs row hrow
  | added =>
    rcases List.mem_append.mp hrow with hold | hnew
    · exact hs row hold
    · rw [List.mem_singleton.mp hnew]
      exact hblank _ _
  | restarted =>
    rw [List.mem_singleton.mp hrow]
    exact hblank _ _
  | changed found change =>
    rcases List.mem_or_eq_of_mem_set hrow with hold | rfl
    · exact hs row hold
    · exact hchange _ _ change (hs _ (List.mem_of_getElem? found))
  | removed several inside =>
    obtain ⟨index, hlt, rfl⟩ := List.mem_mapIdx.mp hrow
    exact hnumber _ _ (hs _ (List.mem_of_mem_eraseIdx (List.getElem_mem hlt)))

theorem Step.numbered (h : s.Step later)
    (hs : ∀ index row, s.rows[index]? = some row → row.number = index + 1) :
    ∀ index row, later.rows[index]? = some row → row.number = index + 1 := by
  intro index row hrow
  cases h with
  | unchanged => exact hs index row hrow
  | added =>
    rw [add, List.getElem?_append] at hrow
    split_ifs at hrow with hlt
    · exact hs index row hrow
    · rw [List.getElem?_singleton] at hrow
      split_ifs at hrow with hindex
      cases hrow
      simp only [Row.blank, size]
      omega
  | restarted =>
    cases index with
    | zero => cases hrow; rfl
    | succ index => cases hrow
  | changed found change =>
    rw [List.getElem?_set] at hrow
    split_ifs at hrow with heq hlt
    · cases hrow
      rw [change.number_eq, ← heq]
      exact hs _ _ found
    · exact hs index row hrow
  | removed several inside =>
    rw [renumber, List.getElem?_mapIdx] at hrow
    obtain ⟨old, -, rfl⟩ := Option.map_eq_some_iff.mp hrow
    rfl

theorem Step.inOrder (h : s.Step later) (hs : s.InOrder) : later.InOrder where
  numbered := h.numbered hs.numbered
  consistent := h.forall_rows Row.consistent_blank (fun _ _ change => change.consistent)
    (fun _ _ hrow => ⟨hrow.admitted, hrow.single⟩) hs.consistent

theorem InOrder.after (hs : s.InOrder) (events : List Event) :
    (s.after events).InOrder :=
  after_induction (fun _ _ h => h.inOrder) hs events

namespace InOrder

theorem row?_eq_some_iff (hs : s.InOrder) {number : Nat} {row : Row} :
    s.row? number = some row ↔ row ∈ s.rows ∧ row.number = number := by
  constructor
  · intro h
    cases number with
    | zero => cases h
    | succ index => exact ⟨List.mem_of_getElem? h, hs.numbered index row h⟩
  · rintro ⟨hmem, rfl⟩
    obtain ⟨index, hindex⟩ := List.mem_iff_getElem?.mp hmem
    rw [hs.numbered index row hindex]
    exact hindex

/-- The complete row with a number is the row there, if it is complete. -/
theorem find?_complete (hs : s.InOrder) (number : Nat) :
    s.complete.find? (·.number == number) = (s.row? number).filter Row.isComplete := by
  apply Option.ext
  intro row
  rw [Option.filter_eq_some_iff, hs.row?_eq_some_iff]
  constructor
  · intro h
    have hmem := List.mem_filter.mp (List.mem_of_find?_eq_some h)
    have hnumber := List.find?_some h
    exact ⟨⟨hmem.1, by simpa using hnumber⟩, hmem.2⟩
  · rintro ⟨⟨hmem, rfl⟩, hcomplete⟩
    cases hfind : s.complete.find? (·.number == row.number) with
    | none =>
      have hno := List.find?_eq_none.mp hfind row (List.mem_filter.mpr ⟨hmem, hcomplete⟩)
      simp at hno
    | some other =>
      have hother := List.mem_filter.mp (List.mem_of_find?_eq_some hfind)
      have hnumber : other.number = row.number := by simpa using List.find?_some hfind
      have hrow := hs.row?_eq_some_iff.mpr ⟨hmem, rfl⟩
      rw [hs.row?_eq_some_iff.mpr ⟨hother.1, hnumber⟩] at hrow
      exact hrow

end InOrder
end Sheet
end QueryFilter
