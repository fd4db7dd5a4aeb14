import QueryFilter.Proofs.Sheet.Body
import QueryFilter.Proofs.Text.Literals

/-!
# Quoted values in a condition

The fragment of a row is a text that leads up to its literals, the literals with
commas between them, and a text after them. Where no field name and no value that
is written as it is has a quote in it, these are the only literals. So the body of a
condition ends outside literals, its literals are the values of its rows in order,
and nothing outside them depends on what the values are.
-/

namespace QueryFilter

open Text (Part HasParts plain values mask)

/-! ### Rows -/

namespace Row

/-- The values that a row puts into its fragment as literals. -/
def quoted (row : Row) : List String :=
  match row.content with
  | .single type =>
    if type.isQuoted then
      match row.comparison with
      | some .like | some .notLike => ["%" ++ row.value ++ "%"]
      | _ => [row.value]
    else []
  | .picklist list => if list.selected.isEmpty then [""] else list.selected
  | _ => []

/-- A row whose text, or each of whose selected values, is empty. -/
def emptied (row : Row) : Row :=
  match row.content with
  | .single type => if type.isQuoted then { row with value := "" } else row
  | .picklist list =>
    { row with content := .picklist { list with selected := list.selected.map fun _ => "" } }
  | _ => row

/-- Whether a row has no quote in what is written as it is: its field, and the value
of a field whose type is not quoted. -/
structure QuoteFree (row : Row) : Prop where
  field : '\'' ∉ row.field.toList
  value : ∀ type ∈ [FieldType.date, .dateTime, .currency, .double, .int, .address],
    row.type? = some type → '\'' ∉ row.value.toList

instance (row : Row) : Decidable row.QuoteFree :=
  decidable_of_iff
    ('\'' ∉ row.field.toList ∧
      ∀ type ∈ [FieldType.date, .dateTime, .currency, .double, .int, .address],
        row.type? = some type → '\'' ∉ row.value.toList)
    ⟨fun h => ⟨h.1, h.2⟩, fun h => ⟨h.field, h.value⟩⟩

/-- The text of a row's fragment before its literals; all of it if there are none. -/
def lead (row : Row) : String :=
  let compared := " " ++ row.field ++ " " ++ Fragment.token row.comparison ++ " "
  match row.content with
  | .single type =>
    if type.isQuoted then
      match row.comparison with
      | some .like => " " ++ row.field ++ " LIKE "
      | some .notLike => " (NOT " ++ row.field ++ " LIKE  "
      | _ => compared
    else row.fragment
  | .picklist list =>
    if list.selected.isEmpty then compared
    else
      let keyword := if row.comparison = some .notEqual then "NOT IN" else "IN"
      " " ++ row.field ++ " " ++ keyword ++ " ("
  | _ => row.fragment

/-- The text of a row's fragment after its literals. -/
def trail (row : Row) : String :=
  match row.content with
  | .single type => if type.isQuoted && row.comparison == some .notLike then ")" else ""
  | .picklist list => if list.selected.isEmpty then "" else ")"
  | _ => ""

/-- The parts of a row's fragment. -/
def parts (row : Row) : List Part :=
  plain row.lead ++ Text.literals ", " row.quoted ++ plain row.trail

theorem fragment_eq (row : Row) :
    row.fragment = row.lead ++ ", ".intercalate (row.quoted.map Text.quote) ++ row.trail := by
  cases hcontent : row.content with
  | unresolved => simp [lead, quoted, trail, hcontent]
  | truth => simp [lead, quoted, trail, hcontent]
  | single type =>
    by_cases hquoted : type.isQuoted = true
    · cases hcomparison : row.comparison with
      | none => simp [fragment, lead, quoted, trail, hcontent, hquoted, hcomparison, Fragment.ofText]
      | some comparison =>
        cases comparison <;>
          simp [fragment, lead, quoted, trail, hcontent, hquoted, hcomparison, Fragment.ofText]
    · simp [lead, quoted, trail, hcontent, hquoted]
  | picklist list =>
    cases hselected : list.selected with
    | nil =>
      have hempty : " ''" = " " ++ Text.quote "" := by decide
      simp [fragment, lead, quoted, trail, hcontent, hselected, Fragment.ofSelection, hempty,
        String.append_assoc]
    | cons first rest =>
      simp [fragment, lead, quoted, trail, hcontent, hselected, Fragment.ofSelection]

@[simp] theorem lead_emptied (row : Row) : row.emptied.lead = row.lead := by
  cases hcontent : row.content with
  | unresolved => simp [emptied, hcontent]
  | truth => simp [emptied, hcontent]
  | single type =>
    by_cases hquoted : type.isQuoted = true
    · simp [emptied, lead, hcontent, hquoted]
    · simp [emptied, hcontent, hquoted]
  | picklist list => simp [emptied, lead, hcontent]

@[simp] theorem trail_emptied (row : Row) : row.emptied.trail = row.trail := by
  cases hcontent : row.content with
  | unresolved => simp [emptied, hcontent]
  | truth => simp [emptied, hcontent]
  | single type =>
    by_cases hquoted : type.isQuoted = true
    · simp [emptied, trail, hcontent, hquoted]
    · simp [emptied, hcontent, hquoted]
  | picklist list => simp [emptied, trail, hcontent]

@[simp] theorem length_quoted_emptied (row : Row) :
    row.emptied.quoted.length = row.quoted.length := by
  cases hcontent : row.content with
  | unresolved => simp [emptied, hcontent]
  | truth => simp [emptied, hcontent]
  | single type =>
    by_cases hquoted : type.isQuoted = true
    · cases hcomparison : row.comparison with
      | none => simp [emptied, quoted, hcontent, hquoted, hcomparison]
      | some comparison =>
        cases comparison <;> simp [emptied, quoted, hcontent, hquoted, hcomparison]
    · simp [emptied, hcontent, hquoted]
  | picklist list =>
    cases hselected : list.selected <;> simp [emptied, quoted, hcontent, hselected]

theorem values_parts (row : Row) : values row.parts = row.quoted := by
  simp [parts]

/-- What stands outside the literals of a fragment does not depend on their values. -/
theorem mask_parts_emptied (row : Row) : mask row.emptied.parts = mask row.parts := by
  simp [parts, Text.mask_literals]

theorem quote_notMem_token (comparison : Option Comparison) :
    '\'' ∉ (Fragment.token comparison).toList := by
  cases comparison with
  | none => decide
  | some comparison => cases comparison <;> decide

theorem mem_of_not_isQuoted {type : FieldType} (hshape : type.shape = .single)
    (hquoted : ¬ type.isQuoted = true) :
    type ∈ [FieldType.date, .dateTime, .currency, .double, .int, .address] := by
  cases type <;> simp_all [FieldType.shape, FieldType.isQuoted]

theorem quote_notMem_fragment_truth {row : Row} (hfree : row.QuoteFree)
    (hcontent : row.content = .truth) : '\'' ∉ row.fragment.toList := by
  have htruth : '\'' ∉ (if row.value = "true" then "true" else "false").toList := by
    split_ifs <;> decide
  simp [fragment, hcontent, Fragment.ofTruth, hfree.field, quote_notMem_token, htruth]

theorem quote_notMem_fragment_single {row : Row} (hfree : row.QuoteFree)
    (hrow : row.Consistent) (hcomplete : row.isComplete = true) {type : FieldType}
    (hcontent : row.content = .single type) (hquoted : ¬ type.isQuoted = true) :
    '\'' ∉ row.fragment.toList := by
  have htype := mem_of_not_isQuoted (hrow.single type hcontent) hquoted
  have hvalue := hfree.value type htype (by rw [type?, hcontent]; rfl)
  have hne : row.value ≠ "" := by
    simp only [isComplete, hcontent, Content.selected] at hcomplete
    simp at hcomplete
    exact hcomplete.2
  simp [fragment, hcontent, hquoted, Fragment.verbatim, hne, hfree.field, quote_notMem_token,
    hvalue]

theorem quote_notMem_lead {row : Row} (hfree : row.QuoteFree) (hrow : row.Consistent)
    (hcomplete : row.isComplete = true) : '\'' ∉ row.lead.toList := by
  have hfield := hfree.field
  have htoken := quote_notMem_token row.comparison
  cases hcontent : row.content with
  | unresolved =>
    have htype := hrow.type?_isSome hcomplete
    simp [type?, hcontent, Content.type?] at htype
  | truth => simpa [lead, hcontent] using quote_notMem_fragment_truth hfree hcontent
  | single type =>
    by_cases hquoted : type.isQuoted = true
    · unfold lead
      simp only [hcontent, hquoted, if_true]
      split <;> simp [hfield, htoken]
    · simpa [lead, hcontent, hquoted] using
        quote_notMem_fragment_single hfree hrow hcomplete hcontent hquoted
  | picklist list =>
    unfold lead
    simp only [hcontent]
    split_ifs <;> simp [hfield, htoken]

theorem quote_notMem_trail (row : Row) : '\'' ∉ row.trail.toList := by
  unfold trail
  split
  · split_ifs <;> simp
  · split_ifs <;> simp
  · simp

/-- The fragment of a complete row is scanned as its parts. -/
theorem hasParts_fragment {row : Row} (hfree : row.QuoteFree) (hrow : row.Consistent)
    (hcomplete : row.isComplete = true) : HasParts row.fragment row.parts := by
  rw [fragment_eq]
  have hlead := HasParts.of_plain (quote_notMem_lead hfree hrow hcomplete)
  have hliterals := HasParts.of_literals (by decide : '\'' ∉ ", ".toList) row.quoted
  exact (hlead.append hliterals).append (.of_plain row.quote_notMem_trail)

end Row
end QueryFilter
