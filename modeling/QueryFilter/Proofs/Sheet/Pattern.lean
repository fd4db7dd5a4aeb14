import QueryFilter.Proofs.Sheet.Order
import QueryFilter.Proofs.Text.Literals
import QueryFilter.Sheet.Fragment

/-!
# Rows matched against a pattern

Which comparisons a row takes and how its value is written are decided by two separate
properties of its type. They agree on every type that can be matched against a pattern
but one: a text is matched against a quoted pattern that it contains, and an address,
whose values are not quoted, is compared with its value as it was entered.
-/

namespace QueryFilter

namespace FieldType

theorem isQuoted_of_mem_matchable {type : FieldType} (h : type ∈ matchable)
    (hne : type ≠ address) : type.isQuoted = true := by
  cases type <;> simp_all [matchable, isQuoted]

theorem shape_of_mem_matchable {type : FieldType} (h : type ∈ matchable) :
    type.shape = .single := by
  cases type <;> simp_all [matchable, shape]

end FieldType

namespace Row

/-- Whether a row's condition is a match or a negated match. -/
def IsMatch (row : Row) : Prop :=
  row.comparison = some .like ∨ row.comparison = some .notLike

/-- The condition of a row matches its field against one literal, whose value is the
row's value between wildcards. A negated match is the negation of a match. -/
def MatchesPattern (row : Row) : Prop :=
  ∃ pattern, Text.HasParts pattern [.literal ("%" ++ row.value ++ "%")] ∧
    (row.comparison = some .like → row.fragment = " " ++ row.field ++ " LIKE " ++ pattern) ∧
    (row.comparison = some .notLike →
      row.fragment = " (NOT " ++ row.field ++ " LIKE  " ++ pattern ++ ")")

variable {row : Row}

/-- A comparison that is a match is held by a row for single values of a type that can
be matched. -/
theorem Consistent.content_of_isMatch (h : row.Consistent) (hmatch : row.IsMatch) :
    ∃ type, row.content = .single type ∧ type ∈ FieldType.matchable := by
  obtain ⟨type, htype, hmatchable⟩ :
      ∃ type, row.type? = some type ∧ type ∈ FieldType.matchable := by
    rcases hmatch with hlike | hnotLike
    · obtain ⟨type, htype, hadmits⟩ := h.admitted .like hlike
      exact ⟨type, htype, Comparison.mem_types.mpr hadmits⟩
    · obtain ⟨type, htype, hadmits⟩ := h.admitted .notLike hnotLike
      exact ⟨type, htype, Comparison.mem_types.mpr hadmits⟩
  have hshape := FieldType.shape_of_mem_matchable hmatchable
  cases hcontent : row.content with
  | single held =>
    rw [type?, hcontent] at htype
    cases htype
    exact ⟨type, rfl, hmatchable⟩
  | unresolved =>
    rw [type?, hcontent] at htype
    cases htype
  | truth | picklist =>
    -- the type of such a row is not one of single values
    rw [type?, hcontent] at htype
    cases htype
    cases hshape

theorem matchesPattern_of_isQuoted {type : FieldType} (hcontent : row.content = .single type)
    (hquoted : type.isQuoted = true) : row.MatchesPattern := by
  refine ⟨Text.quote ("%" ++ row.value ++ "%"), .of_quote _, fun hlike => ?_, fun hnotLike => ?_⟩
  · simp [fragment, hcontent, hquoted, Fragment.ofText, hlike]
  · simp [fragment, hcontent, hquoted, Fragment.ofText, hnotLike]

theorem fragment_of_not_isQuoted {type : FieldType} (hcontent : row.content = .single type)
    (hquoted : type.isQuoted = false) (hcomplete : row.isComplete = true) :
    row.fragment = " " ++ row.field ++ " " ++ Fragment.token row.comparison ++ " " ++ row.value := by
  have hvalue : row.value ≠ "" := by
    obtain ⟨-, -, hvalue | hselected⟩ := isComplete_iff.mp hcomplete
    · exact hvalue
    · simp [hcontent, Content.selected] at hselected
  simp [fragment, hcontent, hquoted, Fragment.verbatim, hvalue]

end Row

namespace Sheet

/-- In every sheet that events lead to, a complete row that is a match or a negated match
is one of a quoted pattern unless its field holds addresses. The value of an address
stands after the comparison's own token, without quotes and wildcards. -/
theorem match_of_run (events : List Event) (row : Row) (hrow : row ∈ (new.after events).complete)
    (hmatch : row.IsMatch) :
    (row.type? ≠ some .address → row.MatchesPattern) ∧
      (row.type? = some .address → row.fragment =
        " " ++ row.field ++ " " ++ Fragment.token row.comparison ++ " " ++ row.value) := by
  obtain ⟨hmem, hcomplete⟩ := List.mem_filter.mp hrow
  have hconsistent := (inOrder_new.after events).consistent row hmem
  obtain ⟨type, hcontent, hmatchable⟩ := hconsistent.content_of_isMatch hmatch
  have htype : row.type? = some type := by
    rw [Row.type?, hcontent]
    rfl
  rw [htype]
  constructor
  · intro hne
    have hquoted := FieldType.isQuoted_of_mem_matchable hmatchable fun h => hne (congrArg some h)
    exact Row.matchesPattern_of_isQuoted hcontent hquoted
  · intro haddress
    cases haddress
    exact Row.fragment_of_not_isQuoted hcontent rfl hcomplete

/-- A text that must not contain a value with a quote in it, and an address. -/
theorem match_of_run_two_rows :
    let schema : Schema := ⟨"Account", [⟨"Name", "Name", "String", []⟩,
      ⟨"Billing Address", "BillingAddress", "Address", []⟩]⟩
    let events : List Event := [.pointAt 0 "Name", .compareBy 0 .notLike, .enter 0 "O'Brien", .add,
      .pointAt 1 "BillingAddress", .compareBy 1 .like, .enter 1 "Main"].map (Event.edit schema)
    let text : Row := ⟨0, 1, 1, "Name", some .notLike, "O'Brien", .and, .single .string⟩
    let address : Row := ⟨1, 1, 2, "BillingAddress", some .like, "Main", .and, .single .address⟩
    ((new.after events).complete = [text, address] ∧ text.IsMatch ∧ address.IsMatch) ∧
      text.MatchesPattern ∧ address.fragment = " BillingAddress LIKE Main" := by
  intro schema events text address
  have hcomplete : (new.after events).complete = [text, address] := by decide +kernel
  have htext : text.IsMatch := .inr rfl
  have haddress : address.IsMatch := .inl rfl
  refine ⟨⟨hcomplete, htext, haddress⟩, ?_, ?_⟩
  · exact (match_of_run events text (by simp [hcomplete]) htext).1 (by decide)
  · exact (match_of_run events address (by simp [hcomplete]) haddress).2 rfl

/-- An address is compared with its value as it was entered, whether it must match the
value or must not. -/
theorem address_matches_no_pattern :
    let schema : Schema := ⟨"Account", [⟨"Billing Address", "BillingAddress", "Address", []⟩]⟩
    let events (comparison : Comparison) : List Event :=
      [.pointAt 0 "BillingAddress", .compareBy 0 comparison, .enter 0 "Main"].map
        (Event.edit schema)
    let row (comparison : Comparison) : Row :=
      ⟨0, 1, 1, "BillingAddress", some comparison, "Main", .and, .single .address⟩
    ((new.after (events .like)).complete = [row .like] ∧
        (row .like).fragment = " BillingAddress LIKE Main" ∧ ¬ (row .like).MatchesPattern) ∧
      (new.after (events .notLike)).complete = [row .notLike] ∧
        (row .notLike).fragment = " BillingAddress NOT LIKE Main" ∧
          ¬ (row .notLike).MatchesPattern := by
  intro schema events row
  refine ⟨⟨by decide +kernel, by decide +kernel, ?_⟩, by decide +kernel, by decide +kernel, ?_⟩
  · rintro ⟨pattern, hparts, hlike, -⟩
    have hfragment : " BillingAddress LIKE " ++ "Main" = " BillingAddress LIKE " ++ pattern :=
      hlike rfl
    rw [← (String.append_right_inj _).mp hfragment] at hparts
    exact absurd (hparts.unique (.of_plain (by decide))) (by decide)
  · rintro ⟨pattern, -, -, hnotLike⟩
    have hfragment := congrArg String.toList (hnotLike rfl)
    simp [row, Row.fragment, FieldType.isQuoted, Fragment.verbatim, Fragment.token] at hfragment

end Sheet
end QueryFilter
