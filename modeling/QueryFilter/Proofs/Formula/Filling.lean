import QueryFilter.Formula.Check

/-!
# Filling in a formula

The text of a formula is made of words and of row numbers. A formula filled in has
the same words, with the fragments of the rows in the places of their numbers. It
can be filled in when each row it mentions has a fragment; otherwise the first row
in reading order that has none is reported.
-/

namespace QueryFilter
namespace Formula

/-- A part of a formula's text: words and parentheses as they are, or a row. -/
inductive Segment
  | words (text : String)
  | row (number : Nat)

mutual

/-- The parts of a formula's text, in order. -/
def segments : Formula → List Segment
  | row number => [.row number]
  | not body => .words "NOT " :: segments body
  | all parts => [Segment.words " AND "].intercalate (segmentsOf parts)
  | any parts => [Segment.words " OR "].intercalate (segmentsOf parts)
  | group body => .words "(" :: (segments body ++ [.words ")"])

def segmentsOf : List Formula → List (List Segment)
  | [] => []
  | part :: rest => segments part :: segmentsOf rest

end

namespace Segment

def number? : Segment → Option Nat
  | words _ => none
  | row number => some number

/-- The text of a part where a row has a fragment. -/
def text (fragment : Nat → Option String) : Segment → String
  | words text => text
  | row number => Text.trimStart ((fragment number).getD "")

end Segment

/-- The text of some parts where rows have fragments. -/
def textOf (fragment : Nat → Option String) (parts : List Segment) : String :=
  String.join (parts.map (Segment.text fragment))

section Text

variable (fragment : Nat → Option String)

@[simp] theorem textOf_append (first second : List Segment) :
    textOf fragment (first ++ second) = textOf fragment first ++ textOf fragment second := by
  simp [textOf]

@[simp] theorem textOf_words (text : String) : textOf fragment [.words text] = text := by
  simp [textOf, Segment.text]

theorem textOf_intercalate (text : String) (parts : List (List Segment)) :
    textOf fragment ([Segment.words text].intercalate parts) =
      text.intercalate (parts.map (textOf fragment)) := by
  induction parts with
  | nil => rfl
  | cons first rest ih =>
    cases rest with
    | nil => simp
    | cons second rest =>
      rw [List.intercalate_cons_cons, textOf_append, textOf_append, textOf_words, ih,
        List.map_cons, List.map_cons, List.map_cons, String.intercalate_cons_cons]

end Text

theorem filterMap_number?_intercalate (text : String) (parts : List (List Segment)) :
    ([Segment.words text].intercalate parts).filterMap Segment.number? =
      parts.flatMap (List.filterMap Segment.number?) := by
  induction parts with
  | nil => rfl
  | cons first rest ih =>
    cases rest with
    | nil => simp
    | cons second rest =>
      rw [List.intercalate_cons_cons, List.filterMap_append, List.filterMap_append, ih]
      simp [Segment.number?]

mutual

theorem filterMap_number?_segments : ∀ f : Formula,
    f.segments.filterMap Segment.number? = f.leaves
  | row number => rfl
  | not body => filterMap_number?_segments body
  | all parts => by
    rw [segments, filterMap_number?_intercalate, flatMap_number?_segmentsOf parts]
    rfl
  | any parts => by
    rw [segments, filterMap_number?_intercalate, flatMap_number?_segmentsOf parts]
    rfl
  | group body => by
    have hbody := filterMap_number?_segments body
    rw [segments, List.filterMap_cons, List.filterMap_append, hbody]
    simp [Segment.number?, leaves]

theorem flatMap_number?_segmentsOf : ∀ parts : List Formula,
    (segmentsOf parts).flatMap (List.filterMap Segment.number?) = leavesOf parts
  | [] => rfl
  | part :: rest => by
    rw [segmentsOf, List.flatMap_cons, filterMap_number?_segments part,
      flatMap_number?_segmentsOf rest]
    rfl

end

theorem segmentsOf_eq_map (parts : List Formula) : segmentsOf parts = parts.map segments := by
  induction parts with
  | nil => rfl
  | cons part rest ih => rw [segmentsOf, ih, List.map_cons]

/-! ### The words of a formula -/

/-- What stands between the row numbers of formulas. -/
def wordsOfFormulas : List String := ["NOT ", " AND ", " OR ", "(", ")"]

theorem words_mem_intercalate {separator text : String} {parts : List (List Segment)}
    (h : Segment.words text ∈ [Segment.words separator].intercalate parts) :
    text = separator ∨ ∃ part ∈ parts, Segment.words text ∈ part := by
  induction parts with
  | nil => simp at h
  | cons first rest ih =>
    cases rest with
    | nil => exact .inr ⟨first, by simp, by simpa using h⟩
    | cons second rest =>
      rw [List.intercalate_cons_cons, List.append_assoc] at h
      rcases List.mem_append.mp h with hfirst | h
      · exact .inr ⟨first, by simp, hfirst⟩
      · rcases List.mem_cons.mp h with hseparator | h
        · cases hseparator
          exact .inl rfl
        · rcases ih h with hseparator | ⟨part, hpart, htext⟩
          · exact .inl hseparator
          · exact .inr ⟨part, List.mem_cons_of_mem first hpart, htext⟩

mutual

theorem words_mem_segments {text : String} : ∀ f : Formula,
    Segment.words text ∈ f.segments → text ∈ wordsOfFormulas
  | row number, h => by simp [segments] at h
  | not body, h => by
    rcases List.mem_cons.mp h with hword | hbody
    · cases hword
      simp [wordsOfFormulas]
    · exact words_mem_segments body hbody
  | all parts, h => by
    rcases words_mem_intercalate h with rfl | ⟨part, hpart, htext⟩
    · simp [wordsOfFormulas]
    · exact words_mem_segmentsOf parts part hpart htext
  | any parts, h => by
    rcases words_mem_intercalate h with rfl | ⟨part, hpart, htext⟩
    · simp [wordsOfFormulas]
    · exact words_mem_segmentsOf parts part hpart htext
  | group body, h => by
    rcases List.mem_cons.mp h with hopening | h
    · cases hopening
      simp [wordsOfFormulas]
    · rcases List.mem_append.mp h with hbody | hclosing
      · exact words_mem_segments body hbody
      · cases List.mem_singleton.mp hclosing
        simp [wordsOfFormulas]

theorem words_mem_segmentsOf {text : String} : ∀ parts : List Formula,
    ∀ part ∈ segmentsOf parts, Segment.words text ∈ part → text ∈ wordsOfFormulas
  | [], part, hpart, _ => by simp [segmentsOf] at hpart
  | first :: rest, part, hpart, h => by
    rcases List.mem_cons.mp hpart with rfl | hrest
    · exact words_mem_segments first h
    · exact words_mem_segmentsOf rest part hrest h

end

/-! ### Rows without a fragment -/

/-- The first of some rows that has no fragment. -/
def firstMissing? (fragment : Nat → Option String) (numbers : List Nat) : Option Nat :=
  numbers.find? fun number => (fragment number).isNone

/-- What filling in gives where rows without a fragment are looked for first. -/
def filledUnless {α : Type} (missing : Option Nat) (filled : α) : Except Flaw α :=
  match missing with
  | some number => .error (.incomplete number)
  | none => .ok filled

theorem map_filledUnless {α β : Type} (missing : Option Nat) (filled : α) (g : α → β) :
    (filledUnless missing filled).map g = filledUnless missing (g filled) := by
  cases missing <;> rfl

mutual

/-- A formula is filled in part by part. -/
theorem fill_eq (fragment : Nat → Option String) : ∀ f : Formula,
    f.fill fragment =
      filledUnless (firstMissing? fragment f.leaves) (textOf fragment f.segments)
  | row number => by
    cases h : fragment number with
    | none => simp [fill, leaves, firstMissing?, filledUnless, h]
    | some written =>
      simp [fill, leaves, firstMissing?, filledUnless, h, textOf, segments, Segment.text]
  | not body => by
    rw [fill, fill_eq fragment body, map_filledUnless]
    simp [leaves, segments, textOf, Segment.text]
  | all parts => by
    rw [fill, fillEach_eq fragment parts, map_filledUnless, segments, textOf_intercalate]
    rfl
  | any parts => by
    rw [fill, fillEach_eq fragment parts, map_filledUnless, segments, textOf_intercalate]
    rfl
  | group body => by
    rw [fill, fill_eq fragment body, map_filledUnless]
    simp [leaves, segments, textOf, Segment.text, String.append_assoc]

theorem fillEach_eq (fragment : Nat → Option String) : ∀ parts : List Formula,
    fillEach fragment parts =
      filledUnless (firstMissing? fragment (leavesOf parts))
        ((segmentsOf parts).map (textOf fragment))
  | [] => rfl
  | part :: rest => by
    rw [fillEach, fill_eq fragment part, fillEach_eq fragment rest]
    simp only [map_filledUnless, leavesOf, firstMissing?, List.find?_append]
    cases part.leaves.find? fun number => (fragment number).isNone <;> rfl

end

theorem firstMissing?_eq_none_iff {fragment : Nat → Option String} {numbers : List Nat} :
    firstMissing? fragment numbers = none ↔
      ∀ number ∈ numbers, (fragment number).isSome = true := by
  simp [firstMissing?, Option.isSome_iff_ne_none]

theorem fill_eq_ok_iff {fragment : Nat → Option String} {f : Formula} {written : String} :
    f.fill fragment = .ok written ↔
      (∀ number ∈ f.leaves, (fragment number).isSome = true) ∧
        written = textOf fragment f.segments := by
  rw [fill_eq, ← firstMissing?_eq_none_iff]
  cases firstMissing? fragment f.leaves with
  | none => simp [filledUnless, eq_comm]
  | some number => simp [filledUnless]

end Formula
end QueryFilter
