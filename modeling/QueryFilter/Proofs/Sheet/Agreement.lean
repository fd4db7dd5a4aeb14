import QueryFilter.Proofs.Formula.Listing
import QueryFilter.Proofs.Sheet.WellFormed

/-!
# Arrangements that agree

Where every joiner that counts is the same word, joining the rows by their joiners is
joining them by that word throughout. A formula that lists complete rows gives their
fragments too, each without the blanks before it; a fragment loses no more than its
first space unless its field begins with a blank.
-/

namespace QueryFilter

/-! ### Fragments -/

namespace Text

def startsBlank (s : String) : Bool :=
  s.toList.head?.any isBlank

theorem startsBlank_append {s : String} (h : s ≠ "") (t : String) :
    startsBlank (s ++ t) = startsBlank s := by
  rw [startsBlank, String.toList_append, List.head?_append_of_ne_nil _ (by simpa using h),
    startsBlank]

/-- Trimming drops one space from a text that goes on with no blank. -/
theorem trimStart_space {s : String} (h : startsBlank s = false) :
    trimStart (" " ++ s) = s := by
  have hspace : isBlank ' ' = true := by decide
  have hrest : s.toList.dropWhile isBlank = s.toList := by
    cases hs : s.toList with
    | nil => rfl
    | cons c cs =>
      rw [startsBlank, hs] at h
      exact List.dropWhile_cons_of_neg (by simpa using h)
  rw [trimStart, String.toList_append, show " ".toList = [' '] from rfl, List.singleton_append,
    List.dropWhile_cons_of_pos hspace, hrest, String.ofList_toList]

/-- Texts that each start with one space may be joined without it if the word takes it. -/
theorem intercalate_trimStart {parts : List String} (hne : parts ≠ [])
    (h : ∀ part ∈ parts, part = " " ++ trimStart part) (word : String) :
    word.intercalate parts = " " ++ (word ++ " ").intercalate (parts.map trimStart) := by
  induction parts with
  | nil => exact absurd rfl hne
  | cons first rest ih =>
    rw [List.forall_mem_cons] at h
    cases rest with
    | nil => simpa using h.1
    | cons second rest =>
      calc word.intercalate (first :: second :: rest)
        _ = first ++ word ++ word.intercalate (second :: rest) := String.intercalate_cons_cons
        _ = " " ++ trimStart first ++ word ++
              (" " ++ (word ++ " ").intercalate ((second :: rest).map trimStart)) := by
          rw [ih (by simp) h.2, ← h.1]
        _ = " " ++ (word ++ " ").intercalate ((first :: second :: rest).map trimStart) := by
          simp only [List.map_cons, String.intercalate_cons_cons, String.append_assoc]

end Text

namespace Row

/-- A row with a field that starts with no blank has one space before its fragment. -/
theorem fragment_eq_trimStart {row : Row} (hfield : row.field ≠ "")
    (hblank : Text.startsBlank row.field = false) :
    row.fragment = " " ++ Text.trimStart row.fragment := by
  rcases row.exists_fragment_eq with ⟨rest, hrest⟩ | ⟨rest, hrest⟩
  · rw [hrest, Text.trimStart_space]
    rwa [Text.startsBlank_append hfield]
  · rw [hrest, Text.trimStart_space]
    rw [Text.startsBlank_append (by decide)]
    decide

end Row

/-! ### Sheets -/

namespace Sheet

open Formula (listing listingText)

theorem joinFragments_congr {lead lead' : Row → String} {rows : List Row}
    (h : ∀ row ∈ rows.tail, lead row = lead' row) :
    joinFragments lead rows = joinFragments lead' rows := by
  cases rows with
  | nil => rfl
  | cons first rest =>
    rw [joinFragments, joinFragments, List.map_congr_left]
    intro row hrow
    rw [h row hrow]

/-- Joiners that are one word, where they count, join as that word does throughout. -/
theorem clause_byRow_eq_throughout {s : Sheet} {connective : Connective}
    (h : ∀ row ∈ s.complete.tail, row.joiner = connective) :
    s.clause .byRow = s.clause (.throughout connective) := by
  by_cases hnone : s.complete = []
  · rw [clause_of_complete_eq_nil hnone, clause_of_complete_eq_nil hnone]
  · rw [clause_byRow hnone, clause_throughout hnone,
      joinFragments_congr fun row hrow => congrArg (" " ++ ·.keyword) (h row hrow)]

/-- The condition that complete rows state, each without the blanks before it. -/
def listedBody (connective : Connective) (rows : List Row) : String :=
  " " ++ (" " ++ connective.keyword ++ " ").intercalate
    (rows.map fun row => Text.trimStart row.fragment)

section Complete

variable {s : Sheet} (hcomplete : ∀ row ∈ s.rows, row.isComplete = true)
include hcomplete

theorem complete_eq_rows : s.complete = s.rows :=
  List.filter_eq_self.mpr hcomplete

theorem fragment?_succ (hs : s.InOrder) (index : Nat) :
    s.fragment? (index + 1) = (s.rows[index]?).map Row.fragment := by
  rw [fragment?_eq hs, completeRow?, row?]
  cases hrow : s.rows[index]? with
  | none => rfl
  | some row => rw [Option.filter_some, if_pos (hcomplete row (List.mem_of_getElem? hrow))]

/-- Filled in, the formula that lists all rows has their fragments one after another. -/
theorem textOf_listing (hs : s.InOrder) (connective : Connective) :
    " " ++ Formula.textOf s.fragment? (listing connective s.size).segments =
      listedBody connective s.rows := by
  have hrows : (List.range' 1 s.size).map
      (fun number => Text.trimStart ((s.fragment? number).getD "")) =
      s.rows.map fun row => Text.trimStart row.fragment := by
    apply List.ext_getElem (by simp [size])
    intro index _ hindex
    rw [List.length_map] at hindex
    simp only [List.getElem_map, List.getElem_range', Nat.one_mul, Nat.add_comm 1]
    rw [fragment?_succ hcomplete hs, List.getElem?_eq_getElem hindex]
    rfl
  rw [listedBody, ← hrows, listing, Formula.textOf_joined, List.map_map]
  rfl

theorem clause_listing (hs : s.InOrder) (hne : s.rows ≠ []) (connective : Connective) :
    s.clause (.byFormula (listing connective s.size)) =
      .ok ⟨listedBody connective s.rows, true⟩ := by
  have hnumbers := Formula.mem_numbers_listing connective s.size
  have hflaw := Formula.numbersFlaw?_eq_none_iff.mpr hnumbers
  have hmissing := (firstMissing?_eq_none_iff hs hnumbers).mpr hcomplete
  rw [clause_byFormula (by rwa [complete_eq_rows hcomplete]) hflaw hmissing,
    textOf_listing hcomplete hs]

/-- The text that lists all rows arranges their fragments one after another. -/
theorem formulaBody_listingText (hs : s.InOrder) (hne : s.rows ≠ [])
    (hsmall : s.size ≤ Formula.maxRow) (connective : Connective) :
    s.formulaBody (listingText connective s.size) = .ok (listedBody connective s.rows) := by
  have hsize : 0 < s.size := List.length_pos_of_ne_nil hne
  have hsome : s.complete.isEmpty = false := by
    simpa [complete_eq_rows hcomplete] using hne
  rw [formulaBody, hsome, Formula.check_listingText connective hsize hsmall]
  dsimp only
  rw [clause_listing hcomplete hs hne]
  rfl

theorem clause_throughout_eq_listedBody (hne : s.rows ≠ [])
    (hblank : ∀ row ∈ s.rows, Text.startsBlank row.field = false)
    (connective : Connective) :
    s.clause (.throughout connective) = .ok ⟨listedBody connective s.rows, true⟩ := by
  have hstart : ∀ part ∈ s.rows.map Row.fragment, part = " " ++ Text.trimStart part := by
    intro part hpart
    obtain ⟨row, hrow, rfl⟩ := List.mem_map.mp hpart
    have hfield := (Row.isComplete_iff.mp (hcomplete row hrow)).1
    exact Row.fragment_eq_trimStart hfield (hblank row hrow)
  rw [clause_throughout (by rwa [complete_eq_rows hcomplete]), ← intercalate_fragments,
    complete_eq_rows hcomplete, Text.intercalate_trimStart (by simpa using hne) hstart,
    List.map_map]
  rfl

end Complete

/-- Where the joiners that count are one word, joining by row is joining by that word
throughout. Where all rows are complete, the text that lists them arranges their
fragments one after another, and that is joining by the word throughout unless a field
begins with a blank. The numbers of a formula go no further than `Formula.maxRow`. -/
theorem arrangements_agree (events : List Event) (connective : Connective) :
    let s := new.after events
    ((∀ row ∈ s.complete.tail, row.joiner = connective) →
      s.clause .byRow = s.clause (.throughout connective)) ∧
    (s.size ≤ Formula.maxRow → (∀ row ∈ s.rows, row.isComplete = true) →
      s.formulaBody (listingText connective s.size) = .ok (listedBody connective s.rows) ∧
      ((∀ row ∈ s.rows, Text.startsBlank row.field = false) →
        s.clause (.throughout connective) = .ok ⟨listedBody connective s.rows, true⟩)) := by
  intro s
  have hs : s.InOrder := inOrder_new.after events
  have hne : s.rows ≠ [] := List.ne_nil_of_length_pos (wellFormed_after events).inhabited
  refine ⟨clause_byRow_eq_throughout, fun hsmall hcomplete => ⟨?_, fun hblank => ?_⟩⟩
  · exact formulaBody_listingText hcomplete hs hne hsmall connective
  · exact clause_throughout_eq_listedBody hcomplete hne hblank connective

/-- Two complete rows joined by OR: a condition on each way of joining them. -/
theorem arrangements_agree_two_rows :
    let schema : Schema := ⟨"Account",
      [⟨"Name", "Name", "String", []⟩, ⟨"Area", "Area", "Double", []⟩]⟩
    let events : List Event := [.edit schema (.pointAt 0 "Name"),
      .edit schema (.compareBy 0 .notLike), .edit schema (.enter 0 "Acme"), .edit schema .add,
      .edit schema (.pointAt 1 "Area"), .edit schema (.compareBy 1 .equal),
      .edit schema (.enter 1 "7"), .edit schema (.joinBy 1 .or)]
    let s := new.after events
    let body := " (NOT Name LIKE  '%Acme%') OR Area = 7"
    s.clause .byRow = .ok ⟨body, true⟩ ∧ s.clause (.throughout .or) = .ok ⟨body, true⟩ ∧
      s.formulaBody "1 OR 2" = .ok body := by
  intro schema events s body
  obtain ⟨hrow, hformula⟩ := arrangements_agree events .or
  obtain ⟨hlisted, hthroughout⟩ := hformula (by decide +kernel) (by decide +kernel)
  have hbody : listedBody .or s.rows = body := by decide +kernel
  have hbody' := hthroughout (by decide +kernel)
  rw [hbody] at hbody'
  refine ⟨?_, hbody', ?_⟩
  · rw [hrow (by decide +kernel), hbody']
  · have htext : listingText .or s.size = "1 OR 2" := by decide +kernel
    rw [← htext, hlisted, hbody]

end Sheet
end QueryFilter
