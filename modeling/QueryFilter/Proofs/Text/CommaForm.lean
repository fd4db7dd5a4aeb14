import Mathlib.Data.List.DropRight
import QueryFilter.Text.Pieces

/-!
# Lists of values written with commas

A list of values is written with commas between them, blanks around any of them, and empty
parts anywhere. The entries of a text are a list of values that it is written for, and the
only one whose values keep apart in it: none of them is empty, has a comma, or starts or
ends with a blank.
-/

namespace QueryFilter
namespace Text

/-- A value that a list with commas keeps as it is, and apart from its neighbours. -/
structure IsEntry (value : String) : Prop where
  ne_empty : value ≠ ""
  no_comma : ',' ∉ value.toList
  starts : ∀ c ∈ value.toList.head?, isBlank c = false
  ends : ∀ c ∈ value.toList.getLast?, isBlank c = false

/-- A part between two commas: a value, or none, with blanks around it. -/
structure Padded where
  before : List Char
  entry : String
  after : List Char
  isBlank_before : ∀ c ∈ before, isBlank c = true
  isBlank_after : ∀ c ∈ after, isBlank c = true

def Padded.text (p : Padded) : String :=
  String.ofList p.before ++ p.entry ++ String.ofList p.after

/-- Whether a text is a list of values written with commas. -/
def IsCommaForm (text : String) (values : List String) : Prop :=
  ∃ parts : List Padded, text = ",".intercalate (parts.map Padded.text) ∧
    values = (parts.map Padded.entry).filter fun entry => entry != ""

/-! ### Pieces -/

theorem pieces_eq_splitOnP (isSeparator : Char → Bool) (cs : List Char) :
    pieces isSeparator cs = cs.splitOnP isSeparator := by
  induction cs with
  | nil => rfl
  | cons c cs ih =>
    rw [pieces, List.splitOnP_cons_eq_if_modifyHead, ih]
    split_ifs
    · rfl
    · obtain ⟨piece, rest, hpieces⟩ :=
        List.exists_cons_of_ne_nil (List.splitOnP_ne_nil isSeparator cs)
      rw [hpieces]
      rfl

theorem intercalate_pieces (separator : Char) (cs : List Char) :
    [separator].intercalate (pieces (· == separator) cs) = cs := by
  rw [pieces_eq_splitOnP]
  exact List.intercalate_splitOn separator

theorem pieces_intercalate {separator : Char} {parts : List (List Char)} (hne : parts ≠ [])
    (h : ∀ part ∈ parts, separator ∉ part) :
    pieces (· == separator) ([separator].intercalate parts) = parts := by
  rw [pieces_eq_splitOnP]
  exact List.splitOn_intercalate separator h hne

theorem not_isSeparator_of_mem_pieces {isSeparator : Char → Bool} {cs piece : List Char}
    (h : piece ∈ pieces isSeparator cs) : ∀ c ∈ piece, isSeparator c = false := by
  induction cs generalizing piece with
  | nil =>
    obtain rfl := List.mem_singleton.mp h
    simp
  | cons c cs ih =>
    rw [pieces] at h
    by_cases hc : isSeparator c = true
    · rw [if_pos hc] at h
      rcases List.mem_cons.mp h with rfl | hrest
      · simp
      · exact ih hrest
    · rw [if_neg hc] at h
      obtain ⟨first, rest, hpieces⟩ := List.exists_cons_of_ne_nil (pieces_ne_nil isSeparator cs)
      rw [hpieces] at h ih
      rcases List.mem_cons.mp h with rfl | hrest
      · intro x hx
        rcases List.mem_cons.mp hx with rfl | hx
        · simpa using hc
        · exact ih List.mem_cons_self x hx
      · exact ih (List.mem_cons_of_mem first hrest)

/-! ### Trimming -/

theorem toList_trim_eq (s : String) :
    (trim s).toList = (s.toList.dropWhile isBlank).rdropWhile isBlank :=
  toList_trim s

theorem starts_trim (s : String) : ∀ c ∈ (trim s).toList.head?, isBlank c = false := by
  intro c hc
  rw [toList_trim_eq] at hc
  obtain ⟨dropped, hdropped⟩ := List.rdropWhile_prefix isBlank (s.toList.dropWhile isBlank)
  have hhead : c ∈ (s.toList.dropWhile isBlank).head? := by
    rw [← hdropped]
    exact List.mem_head?_append_of_mem_head? hc
  have hnot := List.head?_dropWhile_not isBlank s.toList
  rw [Option.mem_def.mp hhead] at hnot
  exact hnot

theorem ends_trim (s : String) : ∀ c ∈ (trim s).toList.getLast?, isBlank c = false := by
  intro c hc
  rw [toList_trim_eq] at hc
  obtain ⟨hne, rfl⟩ := List.mem_getLast?_eq_getLast hc
  simpa using List.rdropWhile_last_not isBlank _ hne

/-- A text is its trimmed form with blanks around it. -/
theorem exists_padded (s : String) : ∃ p : Padded, p.text = s ∧ p.entry = trim s := by
  refine ⟨⟨s.toList.takeWhile isBlank, trim s, (s.toList.dropWhile isBlank).rtakeWhile isBlank,
    fun _ => List.mem_takeWhile_imp, fun _ => List.mem_rtakeWhile_imp⟩, ?_, rfl⟩
  apply String.toList_inj.mp
  simp only [Padded.text, String.toList_append, String.toList_ofList, toList_trim_eq,
    List.append_assoc, List.rdropWhile_append_rtakeWhile, List.takeWhile_append_dropWhile]

theorem rdropWhile_append_of_pos {p : Char → Bool} {cs blanks : List Char}
    (h : ∀ c ∈ blanks, p c = true) : (cs ++ blanks).rdropWhile p = cs.rdropWhile p := by
  rw [List.rdropWhile, List.rdropWhile, List.reverse_append,
    List.dropWhile_append_of_pos fun c hc => h c (List.mem_reverse.mp hc)]

theorem mem_of_mem_trim {s : String} {c : Char} (h : c ∈ (trim s).toList) : c ∈ s.toList := by
  rw [toList_trim_eq] at h
  exact (List.dropWhile_sublist isBlank).subset (List.rdropWhile_prefix isBlank _ |>.subset h)

namespace Padded

variable {p : Padded} (hentry : p.entry ≠ "" → IsEntry p.entry)
include hentry

theorem trim_text : trim p.text = p.entry := by
  apply String.toList_inj.mp
  simp only [toList_trim_eq, text, String.toList_append, String.toList_ofList, List.append_assoc]
  rw [List.dropWhile_append_of_pos p.isBlank_before]
  cases hcs : p.entry.toList with
  | nil =>
    rw [List.nil_append, List.dropWhile_eq_nil_iff.mpr p.isBlank_after]
    rfl
  | cons c cs =>
    obtain ⟨-, -, hstarts, hends⟩ := hentry (by rintro h; simp [h] at hcs)
    rw [hcs] at hstarts hends
    have hkept : (c :: (cs ++ p.after)).dropWhile isBlank = c :: (cs ++ p.after) :=
      List.dropWhile_cons_of_neg (by simp [hstarts c rfl])
    rw [List.cons_append, hkept, ← List.cons_append, rdropWhile_append_of_pos p.isBlank_after,
      List.rdropWhile_eq_self_iff]
    intro hne
    simp [hends _ (List.getLast_mem_getLast? hne)]

theorem no_comma_text : ',' ∉ p.text.toList := by
  have hblank : isBlank ',' = false := by decide
  simp only [text, String.toList_append, String.toList_ofList, List.mem_append, not_or]
  refine ⟨⟨fun h => ?_, ?_⟩, fun h => ?_⟩
  · exact absurd (p.isBlank_before _ h) (by simp [hblank])
  · by_cases hempty : p.entry = ""
    · simp [hempty]
    · exact (hentry hempty).no_comma
  · exact absurd (p.isBlank_after _ h) (by simp [hblank])

end Padded

/-! ### Entries -/

theorem isCommaForm_entries (s : String) : IsCommaForm s (entries s) := by
  choose padded htext hentry using exists_padded
  refine ⟨(pieces (· == ',') s.toList).map fun piece => padded (String.ofList piece), ?_, ?_⟩
  · apply String.toList_inj.mp
    rw [String.toList_intercalate, List.map_map, List.map_map]
    simp only [Function.comp_def, htext, String.toList_ofList, List.map_id']
    exact (intercalate_pieces ',' s.toList).symm
  · rw [List.map_map]
    simp only [entries, Function.comp_def, hentry]

theorem isEntry_of_mem_entries {s entry : String} (h : entry ∈ entries s) : IsEntry entry := by
  obtain ⟨hmem, hne⟩ := List.mem_filter.mp h
  obtain ⟨piece, hpiece, rfl⟩ := List.mem_map.mp hmem
  refine ⟨by simpa using hne, fun hcomma => ?_, starts_trim _, ends_trim _⟩
  have hkept := mem_of_mem_trim hcomma
  rw [String.toList_ofList] at hkept
  simpa using not_isSeparator_of_mem_pieces hpiece _ hkept

/-- Values that a list with commas keeps are read back from it. -/
theorem entries_of_isCommaForm {s : String} {values : List String}
    (h : IsCommaForm s values) (hvalues : ∀ value ∈ values, IsEntry value) :
    entries s = values := by
  obtain ⟨parts, rfl, rfl⟩ := h
  have hentry : ∀ p ∈ parts, p.entry ≠ "" → IsEntry p.entry := fun p hp hne =>
    hvalues _ (List.mem_filter.mpr ⟨List.mem_map_of_mem hp, by simpa using hne⟩)
  cases parts with
  | nil => decide
  | cons first rest =>
    have hpieces : pieces (· == ',') (",".intercalate ((first :: rest).map Padded.text)).toList =
        (first :: rest).map fun p => p.text.toList := by
      rw [String.toList_intercalate, List.map_map]
      refine pieces_intercalate (by simp) fun part hpart => ?_
      obtain ⟨p, hp, rfl⟩ := List.mem_map.mp hpart
      exact Padded.no_comma_text (hentry p hp)
    have htrimmed : ((first :: rest).map fun p => trim (String.ofList p.text.toList)) =
        (first :: rest).map Padded.entry :=
      List.map_congr_left fun p hp => by
        rw [String.ofList_toList, Padded.trim_text (hentry p hp)]
    rw [entries, hpieces, List.map_map]
    exact congrArg _ htrimmed

end Text
end QueryFilter
