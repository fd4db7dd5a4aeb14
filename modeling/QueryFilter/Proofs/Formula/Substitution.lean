import Mathlib.Data.List.SplitBy
import QueryFilter.Proofs.Formula.Filling
import QueryFilter.Proofs.Formula.RoundTrip

/-!
# Filling in a formula is a substitution in its text

A text falls into maximal runs of digits and single other characters. In the text of a
formula the runs of digits are its row numbers, since there are words or parentheses
between any two of them. So a formula filled in is its text with every number replaced
at once, and it cannot be filled in exactly where some number of the text has no
fragment.
-/

namespace QueryFilter
namespace Formula

/-! ### Numbers in a text -/

def bothDigits (a b : Char) : Bool := a.isDigit && b.isDigit

/-- The maximal runs of digits of a text, and every other character by itself. -/
def runs (text : String) : List (List Char) :=
  text.toList.splitBy bothDigits

/-- The number that a run writes, if it is a run of digits. -/
def numberOf? (run : List Char) : Option Nat :=
  if run.all Char.isDigit then some (decimal run) else none

/-- The numbers that a text writes, from left to right. -/
def numbersIn (text : String) : List Nat :=
  (runs text).filterMap numberOf?

/-- What a run becomes when numbers are replaced. -/
def replaceRun (write : Nat → String) (run : List Char) : String :=
  (numberOf? run).elim (String.ofList run) write

/-- A text with every number in it replaced, all of them at once. -/
def replaceNumbers (write : Nat → String) (text : String) : String :=
  String.join ((runs text).map (replaceRun write))

@[simp] theorem runs_empty : runs "" = [] := rfl

theorem runs_of_no_digit {cs : List Char} (h : ∀ c ∈ cs, c.isDigit = false) :
    cs.splitBy bothDigits = cs.map ([·]) := by
  induction cs with
  | nil => rfl
  | cons c cs ih =>
    rw [List.forall_mem_cons] at h
    have hsplit : ([c] ++ cs).splitBy bothDigits = [[c]] ++ cs.splitBy bothDigits :=
      List.splitBy_append fun x hx y _ => by
        cases Option.mem_some.mp hx
        simp [bothDigits, h.1]
    rw [List.singleton_append] at hsplit
    rw [hsplit, ih h.2]
    rfl

theorem runs_toString (n : Nat) : runs (toString n) = [Nat.toDigits 10 n] := by
  rw [runs, Nat.toString_eq_ofList_toDigits, String.toList_ofList]
  refine List.splitBy_of_isChain Nat.toDigits_ne_nil ?_
  refine (List.pairwise_of_forall_mem_list fun a ha b hb => ?_).isChain
  have hdigit {c : Char} (hc : c ∈ Nat.toDigits 10 n) : c.isDigit = true :=
    Nat.isDigit_of_mem_toDigits (by decide) (by decide) hc
  simp [bothDigits, hdigit ha, hdigit hb]

theorem numberOf?_toDigits (n : Nat) : numberOf? (Nat.toDigits 10 n) = some n := by
  have hall : (Nat.toDigits 10 n).all Char.isDigit = true :=
    List.all_eq_true.mpr fun c hc => Nat.isDigit_of_mem_toDigits (by decide) (by decide) hc
  rw [numberOf?, if_pos hall, decimal_toDigits]

theorem numberOf?_singleton {c : Char} (h : c.isDigit = false) : numberOf? [c] = none := by
  simp [numberOf?, h]

/-! ### The runs of a formula's text -/

/-- The runs of a part of a formula's text. -/
def Segment.runs : Segment → List (List Char)
  | words text => text.toList.map ([·])
  | row number => [Nat.toDigits 10 number]

theorem no_digit_of_words : ∀ word ∈ wordsOfFormulas, ∀ c ∈ word.toList, c.isDigit = false := by
  simp [wordsOfFormulas]

/-- No run reaches over the words of a formula. -/
theorem runs_around_words {word : String} (h : word ∈ wordsOfFormulas) (before after : String) :
    runs (before ++ (word ++ after)) =
      runs before ++ ((Segment.words word).runs ++ runs after) := by
  have hdigit := no_digit_of_words word h
  have hne : word.toList ≠ [] := by
    intro hnil
    simp [String.toList_eq_nil_iff.mp hnil, wordsOfFormulas] at h
  have hbefore : ∀ c ∈ before.toList.getLast?, ∀ d ∈ (word.toList ++ after.toList).head?,
      bothDigits c d = false := by
    intro c _ d hd
    rw [List.head?_append_of_ne_nil _ hne] at hd
    simp [bothDigits, hdigit d (List.mem_of_mem_head? hd)]
  have hafter : ∀ c ∈ word.toList.getLast?, ∀ d ∈ after.toList.head?, bothDigits c d = false := by
    intro c hc d _
    simp [bothDigits, hdigit c (List.mem_of_mem_getLast? hc)]
  rw [runs, String.toList_append, String.toList_append, List.splitBy_append hbefore,
    List.splitBy_append hafter, runs_of_no_digit hdigit]
  rfl

theorem runs_intercalate {separator : String} (h : separator ∈ wordsOfFormulas)
    {parts : List Formula}
    (hparts : ∀ part ∈ parts, runs part.text = part.segments.flatMap Segment.runs) :
    runs (separator.intercalate (parts.map text)) =
      ([Segment.words separator].intercalate (parts.map segments)).flatMap Segment.runs := by
  induction parts with
  | nil => rfl
  | cons first rest ih =>
    rw [List.forall_mem_cons] at hparts
    cases rest with
    | nil => simpa using hparts.1
    | cons second rest =>
      rw [List.map_cons, List.map_cons, List.map_cons, List.map_cons,
        String.intercalate_cons_cons, List.intercalate_cons_cons, ← List.map_cons, ← List.map_cons,
        String.append_assoc, runs_around_words h, hparts.1, ih hparts.2]
      simp

mutual

/-- Each row number of a formula is a run of its text by itself. -/
theorem runs_text : ∀ f : Formula, runs f.text = f.segments.flatMap Segment.runs
  | row number => runs_toString number
  | not body => by
    have hmem : "NOT " ∈ wordsOfFormulas := by simp [wordsOfFormulas]
    have hword := runs_around_words hmem "" body.text
    rw [String.empty_append] at hword
    rw [text, hword, runs_text body]
    rfl
  | all parts => by
    rw [text, texts_eq_map, segments, segmentsOf_eq_map]
    exact runs_intercalate (by simp [wordsOfFormulas]) (runs_texts parts)
  | any parts => by
    rw [text, texts_eq_map, segments, segmentsOf_eq_map]
    exact runs_intercalate (by simp [wordsOfFormulas]) (runs_texts parts)
  | group body => by
    have hmem : "(" ∈ wordsOfFormulas ∧ ")" ∈ wordsOfFormulas := by simp [wordsOfFormulas]
    have hopening := runs_around_words hmem.1 "" (body.text ++ ")")
    have hclosing := runs_around_words hmem.2 body.text ""
    rw [String.empty_append] at hopening
    rw [String.append_empty] at hclosing
    rw [text, String.append_assoc, hopening, hclosing, runs_text body]
    simp [segments]

theorem runs_texts : ∀ parts : List Formula, ∀ part ∈ parts,
    runs part.text = part.segments.flatMap Segment.runs
  | [], part, hpart => absurd hpart List.not_mem_nil
  | first :: rest, part, hpart => by
    rcases List.mem_cons.mp hpart with hfirst | hrest
    · rw [hfirst]
      exact runs_text first
    · exact runs_texts rest part hrest

end

/-! ### The numbers of a formula's text -/

theorem filterMap_numberOf?_runs {f : Formula} {part : Segment} (h : part ∈ f.segments) :
    part.runs.filterMap numberOf? = part.number?.toList := by
  cases part with
  | row number => simp [Segment.runs, Segment.number?, numberOf?_toDigits]
  | words text =>
    have hwords := no_digit_of_words text (words_mem_segments f h)
    rw [Segment.runs, List.filterMap_map, Segment.number?, Option.toList_none,
      List.filterMap_eq_nil_iff]
    exact fun c hc => numberOf?_singleton (hwords c hc)

/-- The numbers that the text of a formula writes are its row numbers. -/
theorem numbersIn_text (f : Formula) : numbersIn f.text = f.leaves := by
  have hparts : ∀ part ∈ f.segments, part.runs.filterMap numberOf? = part.number?.toList :=
    fun part hpart => filterMap_numberOf?_runs hpart
  rw [numbersIn, runs_text, List.filterMap_flatMap, List.flatMap_congr hparts,
    ← filterMap_number?_segments, List.filterMap_eq_flatMap_toList]

theorem join_singletons (cs : List Char) :
    String.join (cs.map fun c => String.ofList [c]) = String.ofList cs := by
  induction cs with
  | nil => rfl
  | cons c cs ih => rw [List.map_cons, String.join_cons, ih, ← String.ofList_append,
      List.singleton_append]

theorem join_map_flatMap {α β : Type} {expand : α → List β} {write : β → String}
    {text : α → String} {items : List α}
    (h : ∀ item ∈ items, String.join ((expand item).map write) = text item) :
    String.join ((items.flatMap expand).map write) = String.join (items.map text) := by
  induction items with
  | nil => rfl
  | cons item items ih =>
    rw [List.forall_mem_cons] at h
    rw [List.flatMap_cons, List.map_append, String.join_append, h.1, ih h.2, List.map_cons,
      String.join_cons]

section Replace

variable (fragment : Nat → Option String)

/-- What filling in puts in the place of a row number. -/
def filling (number : Nat) : String :=
  Text.trimStart ((fragment number).getD "")

theorem join_replaced_runs {f : Formula} {part : Segment} (h : part ∈ f.segments) :
    String.join (part.runs.map (replaceRun (filling fragment))) = part.text fragment := by
  cases part with
  | row number => simp [Segment.runs, Segment.text, replaceRun, filling, numberOf?_toDigits]
  | words text =>
    have hwords := no_digit_of_words text (words_mem_segments f h)
    have hkept : ∀ c ∈ text.toList,
        (replaceRun (filling fragment) ∘ ([·])) c = String.ofList [c] := by
      intro c hc
      rw [Function.comp_apply, replaceRun, numberOf?_singleton (hwords c hc), Option.elim_none]
    rw [Segment.runs, List.map_map, Segment.text, List.map_congr_left hkept, join_singletons,
      String.ofList_toList]

theorem replaceNumbers_text (f : Formula) :
    replaceNumbers (filling fragment) f.text = textOf fragment f.segments := by
  rw [replaceNumbers, runs_text, textOf]
  exact join_map_flatMap fun part hpart => join_replaced_runs fragment hpart

end Replace

/-- A formula can be filled in exactly if every row it mentions has a fragment. Then it
becomes its own displayed text with each number in it, a maximal run of digits, replaced
by the row's fragment without the blanks before it, all at once. Otherwise the first
number of the displayed text that has no fragment is reported. -/
theorem fill_eq_substitution (f : Formula) (fragment : Nat → Option String) :
    ∃ shown, f.display = .ok shown ∧
      ((∃ written, f.fill fragment = .ok written) ↔
        ∀ number ∈ f.numbers, (fragment number).isSome = true) ∧
      f.fill fragment =
        ((numbersIn shown).find? fun number => (fragment number).isNone).elim
          (.ok (replaceNumbers (filling fragment) shown))
          (fun number => .error (.incomplete number)) := by
  refine ⟨f.text, f.display_eq, ?_, ?_⟩
  · simp only [fill_eq_ok_iff, mem_numbers]
    constructor
    · rintro ⟨written, hknown, -⟩
      exact hknown
    · intro hknown
      exact ⟨_, hknown, rfl⟩
  · rw [fill_eq, replaceNumbers_text, numbersIn_text, firstMissing?]
    cases f.leaves.find? fun number => (fragment number).isNone <;> rfl

/-- Row 1 is not taken for a part of 10, and a fragment may hold digits and parentheses. -/
example : (all [row 10, group (row 1)]).fill (fun number => some (" x" ++ toString number ++ " > (1")) =
    .ok "x10 > (1 AND (x1 > (1)" := by
  decide +kernel

end Formula
end QueryFilter
