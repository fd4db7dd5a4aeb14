import Mathlib.Data.List.Basic
import QueryFilter.Text.Blank
import QueryFilter.Text.Quoted

/-!
# The literals of a text

A text is scanned from left to right: a quote opens a literal, and inside it a
backslash takes the next character as it is and any other quote closes it. So the
parts of a text are the characters outside literals and the values of the literals.
A text that is put together from texts without open literals has their parts.
-/

namespace QueryFilter
namespace Text

/-- A part of a text: a character outside literals, or a literal with its value. -/
inductive Part
  | outside (c : Char)
  | literal (value : String)
  deriving DecidableEq

namespace Part

def value? : Part → Option String
  | outside _ => none
  | literal value => some value

/-- The character of a part outside literals. -/
def char? : Part → Option Char
  | outside c => some c
  | literal _ => none

def isBlank : Part → Bool
  | outside c => Text.isBlank c
  | literal _ => false

end Part

/-- Where the scan of a text has got to. A literal that is open has its value so far. -/
inductive Scanner
  | outside
  | inside (value : List Char)
  | escaped (value : List Char)
  deriving DecidableEq

namespace Scanner

/-- Scans one more character, with the part that it ends, if any. -/
def next : Scanner → Char → Scanner × List Part
  | outside, c => if c = '\'' then (inside [], []) else (outside, [.outside c])
  | inside value, c =>
    if c = '\'' then (outside, [.literal (String.ofList value)])
    else if c = '\\' then (escaped value, [])
    else (inside (value ++ [c]), [])
  | escaped value, c => (inside (value ++ [c]), [])

/-- Scans more characters. -/
def scan (s : Scanner) : List Char → Scanner × List Part
  | [] => (s, [])
  | c :: cs =>
    let (after, parts) := s.next c
    let (last, rest) := after.scan cs
    (last, parts ++ rest)

@[simp] theorem scan_nil (s : Scanner) : s.scan [] = (s, []) := rfl

@[simp] theorem scan_cons (s : Scanner) (c : Char) (cs : List Char) :
    s.scan (c :: cs) =
      (((s.next c).1.scan cs).1, (s.next c).2 ++ ((s.next c).1.scan cs).2) := rfl

theorem scan_append (s : Scanner) (cs ds : List Char) :
    s.scan (cs ++ ds) =
      (((s.scan cs).1.scan ds).1, (s.scan cs).2 ++ ((s.scan cs).1.scan ds).2) := by
  induction cs generalizing s with
  | nil => simp
  | cons c cs ih => simp [ih]

theorem scan_plain {cs : List Char} (h : '\'' ∉ cs) :
    outside.scan cs = (outside, cs.map .outside) := by
  induction cs with
  | nil => rfl
  | cons c cs ih =>
    rw [List.mem_cons, not_or] at h
    have hc : outside.next c = (outside, [.outside c]) := if_neg (Ne.symm h.1)
    rw [scan_cons, hc, ih h.2]
    rfl

/-- An escaped value is taken in as it was. -/
theorem scan_escape (value cs : List Char) :
    (inside value).scan (escape cs) = (inside (value ++ cs), []) := by
  induction cs generalizing value with
  | nil => simp [escape]
  | cons c cs ih =>
    unfold escape
    split_ifs with h
    · simp [next, ih]
    · rw [not_or] at h
      simp [next, h.1, h.2, ih]

/-- A character closes an open literal, or belongs to it and ends no part. -/
theorem next_of_ne_outside {s : Scanner} (h : s ≠ outside) (c : Char) :
    (∃ value, s.next c = (outside, [.literal value])) ∨
      ∃ after, after ≠ outside ∧ s.next c = (after, []) := by
  cases s with
  | outside => exact absurd rfl h
  | inside value =>
    simp only [next]
    split_ifs
    · exact .inl ⟨_, rfl⟩
    · exact .inr ⟨escaped value, by simp, rfl⟩
    · exact .inr ⟨inside (value ++ [c]), by simp, rfl⟩
  | escaped value => exact .inr ⟨inside (value ++ [c]), by simp, rfl⟩

/-- An open literal is the first part that the scan ends. -/
theorem exists_literal_of_ne_outside {s : Scanner} (hs : s ≠ outside) {cs : List Char}
    {parts : List Part} (h : s.scan cs = (outside, parts)) :
    ∃ value rest, parts = .literal value :: rest := by
  induction cs generalizing s with
  | nil => exact absurd (congrArg Prod.fst h) hs
  | cons c cs ih =>
    rw [scan_cons] at h
    rcases next_of_ne_outside hs c with ⟨value, hc⟩ | ⟨after, hafter, hc⟩
    · rw [hc] at h
      exact ⟨value, _, (congrArg Prod.snd h).symm⟩
    · rw [hc] at h
      exact ih hafter h

end Scanner

/-- Whether a text does not end inside a literal and has some parts. -/
def HasParts (text : String) (parts : List Part) : Prop :=
  Scanner.outside.scan text.toList = (.outside, parts)

instance (text : String) (parts : List Part) : Decidable (HasParts text parts) :=
  inferInstanceAs (Decidable (Scanner.outside.scan text.toList = (.outside, parts)))

/-- The values of the literals among some parts, in order. -/
def values (parts : List Part) : List String :=
  parts.filterMap Part.value?

/-- What stands outside literals, with a place kept for each literal. -/
def mask (parts : List Part) : List (Option Char) :=
  parts.map Part.char?

/-- The parts of a text without quotes. -/
def plain (text : String) : List Part :=
  text.toList.map .outside

/-- The parts of literals with a separator between them. -/
def literals (separator : String) (values : List String) : List Part :=
  (plain separator).intercalate (values.map fun value => [.literal value])

section Parts

variable (first second : List Part) (value text : String)

@[simp] theorem values_nil : values [] = [] := rfl

@[simp] theorem values_append : values (first ++ second) = values first ++ values second :=
  List.filterMap_append

@[simp] theorem values_literal : values [.literal value] = [value] := rfl

@[simp] theorem values_plain : values (plain text) = [] := by
  simp [values, plain, Part.value?]

@[simp] theorem mask_nil : mask [] = [] := rfl

@[simp] theorem mask_append : mask (first ++ second) = mask first ++ mask second :=
  List.map_append

@[simp] theorem mask_literal : mask [.literal value] = [none] := rfl

theorem values_flatMap {α : Type} (parts : α → List Part) (items : List α) :
    values (items.flatMap parts) = items.flatMap fun item => values (parts item) :=
  List.filterMap_flatMap

theorem mask_flatMap {α : Type} (parts : α → List Part) (items : List α) :
    mask (items.flatMap parts) = items.flatMap fun item => mask (parts item) :=
  List.map_flatMap

@[simp] theorem literals_cons_cons (separator : String) (a b : String) (rest : List String) :
    literals separator (a :: b :: rest) =
      .literal a :: (plain separator ++ literals separator (b :: rest)) :=
  List.intercalate_cons_cons.trans (by simp [literals])

@[simp] theorem values_literals (separator : String) (items : List String) :
    values (literals separator items) = items := by
  induction items with
  | nil => rfl
  | cons a rest ih =>
    cases rest with
    | nil => simp [literals]
    | cons b rest =>
      rw [literals_cons_cons, ← List.singleton_append, values_append, values_append, ih]
      simp

/-- What stands outside some literals depends only on how many they are. -/
theorem mask_literals (separator : String) (items : List String) :
    mask (literals separator items) =
      (mask (plain separator)).intercalate (List.replicate items.length [none]) := by
  induction items with
  | nil => rfl
  | cons a rest ih =>
    cases rest with
    | nil => simp [literals]
    | cons b rest =>
      have hlength : List.replicate (a :: b :: rest).length [(none : Option Char)] =
          [none] :: [none] :: List.replicate rest.length [none] := rfl
      rw [literals_cons_cons, ← List.singleton_append, mask_append, mask_append, ih, hlength,
        List.intercalate_cons_cons]
      simp [List.replicate_succ]

theorem values_dropWhile (parts : List Part) :
    values (parts.dropWhile Part.isBlank) = values parts := by
  induction parts with
  | nil => rfl
  | cons part parts ih =>
    cases part with
    | literal value => rfl
    | outside c =>
      rw [List.dropWhile_cons]
      split_ifs
      · exact ih
      · rfl

theorem mask_dropWhile (parts : List Part) :
    mask (parts.dropWhile Part.isBlank) = (mask parts).dropWhile (Option.any isBlank) := by
  rw [mask, mask, List.dropWhile_map]
  congr 2
  funext part
  cases part <;> rfl

end Parts

namespace HasParts

variable {s t : String} {first second : List Part}

theorem unique (hs : HasParts s first) (hs' : HasParts s second) : first = second :=
  congrArg Prod.snd (hs.symm.trans hs')

theorem append (hs : HasParts s first) (ht : HasParts t second) :
    HasParts (s ++ t) (first ++ second) := by
  unfold HasParts at hs ht ⊢
  rw [String.toList_append, Scanner.scan_append, hs, ht]

theorem of_plain (h : '\'' ∉ s.toList) : HasParts s (plain s) :=
  Scanner.scan_plain h

theorem of_quote (value : String) : HasParts (quote value) [.literal value] := by
  unfold HasParts
  rw [toList_quote, Scanner.scan_append]
  simp [Scanner.next, Scanner.scan_escape]

theorem of_literals {separator : String} (h : '\'' ∉ separator.toList) (items : List String) :
    HasParts (separator.intercalate (items.map quote)) (literals separator items) := by
  induction items with
  | nil => rfl
  | cons a rest ih =>
    cases rest with
    | nil => simpa [literals] using of_quote a
    | cons b rest =>
      rw [List.map_cons, List.map_cons, String.intercalate_cons_cons, literals_cons_cons,
        String.append_assoc]
      exact (of_quote a).append ((of_plain h).append ih)

theorem join {α : Type} {texts : α → String} {parts : α → List Part} {items : List α}
    (h : ∀ item ∈ items, HasParts (texts item) (parts item)) :
    HasParts (String.join (items.map texts)) (items.flatMap parts) := by
  induction items with
  | nil => rfl
  | cons item items ih =>
    rw [List.forall_mem_cons] at h
    rw [List.map_cons, String.join_cons, List.flatMap_cons]
    exact h.1.append (ih h.2)

/-- Blanks stand outside literals, so trimming drops nothing else. -/
theorem trimStart (h : HasParts s first) :
    HasParts (Text.trimStart s) (first.dropWhile Part.isBlank) := by
  unfold HasParts at h ⊢
  rw [toList_trimStart]
  generalize s.toList = cs at h
  induction cs generalizing first with
  | nil =>
    cases h
    rfl
  | cons c cs ih =>
    by_cases hquote : c = '\''
    · subst hquote
      have hopen : (Scanner.inside []).scan cs = (.outside, first) := h
      obtain ⟨value, rest, rfl⟩ := Scanner.exists_literal_of_ne_outside (by simp) hopen
      exact h
    · have hc : Scanner.outside.next c = (.outside, [.outside c]) := if_neg hquote
      rw [Scanner.scan_cons, hc] at h
      obtain ⟨hlast, rfl⟩ := Prod.mk.inj h
      change _ = (Scanner.outside, List.dropWhile Part.isBlank (.outside c :: _))
      by_cases hblank : isBlank c = true
      · have hpart : (Part.outside c).isBlank = true := hblank
        rw [List.dropWhile_cons_of_pos hblank, List.dropWhile_cons_of_pos hpart]
        exact ih (Prod.ext hlast rfl)
      · have hpart : ¬ (Part.outside c).isBlank = true := hblank
        rw [List.dropWhile_cons_of_neg hblank, List.dropWhile_cons_of_neg hpart,
          Scanner.scan_cons, hc]
        exact Prod.ext hlast rfl

end HasParts

end Text
end QueryFilter
