import QueryFilter.Proofs.Formula.Layout

/-!
# The tokens of a written formula

The text of every formula has the tokens that the formula's nodes put there, also
where the text is no formula. Each part is followed by a blank, a parenthesis or
the end, so its tokens are the same wherever it stands.
-/

namespace QueryFilter
namespace Formula

mutual

/-- The tokens that a formula is written with. -/
def tokens : Formula → List Token
  | row number => [.number (Nat.toDigits 10 number)]
  | not body => .not :: tokens body
  | all parts => [Token.and].intercalate (tokensOf parts)
  | any parts => [Token.or].intercalate (tokensOf parts)
  | group body => .opening :: (tokens body ++ [.closing])

def tokensOf : List Formula → List (List Token)
  | [] => []
  | part :: rest => tokens part :: tokensOf rest

end

@[simp] theorem tokensOf_eq_map (parts : List Formula) : tokensOf parts = parts.map tokens := by
  induction parts with
  | nil => rfl
  | cons part rest ih => simp [tokensOf, ih]

/-- Whether some characters have some tokens wherever no letter or digit follows. -/
def WrittenAs (written : List Char) (ts : List Token) : Prop :=
  ∀ rest, (∀ c ∈ rest.head?, c.isAlphanum = false) → scan (written ++ rest) = ts ++ scan rest

namespace WrittenAs

variable {written written' : List Char} {ts ts' : List Token}

theorem scan_eq (h : WrittenAs written ts) : scan written = ts := by
  simpa using h [] (by simp)

theorem nil : WrittenAs [] [] := by
  intro rest _
  rfl

theorem number (n : Nat) : WrittenAs (Nat.toDigits 10 n) [.number (Nat.toDigits 10 n)] := by
  intro rest hrest
  have hspells : (Token.number (Nat.toDigits 10 n)).Spells (Nat.toDigits 10 n) :=
    ⟨rfl, Nat.toDigits_ne_nil, fun c hc =>
      Nat.isDigit_of_mem_toDigits (by decide) (by decide) hc⟩
  have hends : (Token.number (Nat.toDigits 10 n)).EndsBefore rest := by
    intro c hc
    have hword := hrest c hc
    rw [Char.isAlphanum, Bool.or_eq_false_iff] at hword
    exact hword.2
  exact scan_spelling hspells hends

theorem negation (h : WrittenAs written ts) :
    WrittenAs ("NOT ".toList ++ written) (.not :: ts) := by
  intro rest hrest
  have hspells : Token.not.Spells ['N', 'O', 'T'] := Token.spells_not.mpr (by decide)
  have hword : scan (['N', 'O', 'T'] ++ (' ' :: (written ++ rest))) =
      .not :: scan (' ' :: (written ++ rest)) := scan_spelling hspells (by simp [Token.EndsBefore])
  rw [scan_skipped (by decide), h rest hrest] at hword
  simpa using hword

theorem grouped (h : WrittenAs written ts) :
    WrittenAs ('(' :: (written ++ [')'])) (.opening :: (ts ++ [.closing])) := by
  intro rest _
  have hopening := scan_character (c := '(') (by decide) (by decide) (written ++ (')' :: rest))
  have hclosing := scan_character (c := ')') (by decide) (by decide) rest
  rw [h (')' :: rest) (by simp), hclosing] at hopening
  simpa [Token.ofCharacter] using hopening

/-- Two parts with a word between them, which has a blank on either side. -/
theorem joined {t : Token} {word : List Char} (ht : t = .and ∨ t = .or ∨ t = .not)
    (hword : t.Spells word) (h : WrittenAs written ts) (h' : WrittenAs written' ts') :
    WrittenAs (written ++ ([' '] ++ word ++ [' '] ++ written')) (ts ++ t :: ts') := by
  intro rest hrest
  have hends : t.EndsBefore (' ' :: (written' ++ rest)) :=
    (Token.endsBefore_iff_of_word ht).mpr (by simp)
  have hscan := h (' ' :: (word ++ (' ' :: (written' ++ rest)))) (by simp)
  rw [scan_skipped (by decide), scan_spelling hword hends, scan_skipped (by decide),
    h' rest hrest] at hscan
  simpa using hscan

theorem intercalate {t : Token} {word : List Char} (ht : t = .and ∨ t = .or ∨ t = .not)
    (hword : t.Spells word) {parts : List Formula}
    (h : ∀ part ∈ parts, WrittenAs part.text.toList part.tokens) :
    WrittenAs (([' '] ++ word ++ [' ']).intercalate (parts.map (·.text.toList)))
      ([t].intercalate (parts.map tokens)) := by
  induction parts with
  | nil => exact nil
  | cons part rest ih =>
    cases rest with
    | nil => simpa using h part (by simp)
    | cons next rest =>
      have htail := ih fun x hx => h x (by simp [hx])
      have hjoined := (h part (by simp)).joined ht hword htail
      simpa [List.intercalate_cons_cons] using hjoined

end WrittenAs

mutual

theorem writtenAs_text : ∀ f : Formula, WrittenAs f.text.toList f.tokens
  | row n => by
    simpa [text, tokens, Nat.toList_repr] using WrittenAs.number n
  | not body => by
    simpa [text, tokens] using (writtenAs_text body).negation
  | all parts => by
    have hand : Token.and.Spells ['A', 'N', 'D'] := Token.spells_and.mpr (by decide)
    simpa [text, tokens, String.toList_intercalate, Function.comp_def] using
      WrittenAs.intercalate (by simp) hand (writtenAs_texts parts)
  | any parts => by
    have hor : Token.or.Spells ['O', 'R'] := Token.spells_or.mpr (by decide)
    simpa [text, tokens, String.toList_intercalate, Function.comp_def] using
      WrittenAs.intercalate (by simp) hor (writtenAs_texts parts)
  | group body => by
    simpa [text, tokens] using (writtenAs_text body).grouped

theorem writtenAs_texts : ∀ parts : List Formula,
    ∀ part ∈ parts, WrittenAs part.text.toList part.tokens
  | [], part, hpart => absurd hpart (List.not_mem_nil)
  | first :: rest, part, hpart => by
    rcases List.mem_cons.mp hpart with hfirst | hrest
    · rw [hfirst]
      exact writtenAs_text first
    · exact writtenAs_texts rest part hrest

end

/-- The text of a formula has the formula's tokens. -/
theorem scan_text (f : Formula) : scan f.text.toList = f.tokens :=
  (writtenAs_text f).scan_eq

end Formula
end QueryFilter
