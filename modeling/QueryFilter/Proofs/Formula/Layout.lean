import Mathlib.Data.List.Forall2
import Mathlib.Data.List.TakeWhile
import QueryFilter.Proofs.Formula.Grammar
import QueryFilter.Text.Blank

/-!
# Layouts and lexemes

The lexemes of a text are the tokens of its one layout: a text that is laid out
has these lexemes, and a text without stray lexemes can be laid out. In a layout
each run of blanks and each token ends where the text forces it to.
-/

namespace QueryFilter
namespace Formula

/-! ### Characters -/

theorem isUpper_iff {c : Char} : c.isUpper = true ↔ 65 ≤ c.toNat ∧ c.toNat ≤ 90 := by
  unfold Char.isUpper
  exact decide_eq_true_iff

theorem isLower_iff {c : Char} : c.isLower = true ↔ 97 ≤ c.toNat ∧ c.toNat ≤ 122 := by
  unfold Char.isLower
  rw [Bool.and_eq_true, decide_eq_true_eq, decide_eq_true_eq]
  exact Iff.rfl

theorem isDigit_iff {c : Char} : c.isDigit = true ↔ 48 ≤ c.toNat ∧ c.toNat ≤ 57 := by
  unfold Char.isDigit
  rw [Bool.and_eq_true, decide_eq_true_eq, decide_eq_true_eq]
  exact Iff.rfl

theorem isAlpha_iff {c : Char} : c.isAlpha = true ↔ c.isUpper = true ∨ c.isLower = true :=
  Bool.or_eq_true_iff

theorem isAlphanum_iff {c : Char} : c.isAlphanum = true ↔ c.isAlpha = true ∨ c.isDigit = true :=
  Bool.or_eq_true_iff

theorem not_isSkipped_of_isAlphanum {c : Char} (h : c.isAlphanum = true) :
    isSkipped c = false := by
  by_contra hc
  simp only [isSkipped, Bool.not_eq_false, Bool.or_eq_true, decide_eq_true_eq] at hc
  rcases hc with ((rfl | rfl) | rfl) | rfl <;> exact absurd h (by decide)

theorem not_isBlank_of_isAlphanum {c : Char} (h : c.isAlphanum = true) :
    Text.isBlank c = false := by
  rw [isAlphanum_iff, isAlpha_iff, isUpper_iff, isLower_iff, isDigit_iff] at h
  simp only [Text.isBlank, Text.blankRanges, List.any_cons, List.any_nil, Bool.or_eq_false_iff,
    Bool.and_eq_false_iff, decide_eq_false_iff_not, and_true]
  omega

theorem isAlphanum_of_isDigit {c : Char} (h : c.isDigit = true) : c.isAlphanum = true :=
  isAlphanum_iff.mpr (.inr h)

theorem isAlphanum_of_isAlpha {c : Char} (h : c.isAlpha = true) : c.isAlphanum = true :=
  isAlphanum_iff.mpr (.inl h)

theorem not_isDigit_of_isAlpha {c : Char} (h : c.isAlpha = true) : c.isDigit = false := by
  rw [isAlpha_iff, isUpper_iff, isLower_iff] at h
  rw [← Bool.not_eq_true, isDigit_iff]
  omega

/-! ### Lexemes -/

theorem lexemes_skipped {c : Char} (h : isSkipped c = true) (offset : Nat) (cs : List Char) :
    lexemes offset (c :: cs) = lexemes (offset + 1) cs := by
  rw [lexemes, if_pos h]

theorem lexemes_digit {c : Char} (h : c.isDigit = true) (offset : Nat) (cs : List Char) :
    lexemes offset (c :: cs) =
      ⟨.number (c :: cs.takeWhile Char.isDigit), offset⟩ ::
        lexemes (offset + (cs.takeWhile Char.isDigit).length + 1) (cs.dropWhile Char.isDigit) := by
  have hskipped := not_isSkipped_of_isAlphanum (isAlphanum_of_isDigit h)
  rw [lexemes]
  simp [hskipped, h, Nat.add_assoc]

theorem lexemes_letter {c : Char} (h : c.isAlpha = true) (offset : Nat) (cs : List Char) :
    lexemes offset (c :: cs) =
      ⟨.ofWord (c :: cs.takeWhile Char.isAlphanum), offset⟩ ::
        lexemes (offset + (cs.takeWhile Char.isAlphanum).length + 1)
          (cs.dropWhile Char.isAlphanum) := by
  have hskipped := not_isSkipped_of_isAlphanum (isAlphanum_of_isAlpha h)
  rw [lexemes]
  simp [hskipped, not_isDigit_of_isAlpha h, h, Nat.add_assoc]

theorem lexemes_character {c : Char} (hskipped : isSkipped c = false)
    (hword : c.isAlphanum = false) (offset : Nat) (cs : List Char) :
    lexemes offset (c :: cs) = ⟨.ofCharacter c, offset⟩ :: lexemes (offset + 1) cs := by
  rw [Char.isAlphanum, Bool.or_eq_false_iff] at hword
  rw [lexemes]
  simp [hskipped, hword.1, hword.2]

/-- A text is read on after a blank, a run of digits, a word, or another character. -/
@[elab_as_elim]
theorem text_induction {motive : List Char → Prop} (nil : motive [])
    (skipped : ∀ c cs, isSkipped c = true → motive cs → motive (c :: cs))
    (digit : ∀ c cs, c.isDigit = true → motive (cs.dropWhile Char.isDigit) → motive (c :: cs))
    (letter : ∀ c cs, c.isAlpha = true → motive (cs.dropWhile Char.isAlphanum) →
      motive (c :: cs))
    (character : ∀ c cs, isSkipped c = false → c.isAlphanum = false → motive cs →
      motive (c :: cs)) (cs : List Char) : motive cs := by
  refine lexemes.induct (fun _ cs => motive cs) (fun _ => nil) (fun _ => skipped) ?_ ?_ ?_ 0 cs
  · exact fun _ c cs _ hd ih => digit c cs hd ih
  · exact fun _ c cs _ _ ha ih => letter c cs ha ih
  · intro _ c cs hskipped hd ha ih
    exact character c cs (by simpa using hskipped) (by simp [Char.isAlphanum, hd, ha]) ih

/-! ### Tokens -/

/-- The tokens of a text. -/
def scan (cs : List Char) : List Token :=
  (lexemes 0 cs).map Lexeme.token

/-- Where a text starts makes no difference to its tokens. -/
theorem map_token_lexemes (offset : Nat) (cs : List Char) :
    (lexemes offset cs).map Lexeme.token = scan cs := by
  unfold scan
  generalize (0 : Nat) = start
  induction cs using text_induction generalizing offset start with
  | nil => simp [lexemes]
  | skipped c cs h ih => rw [lexemes_skipped h, lexemes_skipped h, ih]
  | digit c cs h ih =>
    rw [lexemes_digit h, lexemes_digit h, List.map_cons, List.map_cons]
    exact congrArg _ (ih _ _)
  | letter c cs h ih =>
    rw [lexemes_letter h, lexemes_letter h, List.map_cons, List.map_cons]
    exact congrArg _ (ih _ _)
  | character c cs hskipped hword ih =>
    rw [lexemes_character hskipped hword, lexemes_character hskipped hword, List.map_cons,
      List.map_cons]
    exact congrArg _ (ih _ _)

@[simp] theorem scan_nil : scan [] = [] := by
  simp [scan, lexemes]

theorem scan_skipped {c : Char} (h : isSkipped c = true) (cs : List Char) :
    scan (c :: cs) = scan cs := by
  rw [scan, lexemes_skipped h, map_token_lexemes]

theorem scan_digit {c : Char} (h : c.isDigit = true) (cs : List Char) :
    scan (c :: cs) =
      .number (c :: cs.takeWhile Char.isDigit) :: scan (cs.dropWhile Char.isDigit) := by
  rw [scan, lexemes_digit h, List.map_cons, map_token_lexemes]

theorem scan_letter {c : Char} (h : c.isAlpha = true) (cs : List Char) :
    scan (c :: cs) =
      .ofWord (c :: cs.takeWhile Char.isAlphanum) :: scan (cs.dropWhile Char.isAlphanum) := by
  rw [scan, lexemes_letter h, List.map_cons, map_token_lexemes]

theorem scan_character {c : Char} (hskipped : isSkipped c = false)
    (hword : c.isAlphanum = false) (cs : List Char) :
    scan (c :: cs) = .ofCharacter c :: scan cs := by
  rw [scan, lexemes_character hskipped hword, List.map_cons, map_token_lexemes]

theorem scan_blanks {blanks : List Char} (h : ∀ c ∈ blanks, isSkipped c = true)
    (cs : List Char) : scan (blanks ++ cs) = scan cs := by
  induction blanks with
  | nil => rfl
  | cons c blanks ih =>
    rw [List.cons_append, scan_skipped (h c (by simp)), ih fun x hx => h x (by simp [hx])]

/-! ### Spellings -/

theorem toNat_toLower {c : Char} (h : c.isUpper = true) : c.toLower.toNat = c.toNat + 32 := by
  have hrange := isUpper_iff.mp h
  have hoffset : ('a'.val - 'A'.val).toNat = 32 := rfl
  have hcapital : c.val ≥ 'A'.val ∧ c.val ≤ 'Z'.val := hrange
  unfold Char.toLower
  rw [dif_pos hcapital]
  simp only [Char.toNat, UInt32.toNat_add] at hrange ⊢
  omega

theorem toNat_toUpper {c : Char} (h : c.isLower = true) : c.toUpper.toNat + 32 = c.toNat := by
  have hrange := isLower_iff.mp h
  have hoffset : ('A'.val - 'a'.val).toNat = 2 ^ 32 - 32 := rfl
  have hsmall : 'a'.val ≤ c.val ∧ c.val ≤ 'z'.val := hrange
  unfold Char.toUpper
  rw [dif_pos hsmall]
  simp only [Char.toNat, UInt32.toNat_add] at hrange ⊢
  omega

theorem toUpper_of_not_isLower {c : Char} (h : c.isLower = false) : c.toUpper = c := by
  unfold Char.toUpper
  exact dif_neg fun hrange => by simp [isLower_iff.mpr hrange] at h

/-- A capital letter is also written small. -/
theorem toUpper_eq_iff {c w : Char} (hw : w.isUpper = true) :
    c.toUpper = w ↔ c = w ∨ c = w.toLower := by
  have hcapital := isUpper_iff.mp hw
  have hsmall := toNat_toLower hw
  simp only [← Char.toNat_inj, hsmall]
  cases hc : c.isLower with
  | true =>
    have hrange := isLower_iff.mp hc
    have hupper := toNat_toUpper hc
    omega
  | false =>
    rw [toUpper_of_not_isLower hc]
    rw [← Bool.not_eq_true, isLower_iff] at hc
    omega

theorem isAlpha_of_toUpper {c : Char} (h : c.toUpper.isAlpha = true) : c.isAlpha = true := by
  cases hc : c.isLower with
  | true => exact isAlpha_iff.mpr (.inr hc)
  | false => rwa [toUpper_of_not_isLower hc] at h

theorem isInAnyCase_iff {word cs : List Char} (hword : ∀ w ∈ word, w.isUpper = true) :
    IsInAnyCase word cs ↔ cs.map Char.toUpper = word := by
  unfold IsInAnyCase
  induction word generalizing cs with
  | nil => simp
  | cons w word ih =>
    have hrest := fun cs => @ih cs fun x hx => hword x (by simp [hx])
    cases cs with
    | nil => simp
    | cons c cs =>
      rw [List.forall₂_cons, hrest, List.map_cons, List.cons.injEq,
        toUpper_eq_iff (hword w List.mem_cons_self)]

namespace Token

theorem spells_and {cs : List Char} : and.Spells cs ↔ cs.map Char.toUpper = ['A', 'N', 'D'] :=
  isInAnyCase_iff (by simp)

theorem spells_or {cs : List Char} : or.Spells cs ↔ cs.map Char.toUpper = ['O', 'R'] :=
  isInAnyCase_iff (by simp)

theorem spells_not {cs : List Char} : not.Spells cs ↔ cs.map Char.toUpper = ['N', 'O', 'T'] :=
  isInAnyCase_iff (by simp)

theorem spells_ofWord (cs : List Char) :
    ofWord cs = .stray cs ∨
      (ofWord cs = .and ∨ ofWord cs = .or ∨ ofWord cs = .not) ∧ (ofWord cs).Spells cs := by
  unfold ofWord
  split
  · next heq => exact .inr ⟨by simp, spells_and.mpr heq⟩
  · next heq => exact .inr ⟨by simp, spells_or.mpr heq⟩
  · next heq => exact .inr ⟨by simp, spells_not.mpr heq⟩
  · exact .inl rfl

theorem ofWord_of_spells {t : Token} (ht : t = .and ∨ t = .or ∨ t = .not) {cs : List Char}
    (h : t.Spells cs) : ofWord cs = t := by
  rcases ht with rfl | rfl | rfl
  · simp only [ofWord, spells_and.mp h]
  · simp only [ofWord, spells_or.mp h]
  · simp only [ofWord, spells_not.mp h]

theorem isAlpha_of_spells {t : Token} (ht : t = .and ∨ t = .or ∨ t = .not) {cs : List Char}
    (h : t.Spells cs) : cs ≠ [] ∧ ∀ c ∈ cs, c.isAlpha = true := by
  obtain ⟨hne, hletters⟩ : cs.map Char.toUpper ≠ [] ∧
      ∀ c ∈ cs.map Char.toUpper, c.isAlpha = true := by
    rcases ht with rfl | rfl | rfl
    · simp [spells_and.mp h]
    · simp [spells_or.mp h]
    · simp [spells_not.mp h]
  refine ⟨by simpa using hne, fun c hc => isAlpha_of_toUpper ?_⟩
  exact hletters _ (List.mem_map_of_mem hc)

/-- A token is spelled with letters and digits, or it is a parenthesis. -/
theorem Spells.word_or_parenthesis {t : Token} {spelling : List Char} (h : t.Spells spelling) :
    (spelling ≠ [] ∧ (∀ c ∈ spelling, c.isAlphanum = true) ∧ t ≠ .opening ∧ t ≠ .closing) ∨
      t = .opening ∧ spelling = ['('] ∨ t = .closing ∧ spelling = [')'] := by
  have hword (ht : t = .and ∨ t = .or ∨ t = .not) :
      spelling ≠ [] ∧ ∀ c ∈ spelling, c.isAlphanum = true := by
    obtain ⟨hne, hletters⟩ := isAlpha_of_spells ht h
    exact ⟨hne, fun c hc => isAlphanum_of_isAlpha (hletters c hc)⟩
  cases t with
  | number digits =>
    obtain ⟨rfl, hne, hdigits⟩ := h
    exact .inl ⟨hne, fun c hc => isAlphanum_of_isDigit (hdigits c hc), by simp, by simp⟩
  | and => exact .inl ⟨(hword (by simp)).1, (hword (by simp)).2, by simp, by simp⟩
  | or => exact .inl ⟨(hword (by simp)).1, (hword (by simp)).2, by simp, by simp⟩
  | not => exact .inl ⟨(hword (by simp)).1, (hword (by simp)).2, by simp, by simp⟩
  | opening => exact .inr (.inl ⟨rfl, h⟩)
  | closing => exact .inr (.inr ⟨rfl, h⟩)
  | stray _ => exact absurd h id

theorem endsBefore_iff_of_word {t : Token} (ht : t = .and ∨ t = .or ∨ t = .not)
    {rest : List Char} : t.EndsBefore rest ↔ ∀ c ∈ rest.head?, c.isAlphanum = false := by
  rcases ht with rfl | rfl | rfl <;> exact Iff.rfl

theorem length_eq_of_spells {t : Token} {u v : List Char} (hu : t.Spells u) (hv : t.Spells v) :
    u.length = v.length := by
  cases t with
  | number digits => rw [hu.1, hv.1]
  | and => exact hu.length_eq.symm.trans hv.length_eq
  | or => exact hu.length_eq.symm.trans hv.length_eq
  | not => exact hu.length_eq.symm.trans hv.length_eq
  | opening => rw [show u = _ from hu, show v = _ from hv]
  | closing => rw [show u = _ from hu, show v = _ from hv]
  | stray _ => exact absurd hu id

end Token

theorem takeWhile_of_head? {p : Char → Bool} {cs : List Char}
    (h : ∀ c ∈ cs.head?, p c = false) : cs.takeWhile p = [] ∧ cs.dropWhile p = cs := by
  cases cs with
  | nil => simp
  | cons c cs => simp [h c rfl]

theorem head?_dropWhile (p : Char → Bool) (cs : List Char) :
    ∀ c ∈ (cs.dropWhile p).head?, p c = false := by
  have h := List.head?_dropWhile_not p cs
  intro c hc
  rw [Option.mem_def.mp hc] at h
  exact h

/-- A token is scanned where it is spelled out and can end. -/
theorem scan_spelling {t : Token} {spelling rest : List Char} (h : t.Spells spelling)
    (hrest : t.EndsBefore rest) : scan (spelling ++ rest) = t :: scan rest := by
  have hword (ht : t = .and ∨ t = .or ∨ t = .not)
      (hends : ∀ c ∈ rest.head?, c.isAlphanum = false) :
      scan (spelling ++ rest) = t :: scan rest := by
    obtain ⟨hne, hletters⟩ := Token.isAlpha_of_spells ht h
    obtain ⟨c, cs, rfl⟩ := List.exists_cons_of_ne_nil hne
    have hcs : ∀ x ∈ cs, x.isAlphanum = true := fun x hx =>
      isAlphanum_of_isAlpha (hletters x (by simp [hx]))
    rw [List.cons_append, scan_letter (hletters c (by simp)), List.takeWhile_append_of_pos hcs,
      List.dropWhile_append_of_pos hcs, (takeWhile_of_head? hends).1,
      (takeWhile_of_head? hends).2, List.append_nil, Token.ofWord_of_spells ht h]
  cases t with
  | number digits =>
    obtain ⟨rfl, hne, hdigits⟩ := h
    obtain ⟨c, cs, rfl⟩ := List.exists_cons_of_ne_nil hne
    have hcs : ∀ x ∈ cs, x.isDigit = true := fun x hx => hdigits x (by simp [hx])
    rw [List.cons_append, scan_digit (hdigits c (by simp)), List.takeWhile_append_of_pos hcs,
      List.dropWhile_append_of_pos hcs, (takeWhile_of_head? hrest).1,
      (takeWhile_of_head? hrest).2, List.append_nil]
  | and => exact hword (by simp) hrest
  | or => exact hword (by simp) hrest
  | not => exact hword (by simp) hrest
  | opening =>
    rw [show spelling = _ from h]
    exact scan_character (by decide) (by decide) rest
  | closing =>
    rw [show spelling = _ from h]
    exact scan_character (by decide) (by decide) rest
  | stray _ => exact absurd h id

theorem head_not_isSkipped {t : Token} {spelling : List Char} (h : t.Spells spelling)
    (rest : List Char) : ∀ c ∈ (spelling ++ rest).head?, isSkipped c = false := by
  rcases h.word_or_parenthesis with ⟨hne, hword, -, -⟩ | ⟨-, rfl⟩ | ⟨-, rfl⟩
  · obtain ⟨c, cs, rfl⟩ := List.exists_cons_of_ne_nil hne
    simpa using not_isSkipped_of_isAlphanum (hword c (by simp))
  · simp [isSkipped]
  · simp [isSkipped]

/-- A text that starts with no blank starts with the spelling of a token, or is stray there. -/
theorem exists_first_token {cs : List Char} (hcs : ∀ c ∈ cs.head?, isSkipped c = false)
    (hne : cs ≠ []) :
    ∃ (t : Token) (spelling rest : List Char), cs = spelling ++ rest ∧ spelling ≠ [] ∧
      scan cs = t :: scan rest ∧
      (t.Spells spelling ∧ t.EndsBefore rest ∨ ∃ characters, t = .stray characters) := by
  obtain ⟨c, cs, rfl⟩ := List.exists_cons_of_ne_nil hne
  by_cases hdigit : c.isDigit = true
  · refine ⟨_, c :: cs.takeWhile Char.isDigit, cs.dropWhile Char.isDigit, by simp, by simp,
      scan_digit hdigit cs, .inl ⟨⟨rfl, by simp, fun x hx => ?_⟩, head?_dropWhile Char.isDigit cs⟩⟩
    rcases List.mem_cons.mp hx with rfl | hx
    · exact hdigit
    · exact List.mem_takeWhile_imp hx
  by_cases hletter : c.isAlpha = true
  · refine ⟨_, c :: cs.takeWhile Char.isAlphanum, cs.dropWhile Char.isAlphanum, by simp, by simp,
      scan_letter hletter cs, ?_⟩
    rcases Token.spells_ofWord (c :: cs.takeWhile Char.isAlphanum) with hstray | ⟨ht, hspells⟩
    · exact .inr ⟨_, hstray⟩
    · exact .inl ⟨hspells, (Token.endsBefore_iff_of_word ht).mpr (head?_dropWhile _ cs)⟩
  · have hword : c.isAlphanum = false := by simp [Char.isAlphanum, hdigit, hletter]
    refine ⟨_, [c], cs, rfl, by simp, scan_character (hcs c rfl) hword cs, ?_⟩
    unfold Token.ofCharacter
    split
    · exact .inl ⟨rfl, trivial⟩
    · exact .inl ⟨rfl, trivial⟩
    · exact .inr ⟨_, rfl⟩

/-! ### Layouts -/

theorem IsLayout.scan_eq {trailing : List Char} {placed : List Placed}
    (h : IsLayout trailing placed) :
    scan (writtenOut trailing placed) = placed.map Placed.token := by
  induction placed with
  | nil => simpa [writtenOut] using scan_blanks h []
  | cons first rest ih =>
    obtain ⟨hblanks, hspells, hends, hrest⟩ := h
    rw [writtenOut, scan_blanks hblanks, scan_spelling hspells hends, ih hrest, List.map_cons]

/-- A text has at most one layout. -/
theorem IsLayout.unique {trailing trailing' : List Char} {placed placed' : List Placed}
    (h : IsLayout trailing placed) (h' : IsLayout trailing' placed')
    (htext : writtenOut trailing placed = writtenOut trailing' placed') :
    placed = placed' ∧ trailing = trailing' := by
  have htokens : placed.map Placed.token = placed'.map Placed.token := by
    rw [← h.scan_eq, ← h'.scan_eq, htext]
  induction placed generalizing placed' with
  | nil =>
    obtain rfl : placed' = [] := List.map_eq_nil_iff.mp htokens.symm
    exact ⟨rfl, htext⟩
  | cons first rest ih =>
    cases placed' with
    | nil => simp at htokens
    | cons first' rest' =>
      obtain ⟨hblanks, hspells, hends, hrest⟩ := h
      obtain ⟨hblanks', hspells', hends', hrest'⟩ := h'
      rw [List.map_cons, List.map_cons, List.cons.injEq] at htokens
      rw [writtenOut, writtenOut] at htext
      -- the blanks are the longest run of blanks at the start of the text
      have hblank : first.blanks = first'.blanks := by
        have htake := congrArg (List.takeWhile isSkipped) htext
        rwa [List.takeWhile_append_of_pos hblanks, List.takeWhile_append_of_pos hblanks',
          (takeWhile_of_head? (head_not_isSkipped hspells _)).1,
          (takeWhile_of_head? (head_not_isSkipped hspells' _)).1, List.append_nil,
          List.append_nil] at htake
      rw [hblank] at htext
      rw [← htokens.1] at hspells'
      obtain ⟨hspelling, hwritten⟩ :=
        List.append_inj (List.append_cancel_left htext) (Token.length_eq_of_spells hspells hspells')
      obtain ⟨rfl, rfl⟩ := ih hrest hrest' hwritten htokens.2
      have hfirst : first = first' := Placed.ext hblank hspelling htokens.1
      exact ⟨by rw [hfirst], rfl⟩

/-- A text has a layout before which blanks, or a token, can be put. -/
theorem exists_layout_cons {blanks spelling rest : List Char} {t : Token}
    (hblanks : ∀ c ∈ blanks, isSkipped c = true) (hspells : t.Spells spelling)
    (hends : t.EndsBefore rest)
    (h : ∃ trailing placed, IsLayout trailing placed ∧ writtenOut trailing placed = rest) :
    ∃ trailing placed, IsLayout trailing placed ∧
      writtenOut trailing placed = blanks ++ (spelling ++ rest) := by
  obtain ⟨trailing, placed, hlayout, rfl⟩ := h
  exact ⟨trailing, ⟨blanks, spelling, t⟩ :: placed, ⟨hblanks, hspells, hends, hlayout⟩, rfl⟩

/-- A text in which no token is stray has a layout. -/
theorem exists_layout (cs : List Char) (h : ∀ characters, .stray characters ∉ scan cs) :
    ∃ trailing placed, IsLayout trailing placed ∧ writtenOut trailing placed = cs := by
  have hblanks : ∀ c ∈ cs.takeWhile isSkipped, isSkipped c = true :=
    fun _ => List.mem_takeWhile_imp
  have htext : cs.takeWhile isSkipped ++ cs.dropWhile isSkipped = cs :=
    List.takeWhile_append_dropWhile
  by_cases hnil : cs.dropWhile isSkipped = []
  · rw [hnil, List.append_nil] at htext
    exact ⟨cs, [], htext ▸ hblanks, rfl⟩
  obtain ⟨t, spelling, rest, hdrop, hne, hscan, htoken⟩ :=
    exists_first_token (head?_dropWhile isSkipped cs) hnil
  rw [hdrop] at htext hscan
  have hscan' : scan cs = t :: scan rest := by rw [← htext, scan_blanks hblanks, hscan]
  rw [hscan'] at h
  rcases htoken with ⟨hspells, hends⟩ | ⟨characters, rfl⟩
  · have hshorter : rest.length < cs.length := by
      have hlength := congrArg List.length htext
      have hpos := List.length_pos_iff.mpr hne
      rw [List.length_append, List.length_append] at hlength
      omega
    have hrest := exists_layout rest fun characters hmem => h characters (by simp [hmem])
    simpa only [htext] using exists_layout_cons hblanks hspells hends hrest
  · exact absurd List.mem_cons_self (h characters)
termination_by cs.length

end Formula
end QueryFilter
