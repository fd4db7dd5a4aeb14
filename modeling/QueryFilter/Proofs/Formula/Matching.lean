import QueryFilter.Proofs.Formula.Layout
import QueryFilter.Proofs.Formula.Rules

/-!
# What expressions match

The laws of matching, for each way in which an expression comes out. Rules are tried at places
where no blank stands. The rule for a word matches there if the word is the next token of the
text, and then it leaves what follows the token.
-/

namespace QueryFilter
namespace Formula

/-! ### Places in a text -/

/-- Whether no blank stands at the start of a text. -/
def IsClear (cs : List Char) : Prop := ∀ c ∈ cs.head?, isSkipped c = false

theorem isClear_skip (cs : List Char) : IsClear (skip false cs) :=
  head?_dropWhile isSkipped cs

theorem skip_of_isClear {cs : List Char} (h : IsClear cs) : skip false cs = cs :=
  (takeWhile_of_head? h).2

theorem length_skip_le (cs : List Char) : (skip false cs).length ≤ cs.length :=
  length_dropWhile_le isSkipped cs

@[simp] theorem scan_skip (cs : List Char) : scan (skip false cs) = scan cs := by
  have htext : cs.takeWhile isSkipped ++ skip false cs = cs := List.takeWhile_append_dropWhile
  conv_rhs => rw [← htext]
  exact (scan_blanks (fun _ => List.mem_takeWhile_imp) _).symm

theorem eq_nil_of_scan {cs : List Char} (hcs : IsClear cs) (h : scan cs = []) : cs = [] := by
  by_contra hne
  obtain ⟨t, spelling, rest, -, -, hscan, -⟩ := exists_first_token hcs hne
  rw [h] at hscan
  cases hscan

/-- The first token of a text is spelled there, unless it is stray. -/
theorem exists_spelling {t : Token} {cs : List Char} (hcs : IsClear cs)
    (h : t ∈ (scan cs).head?) (hstray : ∀ characters, t ≠ .stray characters) :
    ∃ spelling rest, cs = spelling ++ rest ∧ t.Spells spelling ∧ t.EndsBefore rest := by
  have hne : cs ≠ [] := by
    rintro rfl
    simp at h
  obtain ⟨first, spelling, rest, htext, -, hscan, htoken⟩ := exists_first_token hcs hne
  rw [hscan, List.head?_cons, Option.mem_some] at h
  subst h
  rcases htoken with ⟨hspells, hends⟩ | ⟨characters, hcharacters⟩
  · exact ⟨spelling, rest, htext, hspells, hends⟩
  · exact absurd hcharacters (hstray characters)

/-! ### Expressions -/

namespace Matches

variable {text cs rest last : List Char} {atomic : Bool} {e f : Expression}
  {pairs later : List Pair} {accepts : Char → Bool}

theorem seq_some (first : Matches text atomic e cs (some (pairs, rest)))
    (second : Matches text atomic f (skip atomic rest) (some (later, last))) :
    Matches text atomic (.seq e f) cs (some (pairs ++ later, last)) :=
  first.seq second

theorem seq_none (first : Matches text atomic e cs (some (pairs, rest)))
    (second : Matches text atomic f (skip atomic rest) none) :
    Matches text atomic (.seq e f) cs none :=
  first.seq second

theorem rule_some (rule : Rule) {inner : List Pair}
    (body : Matches text rule.isAtomic rule.body cs (some (inner, rest))) :
    Matches text false (.rule rule) cs
      (some ([.node rule (cs.take (cs.length - rest.length)) inner], rest)) :=
  @Matches.rule text false rule cs (some (inner, rest)) body

theorem rule_none (rule : Rule) (body : Matches text rule.isAtomic rule.body cs none) :
    Matches text false (.rule rule) cs none :=
  @Matches.rule text false rule cs none body

theorem terminal_some {t : Terminal} (h : t.eat? text cs = some rest) :
    Matches text atomic (.terminal t) cs (some ([], rest)) := by
  have hmatched : Matches text atomic (.terminal t) cs
      ((t.eat? text cs).map fun rest => ([], rest)) := .terminal
  rwa [h] at hmatched

theorem terminal_none {t : Terminal} (h : t.eat? text cs = none) :
    Matches text atomic (.terminal t) cs none := by
  have hmatched : Matches text atomic (.terminal t) cs
      ((t.eat? text cs).map fun rest => ([], rest)) := .terminal
  rwa [h] at hmatched

theorem character_some {c : Char} (h : accepts c = true) (cs : List Char) :
    Matches text atomic (.character accepts) (c :: cs) (some ([], cs)) :=
  terminal_some (if_pos h)

theorem character_none (h : ∀ c ∈ cs.head?, accepts c = false) :
    Matches text atomic (.character accepts) cs none := by
  refine terminal_none ?_
  cases cs with
  | nil => rfl
  | cons c cs => exact if_neg (by simp [h c rfl])

/-- A repetition leaves what is left after its first match, wherever the blanks before that
are skipped. -/
theorem star_of_more (h : Matches text atomic (.more e) cs (some (pairs, last))) :
    ∃ last', Matches text atomic (.star e) (skip atomic cs) (some (pairs, last')) ∧
      (last' = last ∨ last' = skip atomic last) := by
  cases h with
  | more first others => exact ⟨_, .star first others, .inl rfl⟩
  | more_none first => exact ⟨_, .star_none first, .inr rfl⟩

theorem more_character (cs : List Char) :
    Matches text true (.more (.character accepts)) cs (some ([], cs.dropWhile accepts)) := by
  induction cs with
  | nil => exact .more_none (character_none (by simp [skip]))
  | cons c cs ih =>
    by_cases hc : accepts c = true
    · rw [List.dropWhile_cons_of_pos hc]
      exact .more (character_some hc cs) ih
    · rw [List.dropWhile_cons_of_neg hc]
      exact .more_none (character_none (by simpa [skip] using hc))

theorem plus_character {c : Char} (h : accepts c = true) (cs : List Char) :
    Matches text true (.plus (.character accepts)) (c :: cs)
      (some ([], cs.dropWhile accepts)) := by
  have hmore : Matches text true (.more (.character accepts)) cs
      (some ([], cs.dropWhile accepts)) := more_character cs
  obtain ⟨last, hstar, rfl | rfl⟩ := hmore.star_of_more
  · exact seq_some (character_some h cs) hstar
  · exact seq_some (character_some h cs) hstar

end Matches

/-! ### Rules for words -/

/-- A rule matches some tokens and leaves the rest of the text, with one pair. -/
structure Found (text : List Char) (rule : Rule) (tokens : List Token) (pair : Pair)
    (cs rest : List Char) : Prop where
  matched : Matches text false (.rule rule) cs (some ([pair], rest))
  rule_eq : pair.rule = rule
  scan_eq : scan cs = tokens ++ scan rest
  shorter : rest.length < cs.length

theorem eat?_word {text cs rest letters : List Char} :
    (Terminal.word letters).eat? text cs = some rest ↔
      ∃ spelling, cs = spelling ++ rest ∧
        spelling.map Char.toUpper = letters.map Char.toUpper := by
  simp only [Terminal.eat?]
  constructor
  · intro h
    split_ifs at h with htake
    cases h
    exact ⟨_, (List.take_append_drop _ _).symm, htake⟩
  · rintro ⟨spelling, rfl, hspelling⟩
    have hlength : letters.length = spelling.length := by
      simpa using congrArg List.length hspelling.symm
    rw [hlength, List.take_left, List.drop_left, if_pos hspelling]

/-- A rule for a word matches where the word is the next token, and only there. -/
def IsWord (text : List Char) (rule : Rule) (t : Token) : Prop :=
  ∀ cs, IsClear cs → (∃ pair rest, Found text rule [t] pair cs rest) ∨
    Matches text false (.rule rule) cs none ∧ t ∉ (scan cs).head?

theorem keyword_some {text spelling rest : List Char} {letters : String}
    (hspelling : spelling.map Char.toUpper = letters.toList.map Char.toUpper)
    (hends : ∀ c ∈ rest.head?, c.isAlphanum = false) :
    Matches text true (.keyword letters) (spelling ++ rest) (some ([], rest)) :=
  Matches.seq_some (Matches.terminal_some (eat?_word.mpr ⟨spelling, rfl, hspelling⟩))
    (.absent (Matches.character_none hends))

theorem keyword_none {text cs : List Char} {letters : String}
    (h : ∀ spelling rest, cs = spelling ++ rest →
      spelling.map Char.toUpper = letters.toList.map Char.toUpper →
        ∃ c ∈ rest.head?, c.isAlphanum = true) :
    Matches text true (.keyword letters) cs none := by
  cases heat : (Terminal.word letters.toList).eat? text cs with
  | none => exact .seq_fail (Matches.terminal_none heat)
  | some rest =>
    obtain ⟨spelling, htext, hspelling⟩ := eat?_word.mp heat
    obtain ⟨c, hhead, hc⟩ := h spelling rest htext hspelling
    obtain ⟨rest, rfl⟩ := List.head?_eq_some_iff.mp hhead
    exact Matches.seq_none (Matches.terminal_some heat)
      (.absent_fail (Matches.character_some hc rest))

theorem isWord_of_body {rule : Rule} {t : Token} {letters : String}
    (hbody : rule.body = .keyword letters) (hatomic : rule.isAtomic = true)
    (ht : t = .and ∨ t = .or ∨ t = .not)
    (hspells : ∀ cs, t.Spells cs ↔ cs.map Char.toUpper = letters.toList.map Char.toUpper)
    (text : List Char) : IsWord text rule t := by
  intro cs hcs
  by_cases h : ∃ spelling rest, cs = spelling ++ rest ∧ t.Spells spelling ∧ t.EndsBefore rest
  · obtain ⟨spelling, rest, rfl, hspelling, hends⟩ := h
    have hmatched : Matches text rule.isAtomic rule.body (spelling ++ rest) (some ([], rest)) := by
      rw [hbody, hatomic]
      exact keyword_some ((hspells _).mp hspelling) ((Token.endsBefore_iff_of_word ht).mp hends)
    refine .inl ⟨_, rest, .rule_some rule hmatched, rfl, scan_spelling hspelling hends, ?_⟩
    simpa using List.length_pos_iff.mpr (Token.isAlpha_of_spells ht hspelling).1
  · refine .inr ⟨.rule_none rule ?_, fun hmem => h (exists_spelling hcs hmem ?_)⟩
    · rw [hbody, hatomic]
      refine keyword_none fun spelling rest htext hspelling => ?_
      by_contra hnone
      refine h ⟨spelling, rest, htext, (hspells _).mpr hspelling, ?_⟩
      exact (Token.endsBefore_iff_of_word ht).mpr (by simpa using hnone)
    · rcases ht with rfl | rfl | rfl <;> exact nofun

theorem isWord_orOp (text : List Char) : IsWord text .orOp .or :=
  isWord_of_body rfl rfl (by simp) (fun _ => Token.spells_or) text

theorem isWord_andOp (text : List Char) : IsWord text .andOp .and :=
  isWord_of_body rfl rfl (by simp) (fun _ => Token.spells_and) text

theorem isWord_notOp (text : List Char) : IsWord text .notOp .not :=
  isWord_of_body rfl rfl (by simp) (fun _ => Token.spells_not) text

end Formula
end QueryFilter
