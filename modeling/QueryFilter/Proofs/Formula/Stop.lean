import Mathlib.Data.List.Induction
import QueryFilter.Proofs.Formula.Parse

/-!
# Where a text stops being a formula

A text that is no formula is reported at its first piece that cannot be there. What stands
before the piece could go on to a formula: the reader is at a state from which an operand, if
it needs one, and the closing parentheses that are due complete one. And no formula begins
with what stands before the piece and then the piece itself, however it goes on, because
the reader has no next state.
-/

namespace QueryFilter
namespace Formula

/-! ### Lines and columns -/

/-- Whether a position is the one after some text: its line is one more than the line ends
in the text, and its column one more than the characters since the last of them. -/
def Position.Follows (p : Position) (before : List Char) : Prop :=
  p.line = before.count '\n' + 1 ∧ p.column = (before.reverse.takeWhile (· != '\n')).length + 1

theorem Position.follows_after (cs : List Char) : (Position.after cs).Follows cs := by
  induction cs using List.reverseRecOn with
  | nil => exact ⟨rfl, rfl⟩
  | append_singleton cs c ih =>
    have hstep : Position.after (cs ++ [c]) = (Position.after cs).advance c :=
      List.foldl_append
    rw [hstep, advance]
    split_ifs with hc
    · subst hc
      exact ⟨by simp [ih.1], by simp⟩
    · exact ⟨by simp [ih.1, hc], by simp [ih.2, hc]⟩

/-- A position follows at most one of the beginnings of a text. -/
theorem Position.Follows.eq {p : Position} {first second cs : List Char} (h : p.Follows first)
    (h' : p.Follows second) (hfirst : first <+: cs) (hsecond : second <+: cs) :
    first = second := by
  have hlonger {first rest : List Char} (h : p.Follows first) (h' : p.Follows (first ++ rest)) :
      rest = [] := by
    have hcount : rest.count '\n' = 0 := by
      have hlines := h.1.symm.trans h'.1
      rw [List.count_append] at hlines
      omega
    have hline : ∀ c ∈ rest.reverse, (c != '\n') = true := by
      intro c hc
      rw [bne_iff_ne]
      rintro rfl
      exact List.count_eq_zero.mp hcount (List.mem_reverse.mp hc)
    have hcolumns := h.2.symm.trans h'.2
    rw [List.reverse_append, List.takeWhile_append_of_pos hline, List.length_append,
      List.length_reverse] at hcolumns
    exact List.length_eq_zero_iff.mp (by omega)
  rcases List.prefix_or_prefix_of_prefix hfirst hsecond with ⟨rest, rfl⟩ | ⟨rest, rfl⟩
  · rw [hlonger h h', List.append_nil]
  · rw [hlonger h' h, List.append_nil]

/-! ### Reading on, and reading to the end -/

namespace ReaderState

/-- Whether no formula goes on, from a state, with the first of some tokens, or ends there
if there is none. -/
def Stuck (state : ReaderState) : List Token → Prop
  | [] => state.finish? = none
  | t :: _ => state.next? t = none

theorem Stuck.of_head? {state : ReaderState} {ts us : List Token} (h : state.Stuck ts)
    (hhead : us.head? = ts.head?) : state.Stuck us := by
  cases ts with
  | nil =>
    rw [List.head?_eq_none_iff.mp hhead]
    exact h
  | cons t ts =>
    obtain ⟨us, rfl⟩ := List.head?_eq_some_iff.mp hhead
    exact h

theorem Stuck.run_eq_none {state : ReaderState} {ts : List Token} (h : state.Stuck ts) :
    state.run ts = none := by
  cases ts with
  | nil => exact h
  | cons t ts => rw [run_cons, show state.next? t = none from h, Option.bind_none]

/-- A text that completes what has been read to a formula. -/
def completion : ReaderState → List Char
  | needsOperand _ _ outer => ' ' :: '1' :: List.replicate outer.length ')'
  | hasOperand _ outer => List.replicate outer.length ')'

theorem scan_closings (n : Nat) : scan (List.replicate n ')') = List.replicate n .closing := by
  induction n with
  | zero => exact scan_nil
  | succ n ih =>
    rw [List.replicate_succ, List.replicate_succ, scan_character (by decide) (by decide), ih]
    rfl

theorem not_isAlphanum_completion (state : ReaderState) :
    ∀ c ∈ state.completion.head?, c.isAlphanum = false := by
  have hclosings (n : Nat) : ∀ c ∈ (List.replicate n ')').head?, c.isAlphanum = false := by
    cases n <;> simp [List.replicate_succ]
  cases state with
  | needsOperand negations level outer => simp [completion]
  | hasOperand level outer => exact hclosings outer.length

theorem exists_run_closings (level : Level) (outer : List Frame) :
    ∃ f, (hasOperand level outer).run (List.replicate outer.length .closing) = some f := by
  induction outer generalizing level with
  | nil => exact ⟨level.formula, rfl⟩
  | cons frame outer ih =>
    obtain ⟨f, hf⟩ := ih (frame.level.push (negate frame.negations (group level.formula)))
    exact ⟨f, by simpa [List.replicate_succ, next?] using hf⟩

theorem exists_run_completion (state : ReaderState) :
    ∃ f, state.run (scan state.completion) = some f := by
  cases state with
  | hasOperand level outer =>
    rw [completion, scan_closings]
    exact exists_run_closings level outer
  | needsOperand negations level outer =>
    have hends : Token.EndsBefore (List.replicate outer.length ')') (.number ['1']) := by
      cases outer <;> simp [Token.EndsBefore, List.replicate_succ]
    have hspells : (Token.number ['1']).Spells ['1'] := ⟨rfl, by simp, by simp⟩
    have hscan : scan ('1' :: List.replicate outer.length ')') =
        .number ['1'] :: scan (List.replicate outer.length ')') := scan_spelling hspells hends
    rw [completion, scan_skipped (by decide), hscan, scan_closings, run_cons]
    exact exists_run_closings _ outer

end ReaderState

open ReaderState

/-- Reading stops after tokens that can be read, at the first one, or at the end, with
which no formula goes on. -/
theorem readFrom_eq_error {endOffset : Nat} {state : ReaderState} {ls : List Lexeme} {stop : Stop}
    (h : readFrom endOffset state ls = .error stop) :
    ∃ first second next, ls = first ++ second ∧
      state.advance (first.map Lexeme.token) = some next ∧
      next.Stuck (second.map Lexeme.token) ∧
      stop.offset = (second.head?.map Lexeme.offset).getD endOffset := by
  induction ls generalizing state with
  | nil =>
    unfold readFrom at h
    cases hfinish : state.finish? with
    | some f => simp [hfinish] at h
    | none =>
      rw [hfinish] at h
      cases h
      exact ⟨[], [], state, rfl, rfl, hfinish, rfl⟩
  | cons l ls ih =>
    unfold readFrom at h
    cases hnext : state.next? l.token with
    | none =>
      rw [hnext] at h
      cases h
      exact ⟨[], l :: ls, state, rfl, rfl, hnext, rfl⟩
    | some next =>
      rw [hnext] at h
      obtain ⟨first, second, last, rfl, hadvance, hstuck, hoffset⟩ := ih h
      exact ⟨l :: first, second, last, rfl, by simpa [hnext] using hadvance, hstuck, hoffset⟩

/-! ### Cutting a text between two tokens -/

/-- A run of characters of one kind stays one before a text that does not go on with it. -/
theorem takeWhile_takeWhile_append {p : Char → Bool} (cs : List Char) {other : List Char}
    (h : ∀ c ∈ other.head?, p c = false) :
    (cs.takeWhile p ++ other).takeWhile p = cs.takeWhile p ∧
      (cs.takeWhile p ++ other).dropWhile p = other := by
  have hrun : ∀ c ∈ cs.takeWhile p, p c = true := fun _ => List.mem_takeWhile_imp
  obtain ⟨htake, hdrop⟩ := takeWhile_of_head? h
  rw [List.takeWhile_append_of_pos hrun, List.dropWhile_append_of_pos hrun, htake, hdrop,
    List.append_nil]
  exact ⟨rfl, rfl⟩

/-- Whether a text ends the token before it where another does: it begins with the same
character, or with no letter or digit. -/
def EndsAlike (later after : List Char) : Prop :=
  later.head? = after.head? ∨ ∀ c ∈ later.head?, c.isAlphanum = false

theorem EndsAlike.head? {later after : List Char} (h : EndsAlike later after) {p : Char → Bool}
    (hp : ∀ c, p c = true → c.isAlphanum = true) {before : List Char}
    (hends : ∀ c ∈ (before ++ after).head?, p c = false) :
    ∀ c ∈ (before ++ later).head?, p c = false := by
  cases before with
  | cons b before => exact hends
  | nil =>
    intro c hc
    rcases h with hsame | hother
    · exact hends c (hsame ▸ hc)
    · by_contra hword
      have hnone := hother c hc
      rw [hp c (by simpa using hword)] at hnone
      cases hnone

/-- A text cut in two where its lexemes are. The second part starts with a lexeme, or is
empty, and the first has its tokens before every text that ends them alike. -/
structure Cut (offset : Nat) (cs : List Char) (first second : List Lexeme)
    (before after : List Char) : Prop where
  text : cs = before ++ after
  place : (second.head?.map Lexeme.offset).getD (offset + cs.length) = offset + before.length
  starts : ∀ c ∈ after.head?, isSkipped c = false
  tokens : scan after = second.map Lexeme.token
  scan_append : ∀ later, EndsAlike later after →
    scan (before ++ later) = first.map Lexeme.token ++ scan later

namespace Cut

variable {offset : Nat} {cs : List Char} {first second : List Lexeme} {before after : List Char}

/-- The cut before all of a text that starts with a lexeme. -/
theorem start {l : Lexeme} {ls : List Lexeme} (hoffset : l.offset = offset)
    (hstarts : ∀ c ∈ cs.head?, isSkipped c = false) (h : lexemes offset cs = l :: ls) :
    Cut offset cs [] (l :: ls) [] cs where
  text := rfl
  place := hoffset
  starts := hstarts
  tokens := by rw [← h, map_token_lexemes]
  scan_append _ _ := rfl

/-- A cut stays one when more text with its own lexemes comes first. -/
theorem prepend (piece : List Char) (ls : List Lexeme)
    (h : Cut (offset + piece.length) cs first second before after)
    (hscan : ∀ later, EndsAlike later after →
      scan (piece ++ (before ++ later)) = ls.map Lexeme.token ++ scan (before ++ later)) :
    Cut offset (piece ++ cs) (ls ++ first) second (piece ++ before) after where
  text := by rw [h.text, List.append_assoc]
  place := by
    rw [List.length_append, List.length_append, ← Nat.add_assoc, ← Nat.add_assoc]
    exact h.place
  starts := h.starts
  tokens := h.tokens
  scan_append later hlater := by
    rw [List.append_assoc, hscan later hlater, h.scan_append later hlater, List.map_append,
      List.append_assoc]

/-- A text that starts with a lexeme can be cut before the lexeme, and wherever the rest of
it can. The lexeme ends where no character goes on with it. -/
theorem exists_of_lexeme {t : Token} {rest : List Char} (spelling : List Char)
    (goesOn : Char → Bool)
    (hword : ∀ c, goesOn c = true → c.isAlphanum = true)
    (hends : ∀ c ∈ rest.head?, goesOn c = false)
    (hscan : ∀ other, (∀ c ∈ other.head?, goesOn c = false) →
      scan (spelling ++ other) = t :: scan other)
    (htext : cs = spelling ++ rest) (hstarts : ∀ c ∈ cs.head?, isSkipped c = false)
    (hlexemes : lexemes offset cs = ⟨t, offset⟩ :: lexemes (offset + spelling.length) rest)
    (ih : ∀ {offset first}, lexemes offset rest = first ++ second →
      ∃ before after, Cut offset rest first second before after)
    (h : lexemes offset cs = first ++ second) :
    ∃ before after, Cut offset cs first second before after := by
  cases first with
  | nil =>
    obtain rfl : _ = second := hlexemes.symm.trans h
    exact ⟨_, _, start rfl hstarts hlexemes⟩
  | cons _ first =>
    obtain ⟨rfl, hrest⟩ := List.cons_eq_cons.mp (hlexemes.symm.trans h)
    obtain ⟨before, after, hcut⟩ := ih hrest
    rw [hcut.text] at hends
    rw [htext]
    -- the cut may be right behind the lexeme, which then ends before the other text as well
    exact ⟨_, _, prepend spelling [⟨t, offset⟩] hcut
      fun later hlater => hscan _ (hlater.head? hword hends)⟩

end Cut

/-- A text can be cut wherever its lexemes can. -/
theorem exists_cut (cs : List Char) {offset : Nat} {first second : List Lexeme}
    (h : lexemes offset cs = first ++ second) :
    ∃ before after, Cut offset cs first second before after := by
  induction cs using text_induction generalizing offset first with
  | nil =>
    obtain ⟨rfl, rfl⟩ := List.append_eq_nil_iff.mp (h.symm.trans (by simp [lexemes]))
    exact ⟨[], [], rfl, rfl, by simp, scan_nil, fun _ _ => rfl⟩
  | skipped c cs hc ih =>
    rw [lexemes_skipped hc] at h
    obtain ⟨before, after, hcut⟩ := ih h
    exact ⟨_, _, Cut.prepend [c] [] hcut fun _ _ => scan_skipped hc _⟩
  | digit c cs hc ih =>
    refine Cut.exists_of_lexeme (c :: cs.takeWhile Char.isDigit) Char.isDigit
      (fun _ => isAlphanum_of_isDigit) (head?_dropWhile Char.isDigit cs) (fun other hother => ?_)
      (by simp) ?_ (lexemes_digit hc offset cs) ih h
    · obtain ⟨htake, hdrop⟩ := takeWhile_takeWhile_append cs hother
      rw [List.cons_append, scan_digit hc, htake, hdrop]
    · simpa using not_isSkipped_of_isAlphanum (isAlphanum_of_isDigit hc)
  | letter c cs hc ih =>
    refine Cut.exists_of_lexeme (c :: cs.takeWhile Char.isAlphanum) Char.isAlphanum
      (fun _ => id) (head?_dropWhile Char.isAlphanum cs) (fun other hother => ?_)
      (by simp) ?_ (lexemes_letter hc offset cs) ih h
    · obtain ⟨htake, hdrop⟩ := takeWhile_takeWhile_append cs hother
      rw [List.cons_append, scan_letter hc, htake, hdrop]
    · simpa using not_isSkipped_of_isAlphanum (isAlphanum_of_isAlpha hc)
  | character c cs hskipped hword ih =>
    exact Cut.exists_of_lexeme [c] (fun _ => false) (by simp) (by simp)
      (fun other _ => scan_character hskipped hword other) rfl (by simpa using hskipped)
      (lexemes_character hskipped hword offset cs) ih h

/-! ### The place of an unexpected piece -/

/-- What a text starts with: a maximal run of letters and digits, or another character, or
nothing if the text is empty. -/
def leadingPiece : List Char → List Char
  | [] => []
  | c :: cs => if c.isAlphanum then c :: cs.takeWhile Char.isAlphanum else [c]

theorem head?_leadingPiece (cs : List Char) : (leadingPiece cs).head? = cs.head? := by
  cases cs with
  | nil => rfl
  | cons c cs => by_cases hc : c.isAlphanum = true <;> simp [leadingPiece, hc]

/-- The first token of a text depends on no more than the piece that the text starts with. -/
theorem head?_scan_leadingPiece {cs : List Char} (h : ∀ c ∈ cs.head?, isSkipped c = false) :
    (scan (leadingPiece cs)).head? = (scan cs).head? := by
  cases cs with
  | nil => rfl
  | cons c cs =>
    have hskipped := h c rfl
    by_cases hword : c.isAlphanum = true
    · rw [leadingPiece, if_pos hword]
      rw [Char.isAlphanum, Bool.or_eq_true] at hword
      rcases hword with hletter | hdigit
      · rw [scan_letter hletter, scan_letter hletter, List.head?_cons, List.head?_cons,
          List.takeWhile_takeWhile]
        simp
      · have hdigits : (fun c : Char => c.isDigit && c.isAlphanum) = Char.isDigit := by
          funext c
          cases hc : c.isDigit with
          | false => rfl
          | true => simp [isAlphanum_of_isDigit hc]
        rw [scan_digit hdigit, scan_digit hdigit, List.head?_cons, List.head?_cons,
          List.takeWhile_takeWhile]
        simp [hdigits]
    · rw [Bool.not_eq_true] at hword
      rw [leadingPiece, if_neg (by simp [hword]), scan_character hskipped hword,
        scan_character hskipped hword]
      rfl

theorem parse_eq_unexpected {s : String} {place : Unexpected}
    (h : parse s = .error (.unexpected place)) :
    ∃ stop, read s.toList = .error stop ∧ place = .ofStop s.toList stop := by
  unfold parse at h
  cases hread : read s.toList with
  | error stop =>
    rw [hread] at h
    cases h
    exact ⟨stop, rfl, rfl⟩
  | ok f =>
    rw [hread] at h
    cases hoversized : (lexemes 0 s.toList).findSome? (·.token.oversized?) <;>
      simp [hoversized] at h

/-- Whether a message tells of a line and a column, before anything else that it says. -/
def Position.IsTold (p : Position) (message : String) : Prop :=
  ∃ margin context : String, (∀ c ∈ margin.toList, c = ' ') ∧
    message = "Syntax error: " ++
      (margin ++ "--> " ++ toString p.line ++ ":" ++ toString p.column ++ "\n" ++ context)

theorem isTold_message (place : Unexpected) :
    place.position.IsTold (ParseError.unexpected place).message := by
  obtain ⟨context, hcontext⟩ : ∃ context, place.message =
      String.ofList (List.replicate (toString place.position.line).length ' ') ++ "--> " ++
        toString place.position.line ++ ":" ++ toString place.position.column ++ "\n" ++
          context := ⟨_, String.intercalate_cons_cons⟩
  refine ⟨_, context, fun c hc => ?_, congrArg ("Syntax error: " ++ ·) hcontext⟩
  rw [String.toList_ofList] at hc
  exact List.eq_of_mem_replicate hc

/-- A text that is no formula is reported with the line and column where its first piece that
cannot be there starts, or where the text ends if none is in the way: what stands before
goes on to a formula, and nothing that goes on with this piece does. -/
theorem place_of_parse {s : String} {place : Unexpected}
    (h : parse s = .error (.unexpected place)) :
    place.position.IsTold (ParseError.unexpected place).message ∧
    ∃ before after, s.toList = before ++ after ∧
      (∀ first later, s.toList = first ++ later →
        (place.position.Follows first ↔ first = before)) ∧
      (∀ c ∈ after.head?, isSkipped c = false) ∧
      (∃ continued, Nonempty (Derivation (before ++ continued))) ∧
      ∀ later, leadingPiece later = leadingPiece after →
        IsEmpty (Derivation (before ++ later)) := by
  obtain ⟨stop, hread, rfl⟩ := parse_eq_unexpected h
  obtain ⟨first, second, state, hlexemes, hadvance, hstuck, hoffset⟩ := readFrom_eq_error hread
  obtain ⟨before, after, hcut⟩ := exists_cut s.toList hlexemes
  have hposition : (Unexpected.ofStop s.toList stop).position = .after before := by
    have hstop : stop.offset = before.length := by
      have hplace := hcut.place
      rw [Nat.zero_add, Nat.zero_add] at hplace
      rw [hoffset, hplace]
    rw [Unexpected.ofStop, hstop, hcut.text, List.take_left]
  -- whatever comes next instead, the reader gets to the same state before it
  have hrun (later : List Char) (hlater : EndsAlike later after) :
      start.run (scan (before ++ later)) = state.run (scan later) := by
    rw [hcut.scan_append later hlater, run_append hadvance]
  refine ⟨isTold_message _, before, after, hcut.text, fun other later htext => ?_, hcut.starts,
    ?_, fun later hlater => ?_⟩
  · rw [hposition]
    have hbefore := Position.follows_after before
    refine ⟨fun hother => ?_, fun hother => hother ▸ hbefore⟩
    exact hother.eq hbefore ⟨later, htext.symm⟩ ⟨after, hcut.text.symm⟩
  · obtain ⟨f, hf⟩ := state.exists_run_completion
    refine ⟨state.completion, Derivation.nonempty_of_run (f := f) ?_⟩
    rw [hrun _ (.inr state.not_isAlphanum_completion), hf]
  · have hhead : later.head? = after.head? := by
      rw [← head?_leadingPiece, hlater, head?_leadingPiece]
    have htoken : (scan later).head? = (second.map Lexeme.token).head? := by
      rw [← hcut.tokens, ← head?_scan_leadingPiece hcut.starts, ← hlater,
        head?_scan_leadingPiece (hhead ▸ hcut.starts)]
    refine Derivation.isEmpty_of_run ?_
    rw [hrun later (.inl hhead), (hstuck.of_head? htoken).run_eq_none]

/-- A word that only begins with OR is in the way from its start on. -/
theorem place_of_parse_second_line :
    parse "1 AND\n(2 ORx 3)" =
        .error (.unexpected ⟨⟨2, 4⟩, "(2 ORx 3)".toList, .connective⟩) ∧
      (∃ continued, Nonempty (Derivation ("1 AND\n(2 ".toList ++ continued))) ∧
      ∀ later, leadingPiece later = "ORx".toList →
        IsEmpty (Derivation ("1 AND\n(2 ".toList ++ later)) := by
  have hlexemes : lexemes 0 "1 AND\n(2 ORx 3)".toList =
      [⟨.number ['1'], 0⟩, ⟨.and, 2⟩, ⟨.opening, 6⟩, ⟨.number ['2'], 7⟩,
        ⟨.stray "ORx".toList, 9⟩, ⟨.number ['3'], 13⟩, ⟨.closing, 14⟩] := by decide +kernel
  have hparse : parse "1 AND\n(2 ORx 3)" =
      .error (.unexpected ⟨⟨2, 4⟩, "(2 ORx 3)".toList, .connective⟩) := by
    rw [parse, Formula.read, hlexemes]
    rfl
  have hcut : "1 AND\n(2 ORx 3)".toList = "1 AND\n(2 ".toList ++ "ORx 3)".toList := by decide
  obtain ⟨-, before, after, htext, hplace, -, hcontinued, hnone⟩ := place_of_parse hparse
  obtain rfl := (hplace _ _ hcut).mp ⟨by decide, by decide⟩
  obtain rfl := List.append_cancel_left (hcut.symm.trans htext)
  exact ⟨hparse, hcontinued, fun later hlater => hnone later (by rw [hlater]; decide)⟩

end Formula
end QueryFilter
