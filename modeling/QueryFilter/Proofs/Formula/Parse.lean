import Mathlib.Logic.IsEmpty.Basic
import QueryFilter.Formula.ParseError
import QueryFilter.Proofs.Formula.Reading

/-!
# Texts that are formulas

A text is read exactly when it has a derivation, and it has at most one. Its row
numbers are checked afterwards, in the order in which they are written.
-/

namespace QueryFilter
namespace Formula

open ReaderState

/-! ### Reading a text -/

theorem readFrom_eq_ok {endOffset : Nat} {state : ReaderState} {ls : List Lexeme} {f : Formula} :
    readFrom endOffset state ls = .ok f ↔ state.run (ls.map Lexeme.token) = some f := by
  induction ls generalizing state with
  | nil =>
    unfold readFrom
    cases h : state.finish? with
    | none => simp [h]
    | some g => simp [h]
  | cons l ls ih =>
    unfold readFrom
    cases h : state.next? l.token with
    | none => simp [h]
    | some next => simp [h, ih]

theorem read_eq_ok {cs : List Char} {f : Formula} :
    read cs = .ok f ↔ start.run (scan cs) = some f :=
  readFrom_eq_ok

/-! ### Derivations -/

theorem FromPhrase.stray_notMem {ts : List Token} (h : FromPhrase ts) (characters : List Char) :
    .stray characters ∉ ts := by
  induction h with
  | number digits => simp
  | negation _ ih => simp [ih]
  | group _ ih => simp [ih]
  | joined word _ _ ih ih' => rcases word with rfl | rfl <;> simp [ih, ih']

namespace Derivation

variable {cs : List Char}

theorem scan_eq (d : Derivation cs) : scan cs = d.phrase.tokens := by
  rw [← d.tokens_eq, ← d.isLayout.scan_eq, d.text_eq]

theorem exists_of_scan {phrase : Disjuncts} (h : scan cs = phrase.tokens) :
    ∃ d : Derivation cs, d.phrase = phrase := by
  obtain ⟨trailing, placed, hlayout, htext⟩ := exists_layout cs fun characters => by
    rw [h]
    exact phrase.fromPhrase.stray_notMem characters
  have htokens : placed.map Placed.token = phrase.tokens := by
    rw [← hlayout.scan_eq, htext, h]
  exact ⟨⟨placed, trailing, phrase, hlayout, htext, htokens⟩, rfl⟩

/-- A text has at most one derivation. -/
theorem eq (d e : Derivation cs) : d = e := by
  obtain ⟨hplaced, htrailing⟩ := d.isLayout.unique e.isLayout (d.text_eq.trans e.text_eq.symm)
  have hphrase : d.phrase = e.phrase := by
    apply Disjuncts.eq_of_tokens
    rw [← d.scan_eq, ← e.scan_eq]
  exact Derivation.ext hplaced htrailing hphrase

/-- A text is read exactly when it has a derivation, and as the derivation's formula. -/
theorem read_eq_ok_iff {f : Formula} : read cs = .ok f ↔ ∃ d : Derivation cs, d.formula = f := by
  rw [read_eq_ok, run_start_eq_some]
  constructor
  · rintro ⟨phrase, htokens, hformula⟩
    obtain ⟨d, rfl⟩ := exists_of_scan htokens.symm
    exact ⟨d, hformula⟩
  · rintro ⟨d, hformula⟩
    exact ⟨d.phrase, d.scan_eq.symm, hformula⟩

theorem read_eq_ok (d : Derivation cs) : read cs = .ok d.formula :=
  read_eq_ok_iff.mpr ⟨d, rfl⟩

theorem read_eq_error_iff : (∃ stop, read cs = .error stop) ↔ IsEmpty (Derivation cs) := by
  constructor
  · rintro ⟨stop, hread⟩
    refine ⟨fun d => ?_⟩
    simp [d.read_eq_ok] at hread
  · intro h
    cases hread : read cs with
    | error stop => exact ⟨stop, rfl⟩
    | ok f =>
      obtain ⟨d, -⟩ := read_eq_ok_iff.mp hread
      exact (h.false d).elim

theorem nonempty_of_run {f : Formula} (h : start.run (scan cs) = some f) :
    Nonempty (Derivation cs) := by
  obtain ⟨d, -⟩ := read_eq_ok_iff.mp (Formula.read_eq_ok.mpr h)
  exact ⟨d⟩

theorem isEmpty_of_run (h : start.run (scan cs) = none) : IsEmpty (Derivation cs) := by
  refine ⟨fun d => ?_⟩
  rw [Formula.read_eq_ok.mp d.read_eq_ok] at h
  cases h

/-! ### Oversized numbers -/

theorem findSome?_oversized? (ts : List Token) :
    ts.findSome? Token.oversized? = (ts.filterMap Token.digits?).find? (maxRow < decimal ·) := by
  induction ts with
  | nil => rfl
  | cons t ts ih =>
    rw [List.findSome?_cons, ih, List.filterMap_cons]
    cases t with
    | number digits =>
      by_cases h : maxRow < decimal digits
      · simp [Token.oversized?, Token.digits?, h]
      · simp [Token.oversized?, Token.digits?, h]
    | _ => rfl

theorem findSome?_lexemes (d : Derivation cs) :
    (lexemes 0 cs).findSome? (·.token.oversized?) = d.numbers.find? (maxRow < decimal ·) := by
  rw [numbers, ← findSome?_oversized?, ← d.scan_eq, scan, List.findSome?_map]
  rfl

end Derivation

theorem parse_of_derivation {s : String} (d : Derivation s.toList)
    (h : d.numbers.find? (maxRow < decimal ·) = none) : parse s = .ok d.formula := by
  simp [parse, d.read_eq_ok, d.findSome?_lexemes, h]

theorem parse_of_oversized {s : String} (d : Derivation s.toList) {digits : List Char}
    (h : d.numbers.find? (maxRow < decimal ·) = some digits) :
    parse s = .error (.oversized digits) := by
  simp [parse, d.read_eq_ok, d.findSome?_lexemes, h]

theorem parse_of_isEmpty {s : String} (h : IsEmpty (Derivation s.toList)) :
    ∃ place, parse s = .error (.unexpected place) := by
  obtain ⟨stop, hread⟩ := Derivation.read_eq_error_iff.mpr h
  exact ⟨.ofStop s.toList stop, by rw [parse, hread]⟩

theorem exists_derivation {s : String} (h : ∀ place, parse s ≠ .error (.unexpected place)) :
    Nonempty (Derivation s.toList) := by
  by_contra hempty
  obtain ⟨place, hplace⟩ := parse_of_isEmpty (not_nonempty_iff.mp hempty)
  exact h place hplace

theorem parse_eq_ok_iff {s : String} {f : Formula} :
    parse s = .ok f ↔
      ∃ d : Derivation s.toList, (∀ digits ∈ d.numbers, decimal digits ≤ maxRow) ∧
        d.formula = f := by
  constructor
  · intro h
    obtain ⟨d⟩ : Nonempty (Derivation s.toList) := exists_derivation (by simp [h])
    cases hfind : d.numbers.find? (maxRow < decimal ·) with
    | some digits =>
      rw [parse_of_oversized d hfind] at h
      cases h
    | none =>
      rw [parse_of_derivation d hfind] at h
      cases h
      exact ⟨d, by simpa using hfind, rfl⟩
  · rintro ⟨d, hsmall, rfl⟩
    exact parse_of_derivation d (by simpa using hsmall)

theorem parse_eq_oversized_iff {s : String} {digits : List Char} :
    parse s = .error (.oversized digits) ↔
      ∃ d : Derivation s.toList, d.numbers.find? (maxRow < decimal ·) = some digits := by
  constructor
  · intro h
    obtain ⟨d⟩ : Nonempty (Derivation s.toList) := exists_derivation (by simp [h])
    cases hfind : d.numbers.find? (maxRow < decimal ·) with
    | some written =>
      rw [parse_of_oversized d hfind] at h
      cases h
      exact ⟨d, hfind⟩
    | none =>
      rw [parse_of_derivation d hfind] at h
      cases h
  · rintro ⟨d, hfind⟩
    exact parse_of_oversized d hfind

theorem parse_eq_unexpected_iff {s : String} :
    (∃ place, parse s = .error (.unexpected place)) ↔ IsEmpty (Derivation s.toList) := by
  constructor
  · rintro ⟨place, h⟩
    refine ⟨fun d => ?_⟩
    cases hfind : d.numbers.find? (maxRow < decimal ·) with
    | some digits =>
      rw [parse_of_oversized d hfind] at h
      cases h
    | none =>
      rw [parse_of_derivation d hfind] at h
      cases h
  · intro hempty
    exact parse_of_isEmpty hempty

/-- Texts are formulas as the grammar says: a text has at most one derivation, and
it is read as the derivation's formula, unless the first number that is too large
is reported; a text without a derivation has an unexpected place. -/
theorem parse_characterization (s : String) :
    (∀ d e : Derivation s.toList, d = e) ∧
    (∀ f, parse s = .ok f ↔
      ∃ d : Derivation s.toList, (∀ digits ∈ d.numbers, decimal digits ≤ maxRow) ∧
        d.formula = f) ∧
    (∀ digits, parse s = .error (.oversized digits) ↔
      ∃ d : Derivation s.toList, d.numbers.find? (maxRow < decimal ·) = some digits) ∧
    ((∃ place, parse s = .error (.unexpected place)) ↔ IsEmpty (Derivation s.toList)) :=
  ⟨Derivation.eq, fun _ => parse_eq_ok_iff, fun _ => parse_eq_oversized_iff,
    parse_eq_unexpected_iff⟩

end Formula
end QueryFilter
