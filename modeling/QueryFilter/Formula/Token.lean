/-!
# Tokens of a formula

A formula is written with row numbers, parentheses and the words AND, OR and NOT
in any ASCII case. Spaces, tabs and line ends separate nothing and are skipped;
a word or a number ends only where its characters do.
-/

namespace QueryFilter
namespace Formula

inductive Token
  | number (digits : List Char)
  | and
  | or
  | not
  | opening
  | closing
  /-- A word or a character with no place in a formula. -/
  | stray (characters : List Char)
  deriving DecidableEq, Repr

/-- A token and the number of characters before it. -/
structure Lexeme where
  token : Token
  offset : Nat
  deriving DecidableEq, Repr

/-- The characters that a formula skips between its tokens. -/
def isSkipped (c : Char) : Bool :=
  c = ' ' || c = '\t' || c = '\r' || c = '\n'

namespace Token

/-- The token of a maximal run of letters and digits that starts with a letter. -/
def ofWord (word : List Char) : Token :=
  match word.map Char.toUpper with
  | ['A', 'N', 'D'] => and
  | ['O', 'R'] => or
  | ['N', 'O', 'T'] => not
  | _ => stray word

/-- The token of a character that is neither skipped nor a letter or digit. -/
def ofCharacter : Char → Token
  | '(' => opening
  | ')' => closing
  | c => stray [c]

end Token

theorem length_dropWhile_le (p : Char → Bool) (cs : List Char) :
    (cs.dropWhile p).length ≤ cs.length :=
  (List.dropWhile_suffix p).length_le

/-- The lexemes of a text that starts at a given offset. -/
def lexemes (offset : Nat) : List Char → List Lexeme
  | [] => []
  | c :: cs =>
    if isSkipped c then lexemes (offset + 1) cs
    else if c.isDigit then
      let digits := c :: cs.takeWhile Char.isDigit
      ⟨.number digits, offset⟩ :: lexemes (offset + digits.length) (cs.dropWhile Char.isDigit)
    else if c.isAlpha then
      let word := c :: cs.takeWhile Char.isAlphanum
      ⟨.ofWord word, offset⟩ :: lexemes (offset + word.length) (cs.dropWhile Char.isAlphanum)
    else ⟨.ofCharacter c, offset⟩ :: lexemes (offset + 1) cs
termination_by cs => cs.length
decreasing_by
  all_goals have hd := length_dropWhile_le Char.isDigit cs
  all_goals have ha := length_dropWhile_le Char.isAlphanum cs
  all_goals simp only [List.length_cons]
  all_goals omega

/-- The value of a run of decimal digits. -/
def decimal (digits : List Char) : Nat :=
  Nat.ofDigitChars 10 digits 0

@[simp] theorem decimal_toDigits (n : Nat) : decimal (Nat.toDigits 10 n) = n :=
  Nat.ofDigitChars_toDigits (by decide) (by decide)

end Formula
end QueryFilter
