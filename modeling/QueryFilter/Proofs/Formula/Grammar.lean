import Mathlib.Data.List.Basic
import QueryFilter.Formula.Parser

/-!
# The grammar of formulas

A formula is a phrase of tokens,

    or  = and (OR and)*
    and = not (AND not)*
    not = NOT* (number | "(" or ")")

written with blanks before, between and after the tokens. A derivation of a text
says which characters are which token and how the tokens make up the phrase.
Nothing here refers to the way in which texts are read.
-/

namespace QueryFilter
namespace Formula

/-! ### Phrases -/

mutual

/-- Operands of OR, at least one. -/
inductive Disjuncts
  | one (first : Conjuncts)
  | more (first : Conjuncts) (rest : Disjuncts)

/-- Operands of AND, at least one. -/
inductive Conjuncts
  | one (first : Operand)
  | more (first : Operand) (rest : Conjuncts)

/-- A number or a group, with any number of negations before it. -/
inductive Operand
  | number (digits : List Char)
  | group (inner : Disjuncts)
  | negation (body : Operand)

end

mutual

/-- The tokens of a phrase, in order. -/
def Disjuncts.tokens : Disjuncts → List Token
  | .one first => first.tokens
  | .more first rest => first.tokens ++ .or :: rest.tokens

def Conjuncts.tokens : Conjuncts → List Token
  | .one first => first.tokens
  | .more first rest => first.tokens ++ .and :: rest.tokens

def Operand.tokens : Operand → List Token
  | .number digits => [.number digits]
  | .group inner => .opening :: (inner.tokens ++ [.closing])
  | .negation body => .not :: body.tokens

end

/-- Tokens as phrases have them, without the levels of binding. -/
inductive FromPhrase : List Token → Prop
  | number (digits : List Char) : FromPhrase [.number digits]
  | negation {ts : List Token} (body : FromPhrase ts) : FromPhrase (.not :: ts)
  | group {ts : List Token} (inner : FromPhrase ts) :
      FromPhrase (.opening :: (ts ++ [.closing]))
  | joined {t : Token} {ts us : List Token} (word : t = .and ∨ t = .or) (first : FromPhrase ts)
      (second : FromPhrase us) : FromPhrase (ts ++ t :: us)

mutual

theorem Disjuncts.fromPhrase : ∀ d : Disjuncts, FromPhrase d.tokens
  | .one first => first.fromPhrase
  | .more first rest => .joined (.inr rfl) first.fromPhrase rest.fromPhrase

theorem Conjuncts.fromPhrase : ∀ c : Conjuncts, FromPhrase c.tokens
  | .one first => first.fromPhrase
  | .more first rest => .joined (.inl rfl) first.fromPhrase rest.fromPhrase

theorem Operand.fromPhrase : ∀ o : Operand, FromPhrase o.tokens
  | .number digits => .number digits
  | .group inner => .group inner.fromPhrase
  | .negation body => .negation body.fromPhrase

end

mutual

/-- The formula of a phrase: one operand stands for itself, several make one node. -/
def Disjuncts.formula : Disjuncts → Formula
  | .one first => first.formula
  | .more first rest => any (first.formula :: rest.formulas)

def Disjuncts.formulas : Disjuncts → List Formula
  | .one first => [first.formula]
  | .more first rest => first.formula :: rest.formulas

def Conjuncts.formula : Conjuncts → Formula
  | .one first => first.formula
  | .more first rest => all (first.formula :: rest.formulas)

def Conjuncts.formulas : Conjuncts → List Formula
  | .one first => [first.formula]
  | .more first rest => first.formula :: rest.formulas

def Operand.formula : Operand → Formula
  | .number digits => row (decimal digits)
  | .group inner => group inner.formula
  | .negation body => not body.formula

end

/-! ### Texts -/

/-- Whether some characters are a word in any ASCII case. -/
def IsInAnyCase (word cs : List Char) : Prop :=
  List.Forall₂ (fun w c => c = w ∨ c = w.toLower) word cs

namespace Token

/-- Whether a token is written with some characters. -/
def Spells : Token → List Char → Prop
  | number digits, cs => cs = digits ∧ digits ≠ [] ∧ ∀ c ∈ digits, c.isDigit = true
  | and, cs => IsInAnyCase ['A', 'N', 'D'] cs
  | or, cs => IsInAnyCase ['O', 'R'] cs
  | not, cs => IsInAnyCase ['N', 'O', 'T'] cs
  | opening, cs => cs = ['(']
  | closing, cs => cs = [')']
  | stray _, _ => False

/-- Whether a token can end where the rest of a text begins: a number takes every
digit, and a word is followed by no letter or digit. -/
def EndsBefore (rest : List Char) : Token → Prop
  | number _ => ∀ c ∈ rest.head?, c.isDigit = false
  | and | or | not => ∀ c ∈ rest.head?, c.isAlphanum = false
  | opening | closing | stray _ => True

/-- The digits of a number. -/
def digits? : Token → Option (List Char)
  | number digits => some digits
  | _ => none

end Token

/-- A token where it stands in a text, with the blanks before it. -/
@[ext] structure Placed where
  blanks : List Char
  spelling : List Char
  token : Token

/-- The text of some tokens with their blanks, and of the blanks after them. -/
def writtenOut (trailing : List Char) : List Placed → List Char
  | [] => trailing
  | first :: rest => first.blanks ++ (first.spelling ++ writtenOut trailing rest)

/-- Whether some tokens can stand in a text as they do. -/
def IsLayout (trailing : List Char) : List Placed → Prop
  | [] => ∀ c ∈ trailing, isSkipped c = true
  | first :: rest =>
    (∀ c ∈ first.blanks, isSkipped c = true) ∧ first.token.Spells first.spelling ∧
      first.token.EndsBefore (writtenOut trailing rest) ∧ IsLayout trailing rest

/-- A way in which the grammar derives a text. -/
@[ext] structure Derivation (cs : List Char) where
  placed : List Placed
  trailing : List Char
  phrase : Disjuncts
  isLayout : IsLayout trailing placed
  text_eq : writtenOut trailing placed = cs
  tokens_eq : placed.map Placed.token = phrase.tokens

namespace Derivation

variable {cs : List Char}

def formula (d : Derivation cs) : Formula := d.phrase.formula

/-- The numbers of a derivation as they are written, in order. -/
def numbers (d : Derivation cs) : List (List Char) :=
  d.phrase.tokens.filterMap Token.digits?

end Derivation

end Formula
end QueryFilter
