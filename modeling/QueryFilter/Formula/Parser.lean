import QueryFilter.Formula.Basic
import QueryFilter.Formula.Token

/-!
# Reading a formula

NOT binds tightest, then AND, then OR. The reader keeps the levels of nesting
that are still open and takes one token at a time, so it stops at the first
token after which no formula can follow, and it knows what it expected there.
-/

namespace QueryFilter
namespace Formula

/-- One level of nesting under construction: the finished operands of OR, and
the operands of AND read since the last OR, both latest first. -/
structure Level where
  alternatives : List Formula
  conjuncts : List Formula

/-- A level that waits for the group inside it, and the negations before that group. -/
structure Frame where
  level : Level
  negations : Nat

namespace Level

def empty : Level := ⟨[], []⟩

def push (level : Level) (f : Formula) : Level :=
  { level with conjuncts := f :: level.conjuncts }

/-- Makes the operands of AND read so far one operand of OR. -/
def endAlternative (level : Level) : Level :=
  ⟨conjunction level.conjuncts.reverse :: level.alternatives, []⟩

/-- The formula of a level whose last operand has been read. -/
def formula (level : Level) : Formula :=
  disjunction level.endAlternative.alternatives.reverse

end Level

/-- What could have stood where a text stops being a formula. -/
inductive Expectation
  | operand
  | operandOrNot
  | endOrConnective
  | connective
  deriving DecidableEq, Repr

/-- The reader between two tokens: it needs an operand, with some negations
already read, or it has just finished one. -/
inductive ReaderState
  | needsOperand (negations : Nat) (level : Level) (outer : List Frame)
  | hasOperand (level : Level) (outer : List Frame)

namespace ReaderState

def start : ReaderState :=
  needsOperand 0 .empty []

/-- What the reader expects when nothing that follows is acceptable. -/
def expectation : ReaderState → Expectation
  | needsOperand 0 _ _ => .operand
  | needsOperand (_ + 1) _ _ => .operandOrNot
  | hasOperand _ [] => .endOrConnective
  | hasOperand _ (_ :: _) => .connective

/-- The state after a token, if a formula can go on with it. -/
def next? : ReaderState → Token → Option ReaderState
  | needsOperand negations level outer, token =>
    match token with
    | .number digits => some (hasOperand (level.push (negate negations (row (decimal digits)))) outer)
    | .not => some (needsOperand (negations + 1) level outer)
    | .opening => some (needsOperand 0 .empty (⟨level, negations⟩ :: outer))
    | _ => none
  | hasOperand level outer, token =>
    match token, outer with
    | .and, _ => some (needsOperand 0 level outer)
    | .or, _ => some (needsOperand 0 level.endAlternative outer)
    | .closing, frame :: rest =>
      some (hasOperand (frame.level.push (negate frame.negations (group level.formula))) rest)
    | _, _ => none

/-- The formula that has been read, if it may end here. -/
def finish? : ReaderState → Option Formula
  | hasOperand level [] => some level.formula
  | _ => none

end ReaderState

/-- Where a text stops being a formula, as a number of characters, and what was
expected there. -/
structure Stop where
  offset : Nat
  expectation : Expectation
  deriving DecidableEq, Repr

/-- Reads the lexemes of a text that ends at a given offset. -/
def readFrom (endOffset : Nat) : ReaderState → List Lexeme → Except Stop Formula
  | state, [] =>
    match state.finish? with
    | some f => .ok f
    | none => .error ⟨endOffset, state.expectation⟩
  | state, lexeme :: rest =>
    match state.next? lexeme.token with
    | some next => readFrom endOffset next rest
    | none => .error ⟨lexeme.offset, state.expectation⟩

/-- Reads a text as a formula with row numbers of any size. -/
def read (cs : List Char) : Except Stop Formula :=
  readFrom cs.length .start (lexemes 0 cs)

/-- The largest row number that can be written. -/
def maxRow : Nat := UInt64.size - 1

/-- The digits of a number that is too large for a row number. -/
def Token.oversized? : Token → Option (List Char)
  | .number digits => if maxRow < decimal digits then some digits else none
  | _ => none

end Formula
end QueryFilter
