import QueryFilter.Formula.Parser

/-!
# What is wrong with a text that is no formula

A text that stops being a formula is shown with the line it stops in and a mark
under the place. A text that is a formula can still name a row by too large a
number; the first such number is reported as it is written.
-/

namespace QueryFilter
namespace Formula

/-- A line and a column, both counted from 1. -/
structure Position where
  line : Nat
  column : Nat
  deriving DecidableEq, Repr

namespace Position

def start : Position := ⟨1, 1⟩

def advance (p : Position) (c : Char) : Position :=
  if c = '\n' then ⟨p.line + 1, 1⟩ else ⟨p.line, p.column + 1⟩

/-- The position that follows a text. -/
def after (cs : List Char) : Position :=
  cs.foldl advance start

end Position

/-- The line around an offset, without its line end. -/
def lineAround (cs : List Char) (offset : Nat) : List Char :=
  let isInside := fun c => c != '\n'
  let before := ((cs.take offset).reverse.takeWhile isInside).reverse
  (before ++ (cs.drop offset).takeWhile isInside).filter (· != '\r')

/-- The place where a text stops being a formula, with the line around it. -/
structure Unexpected where
  position : Position
  lineText : List Char
  expectation : Expectation
  deriving DecidableEq, Repr

inductive ParseError
  | unexpected (place : Unexpected)
  | oversized (digits : List Char)
  deriving DecidableEq, Repr

/-- What an expectation is called in messages. -/
def Expectation.name : Expectation → String
  | operand => "not_expr"
  | operandOrNot => "primary or not_op"
  | endOrConnective => "EOI, or_op, or and_op"
  | connective => "or_op or and_op"

namespace Unexpected

def ofStop (cs : List Char) (stop : Stop) : Unexpected :=
  { position := .after (cs.take stop.offset)
    lineText := lineAround cs stop.offset
    expectation := stop.expectation }

/-- Blanks as wide as the text before the place, with its tabs kept. -/
def underline (u : Unexpected) : List Char :=
  (u.lineText.take (u.position.column - 1)).map fun c => if c = '\t' then '\t' else ' '

/-- The line and the place in it, with a margin as wide as the line's number. -/
def message (u : Unexpected) : String :=
  let line := toString u.position.line
  let margin := String.ofList (List.replicate line.length ' ')
  "\n".intercalate
    [margin ++ "--> " ++ line ++ ":" ++ toString u.position.column,
      margin ++ " |",
      line ++ " | " ++ String.ofList u.lineText,
      margin ++ " | " ++ String.ofList u.underline ++ "^---",
      margin ++ " |",
      margin ++ " = expected " ++ u.expectation.name]

end Unexpected

def ParseError.message : ParseError → String
  | unexpected place => "Syntax error: " ++ place.message
  | oversized digits => "Invalid number: Cannot parse row number: " ++ String.ofList digits

/-- Reads a text as a formula. -/
def parse (text : String) : Except ParseError Formula :=
  match read text.toList with
  | .error stop => .error (.unexpected (.ofStop text.toList stop))
  | .ok f =>
    match (lexemes 0 text.toList).findSome? (·.token.oversized?) with
    | some digits => .error (.oversized digits)
    | none => .ok f

end Formula
end QueryFilter
