import QueryFilter.Formula.Brackets
import QueryFilter.Formula.Error
import QueryFilter.Text.Blank

/-!
# Checking and filling in a formula

A formula fits a number of rows when it mentions each of them and nothing
else. Filled in, it has the fragment of each row where the row's number stood.
-/

namespace QueryFilter
namespace Formula

/-- The least number from `next` on that an ascending list leaves out. -/
def firstGap (next : Nat) : List Nat → Nat
  | [] => next
  | n :: ns => if n = next then firstGap (next + 1) ns else next

/-- The first reason why a formula does not fit a number of rows: a number of
no row comes before a row that is not mentioned. -/
def numbersFlaw? (f : Formula) (rowCount : Nat) : Option Flaw :=
  match f.numbers.find? fun n => n == 0 || rowCount < n with
  | some n => some (.unknownRow n rowCount)
  | none =>
    let gap := firstGap 1 f.numbers
    if gap ≤ rowCount then some (.unreferenced gap) else none

/-- The formula that a text states about a number of rows. A text with unbalanced
parentheses is reported as such, whatever else is wrong with it. -/
def check (text : String) (rowCount : Nat) : Except Error Formula :=
  if Text.isAllBlank text then .error (.conditions .empty)
  else if !isBalanced text then .error .unbalanced
  else
    match parse text with
    | .error error => .error (.conditions (.ungrammatical error))
    | .ok f =>
      match f.numbersFlaw? rowCount with
      | some flaw => .error (.conditions flaw)
      | none => .ok f

def fits (text : String) (rowCount : Nat) : Bool :=
  (check text rowCount).isOk

mutual

/-- The text of a formula with the fragment of each row in place of its number,
or the first row in reading order that has no fragment. -/
def fill (fragment : Nat → Option String) : Formula → Except Flaw String
  | row number =>
    match fragment number with
    | some written => .ok (Text.trimStart written)
    | none => .error (.incomplete number)
  | not body => (fill fragment body).map fun written => "NOT " ++ written
  | all parts => (fillEach fragment parts).map fun written => " AND ".intercalate written
  | any parts => (fillEach fragment parts).map fun written => " OR ".intercalate written
  | group body => (fill fragment body).map fun written => "(" ++ written ++ ")"

def fillEach (fragment : Nat → Option String) : List Formula → Except Flaw (List String)
  | [] => .ok []
  | part :: rest =>
    match fill fragment part with
    | .error flaw => .error flaw
    | .ok written => (fillEach fragment rest).map (written :: ·)

end

/-- A formula filled in with its own row numbers. -/
def display (f : Formula) : Except Flaw String :=
  f.fill fun number => some (toString number)

end Formula
end QueryFilter
