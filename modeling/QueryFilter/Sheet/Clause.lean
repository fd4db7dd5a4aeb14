import QueryFilter.Formula.Check
import QueryFilter.Sheet.Basic
import QueryFilter.Sheet.Fragment

/-!
# Conditions of a query

The fragments of the complete rows of a sheet, joined into one condition: by one
connective throughout, by the joiner of each row after the first, or as a formula
over the row numbers arranges them. A sheet without complete rows gives an
empty condition, whatever joins them.
-/

namespace QueryFilter

/-- How the conditions of the rows are arranged. -/
inductive Arrangement
  | throughout (connective : Connective)
  | byRow
  | byFormula (f : Formula)

/-- A condition, and whether it holds anything. -/
structure Clause where
  body : String
  isConditional : Bool
  deriving DecidableEq, Repr

namespace Clause

def empty : Clause := ⟨"", false⟩

/-- The clause of a query with this condition, if it holds anything. -/
def text? (clause : Clause) : Option String :=
  if clause.isConditional then some ("WHERE " ++ Text.trim clause.body) else none

end Clause

namespace Sheet

/-- The fragment of the complete row with a number. -/
def fragment? (s : Sheet) (number : Nat) : Option String :=
  (s.complete.find? (·.number == number)).map Row.fragment

/-- The fragments of some rows, each after the first led by a word of its own. -/
def joinFragments (lead : Row → String) : List Row → String
  | [] => ""
  | first :: rest =>
    first.fragment ++ String.join (rest.map fun row => lead row ++ row.fragment)

/-- The text of the condition that the rows of a sheet state together. -/
def body (s : Sheet) : Arrangement → Except Formula.Flaw String
  | .throughout connective =>
    .ok ((" " ++ connective.keyword).intercalate (s.complete.map Row.fragment))
  | .byRow => .ok (joinFragments (fun row => " " ++ row.joiner.keyword) s.complete)
  | .byFormula f =>
    match f.numbersFlaw? s.size with
    | some flaw => .error flaw
    | none => (f.fill s.fragment?).map fun written => " " ++ written

/-- The condition that the rows of a sheet state together. -/
def clause (s : Sheet) (arrangement : Arrangement) : Except Formula.Error Clause :=
  if s.complete.isEmpty then .ok .empty
  else
    match s.body arrangement with
    | .error flaw => .error (.conditions flaw)
    | .ok body => .ok ⟨body, true⟩

/-- The body of the condition that a text arranges as a formula. A sheet without
complete rows has an empty one, and the text is not looked at. -/
def formulaBody (s : Sheet) (text : String) : Except Formula.Error String :=
  if s.complete.isEmpty then .ok ""
  else
    match Formula.check text s.size with
    | .error e => .error e
    | .ok f => (s.clause (.byFormula f)).map Clause.body

end Sheet
end QueryFilter
