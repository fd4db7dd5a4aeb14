import QueryFilter.Formula.ParseError

/-!
# Why a formula does not describe the rows
-/

namespace QueryFilter
namespace Formula

/-- What is wrong with the conditions that a formula states. -/
inductive Flaw
  | empty
  | ungrammatical (error : ParseError)
  | unreferenced (number : Nat)
  | unknownRow (number rowCount : Nat)
  | incomplete (number : Nat)
  /-- The formula is in order, but the query made from it was refused. -/
  | refused
  deriving DecidableEq, Repr

inductive Error
  | unbalanced
  | conditions (flaw : Flaw)
  deriving DecidableEq, Repr

def Flaw.message : Flaw → String
  | empty => "expression is empty"
  | ungrammatical error => error.message
  | unreferenced number => "row " ++ toString number ++ " is not referenced"
  | unknownRow number rowCount =>
    "reference " ++ toString number ++ " is outside the " ++ toString rowCount ++ " available rows"
  | incomplete number => "row " ++ toString number ++ " is referenced but incomplete"
  | refused => "the query was rejected"

namespace Error

/-- The short message shown beside the formula. -/
def summary : Error → String
  | unbalanced => "Brackets Mis-Match"
  | conditions _ => "Invalid custom conditions"

def message : Error → String
  | unbalanced => summary .unbalanced
  | conditions flaw => summary (.conditions flaw) ++ ": " ++ flaw.message

end Error
end Formula
end QueryFilter
