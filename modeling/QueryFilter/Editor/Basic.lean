import QueryFilter.Sheet.Clause
import QueryFilter.Sheet.Edit

/-!
# Editors

An editor holds the sheet for one object type, the way its rows are joined, the
text of the formula for when a formula joins them, and the verdict on that text.
Whatever changes the text, the number of rows or the way of joining takes the
verdict back.
-/

namespace QueryFilter

/-- The way the rows of an editor are joined. -/
inductive JoinMode
  | throughout (connective : Connective)
  | byRow
  | byFormula
  deriving DecidableEq, Repr

def JoinMode.name : JoinMode → String
  | throughout connective => connective.keyword
  | byRow => "PerRow"
  | byFormula => "Custom"

/-- What is known of the formula text. -/
inductive Verdict
  | unchecked
  | valid
  | invalid (error : Formula.Error)
  deriving DecidableEq, Repr

namespace Verdict

def error? : Verdict → Option Formula.Error
  | invalid error => some error
  | _ => none

/-- The message shown beside the formula. -/
def summary? (v : Verdict) : Option String :=
  v.error?.map Formula.Error.summary

end Verdict

structure Editor where
  schema : Schema
  sheet : Sheet
  mode : JoinMode
  formulaText : String
  verdict : Verdict
  deriving DecidableEq, Repr

namespace Editor

def new (schema : Schema) : Editor :=
  { schema, sheet := .new, mode := .throughout .and, formulaText := "", verdict := .unchecked }

/-- One blank row joined by AND, and no formula. -/
def reset (e : Editor) : Editor :=
  { e with sheet := e.sheet.reset, mode := .throughout .and, formulaText := "", verdict := .unchecked }

/-- Turns to another object type, without the rows of the present one. -/
def setSchema (e : Editor) (schema : Schema) : Editor :=
  { e with schema := schema }.reset

/-- Appends a blank row. -/
def add (e : Editor) : Editor :=
  { e with sheet := e.sheet.add, verdict := .unchecked }

/-- The verdict after a successful edit: only a change in the number of rows
takes it back. -/
def verdictAfter (v : Verdict) : Edit → Verdict
  | .add | .remove _ => .unchecked
  | _ => v

def edit (e : Editor) : Edit → Editor × EditResult
  | .reset => (e.reset, .ok none)
  | change =>
    let (sheet, result) := e.sheet.edit e.schema change
    match result with
    | .error refusal => ({ e with sheet := sheet }, .error refusal)
    | .ok request =>
      ({ e with sheet := sheet, verdict := verdictAfter e.verdict change }, .ok request)

@[simp] theorem edit_add (e : Editor) : e.edit .add = (e.add, .ok none) := rfl

def deliver (e : Editor) (delivery : Delivery) : Editor × Outcome :=
  let (sheet, outcome) := e.sheet.deliver delivery
  ({ e with sheet := sheet }, outcome)

def setMode (e : Editor) (mode : JoinMode) : Editor :=
  if e.mode = mode then e else { e with mode := mode, verdict := .unchecked }

def setFormula (e : Editor) (text : String) : Editor :=
  { e with formulaText := text, verdict := .unchecked }

/-- The formula of an editor, if its text states one about the present rows. -/
def check (e : Editor) : Except Formula.Error Formula :=
  Formula.check e.formulaText e.sheet.size

def validate (e : Editor) : Editor :=
  match e.check with
  | .ok _ => { e with verdict := .valid }
  | .error error => { e with verdict := .invalid error }

/-- The condition that the formula of an editor gives. Without complete rows the
formula is not looked at. -/
def produceByFormula (e : Editor) : Editor × Except Formula.Error Clause :=
  if e.sheet.complete.isEmpty then ({ e with verdict := .unchecked }, .ok .empty)
  else
    match e.check.bind fun f => e.sheet.clause (.byFormula f) with
    | .ok clause => ({ e with verdict := .valid }, .ok clause)
    | .error error => ({ e with verdict := .invalid error }, .error error)

/-- The condition of the query, joined as the editor's mode says. -/
def produce (e : Editor) : Editor × Except Formula.Error Clause :=
  match e.mode with
  | .throughout connective => (e, e.sheet.clause (.throughout connective))
  | .byRow => (e, e.sheet.clause .byRow)
  | .byFormula => e.produceByFormula

/-- Blames the formula for a query that was refused. Where no formula joins the
rows there is nothing to blame. -/
def blame (e : Editor) : Editor × Option Formula.Error :=
  if e.mode = .byFormula then
    let error := match e.check with
      | .ok _ => .conditions .refused
      | .error error => error
    ({ e with verdict := .invalid error }, some error)
  else (e, none)

/-- Takes in the message of a query that failed. One that names a connective is
blamed on the formula. -/
def queryFailed (e : Editor) (message : String) : Editor × Option Formula.Error :=
  if Text.mentions "AND" message || Text.mentions "OR" message then e.blame else (e, none)

end Editor
end QueryFilter
