import QueryFilter.Sheet.Row

/-!
# Sheets

A sheet is the numbered list of rows of a filter. It starts with one blank row
and keeps at least one: removing the last row empties it. Rows are addressed by
their index, which counts from 0; ids are never used twice. An edit that may be
refused gives the sheet that it leaves in either case.
-/

namespace QueryFilter

/-- Why an edit of a row was refused. -/
inductive EditError
  | noSuchRow (index rowCount : Nat)
  | unresolvedField (index : Nat)
  | inapplicable (comparison : Comparison) (type : FieldType)
  | notSelectable (index : Nat)
  deriving DecidableEq, Repr

namespace EditError

def message : EditError → String
  | noSuchRow index rowCount =>
    "Row index " ++ toString index ++ " is out of range (" ++ toString rowCount ++ " rows)"
  | unresolvedField index => "Row " ++ toString (index + 1) ++ " has no resolved field"
  | inapplicable comparison type =>
    "Cannot use '" ++ comparison.token ++ "' operator on " ++ type.name ++ " fields. Supported: " ++
      ", ".intercalate (type.comparisons.map Comparison.token)
  | notSelectable index => "Row " ++ toString (index + 1) ++ " is not a picklist row"

end EditError

/-- What comes of an edit: why it was refused, or the request that it gives rise to. -/
abbrev EditResult := Except EditError (Option Request)

structure Sheet where
  rows : List Row
  nextId : Nat
  deriving DecidableEq, Repr

namespace Sheet

/-- A sheet with one blank row. -/
def new : Sheet := ⟨[.blank 0 1], 1⟩

def size (s : Sheet) : Nat := s.rows.length

/-- Appends a blank row. -/
def add (s : Sheet) : Sheet :=
  ⟨s.rows ++ [.blank s.nextId (s.size + 1)], s.nextId + 1⟩

/-- Puts one blank row in place of all rows. -/
def reset (s : Sheet) : Sheet :=
  ⟨[.blank s.nextId 1], s.nextId + 1⟩

/-- Changes the row at an index. -/
def update (s : Sheet) (index : Nat) (change : Row → Row × EditResult) : Sheet × EditResult :=
  match s.rows[index]? with
  | none => (s, .error (.noSuchRow index s.size))
  | some row => ({ s with rows := s.rows.set index (change row).1 }, (change row).2)

def clear (s : Sheet) (index : Nat) : Sheet × EditResult :=
  s.update index fun row => (row.clear, .ok none)

/-- Numbers rows from 1. -/
def renumber (rows : List Row) : List Row :=
  rows.mapIdx fun index row => { row with number := index + 1 }

/-- Removes a row and renumbers the others. The only row of a sheet is emptied instead. -/
def remove (s : Sheet) (index : Nat) : Sheet × EditResult :=
  if s.size = 1 then s.clear index
  else if index < s.size then ({ s with rows := renumber (s.rows.eraseIdx index) }, .ok none)
  else (s, .error (.noSuchRow index s.size))

/-- Points a row at a field, with the request that this gives rise to. -/
def pointAt (s : Sheet) (schema : Schema) (index : Nat) (field : String) : Sheet × EditResult :=
  s.update index fun row =>
    (row.pointAt schema field, .ok ((row.pointAt schema field).request? schema))

def compareBy (s : Sheet) (index : Nat) (comparison : Comparison) : Sheet × EditResult :=
  s.update index fun row =>
    match row.type? with
    | none => (row, .error (.unresolvedField index))
    | some type =>
      if comparison.admits type then ({ row with comparison := some comparison }, .ok none)
      else (row, .error (.inapplicable comparison type))

def enter (s : Sheet) (index : Nat) (value : String) : Sheet × EditResult :=
  s.update index fun row => ({ row with value := value }, .ok none)

/-- Selects values of a picklist row. They need not be among the values offered. -/
def select (s : Sheet) (index : Nat) (values : List String) : Sheet × EditResult :=
  s.update index fun row =>
    match row.content with
    | .picklist list => ({ row with content := .picklist { list with selected := values } }, .ok none)
    | _ => (row, .error (.notSelectable index))

def joinBy (s : Sheet) (index : Nat) (joiner : Connective) : Sheet × EditResult :=
  s.update index fun row => ({ row with joiner := joiner }, .ok none)

/-- The index of the first row with an id; the number of rows if there is none. -/
def indexOf (s : Sheet) (id : Nat) : Nat :=
  s.rows.findIdx (·.id == id)

/-- Hands an answer to the row it was asked for. A row that has been emptied since
then is in a later generation, and the answer is stale. -/
def deliver (s : Sheet) (delivery : Delivery) : Sheet × Outcome :=
  let index := s.indexOf delivery.stamp.id
  match s.rows[index]? with
  | none => (s, .stale)
  | some row =>
    if row.generation ≠ delivery.stamp.generation then (s, .stale)
    else
      match delivery.result with
      | .error failure => (s, .failed failure)
      | .ok choices =>
        if row.content.isPicklist then
          ({ s with rows := s.rows.set index (row.receive choices) }, .applied)
        else (s, .stale)

/-- The rows that state a condition, in order. -/
def complete (s : Sheet) : List Row :=
  s.rows.filter Row.isComplete

end Sheet
end QueryFilter
