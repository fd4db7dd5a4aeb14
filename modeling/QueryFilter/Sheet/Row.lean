import QueryFilter.Catalog.Comparison
import QueryFilter.Connective
import QueryFilter.Schema

/-!
# Rows of a filter

A row states one condition: a field, a comparison, and a value or a selection.
What a row can hold follows from the type of its field. Each time a row is
emptied it enters a new generation, and its id and generation together make its
stamp, under which values for it are asked for and delivered.
-/

namespace QueryFilter

/-- A row at one stage of its life. -/
structure Stamp where
  id : Nat
  generation : Nat
  deriving DecidableEq, Repr

/-- The values offered to a row and the ones chosen. -/
structure Picklist where
  choices : List Choice
  selected : List String
  /-- Whether the offered values are known. -/
  loaded : Bool
  deriving DecidableEq, Repr

/-- What a row holds for its value. A row without a known field is unresolved. -/
inductive Content
  | unresolved
  | single (type : FieldType)
  | truth
  | picklist (list : Picklist)
  deriving DecidableEq, Repr

structure Row where
  id : Nat
  generation : Nat
  /-- The number that formulas know the row by. -/
  number : Nat
  field : String
  comparison : Option Comparison
  value : String
  /-- The word before this row where each row brings its own. -/
  joiner : Connective
  content : Content
  deriving DecidableEq, Repr

/-- A request for the values that a picklist row offers. -/
structure Request where
  stamp : Stamp
  objectType : String
  field : String
  deriving DecidableEq, Repr

/-- Why a request was not answered with values. -/
structure FetchFailure where
  reason : String
  deriving DecidableEq, Repr

def FetchFailure.message (failure : FetchFailure) : String :=
  "Picklist fetch failed: " ++ failure.reason

/-- The answer to a request, for the row that bore the stamp when it was made. -/
structure Delivery where
  stamp : Stamp
  result : Except FetchFailure (List Choice)

/-- What became of a delivery. -/
inductive Outcome
  | applied
  /-- No row bears the stamp any more. -/
  | stale
  | failed (failure : FetchFailure)
  deriving DecidableEq, Repr

namespace Request

def answer (request : Request) (result : Except FetchFailure (List Choice)) : Delivery :=
  ⟨request.stamp, result⟩

end Request

namespace Content

/-- What a row holds that points at a field. -/
def ofField (field : Field) : Content :=
  match field.type? with
  | none => unresolved
  | some type =>
    match type.shape with
    | .single => single type
    | .truth => truth
    | .chosen => picklist ⟨field.choices, [], !field.choices.isEmpty⟩

def type? : Content → Option FieldType
  | unresolved => none
  | single type => some type
  | truth => some .boolean
  | picklist _ => some .picklist

/-- The values a row offers. -/
def choices : Content → List Choice
  | truth => Choice.truthValues
  | picklist list => list.choices
  | _ => []

def selected : Content → List String
  | picklist list => list.selected
  | _ => []

def isPicklist : Content → Bool
  | picklist _ => true
  | _ => false

/-- Whether a value can be entered: the row has a type, and a picklist its values. -/
def acceptsValue : Content → Bool
  | unresolved => false
  | picklist list => list.loaded
  | _ => true

end Content

namespace Row

def blank (id number : Nat) : Row :=
  { id, generation := 0, number, field := "", comparison := none, value := "", joiner := .and
    content := .unresolved }

def stamp (row : Row) : Stamp :=
  ⟨row.id, row.generation⟩

def type? (row : Row) : Option FieldType :=
  row.content.type?

/-- The comparisons offered for a row's type. -/
def comparisons (row : Row) : List Comparison :=
  row.type?.elim [] FieldType.comparisons

def widget? (row : Row) : Option Widget :=
  row.type?.map FieldType.widget

/-- Whether a row states a condition: a field, a comparison and some value. -/
def isComplete (row : Row) : Bool :=
  row.field != "" && row.comparison.isSome && (row.value != "" || !row.content.selected.isEmpty)

/-- Empties a row. It keeps its place and its joiner and enters a new generation. -/
def clear (row : Row) : Row :=
  { row with
    generation := row.generation + 1, field := "", comparison := none, value := ""
    content := .unresolved }

/-- Empties a row and points it at a field. A field that the schema does not
have leaves the row unresolved. -/
def pointAt (schema : Schema) (name : String) (row : Row) : Row :=
  { row.clear with
    field := name
    content := (schema.find? name).elim .unresolved Content.ofField }

/-- The request of a row that has just been pointed at its field: a picklist
without values asks for them. -/
def request? (schema : Schema) (row : Row) : Option Request :=
  match row.content with
  | .picklist list =>
    if list.choices.isEmpty then some ⟨row.stamp, schema.objectType, row.field⟩ else none
  | _ => none

/-- Takes in the values delivered for a picklist. If nothing is selected yet,
the entries of the row's value become the selection. -/
def receive (choices : List Choice) (row : Row) : Row :=
  match row.content with
  | .picklist list =>
    let selected := if list.selected.isEmpty then Text.entries row.value else list.selected
    { row with content := .picklist ⟨choices, selected, true⟩ }
  | _ => row

@[simp] theorem stamp_clear (row : Row) :
    row.clear.stamp = ⟨row.id, row.generation + 1⟩ := rfl

@[simp] theorem stamp_pointAt (schema : Schema) (name : String) (row : Row) :
    (row.pointAt schema name).stamp = ⟨row.id, row.generation + 1⟩ := rfl

@[simp] theorem stamp_receive (choices : List Choice) (row : Row) :
    (row.receive choices).stamp = row.stamp := by
  unfold receive
  split <;> rfl

end Row
end QueryFilter
