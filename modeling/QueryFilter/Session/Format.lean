import QueryFilter.Json.Reader
import QueryFilter.Json.Record
import QueryFilter.Session.Basic

/-!
# The written form of sessions

Sessions, schemas and all that they hold, as JSON. The written form has every
field under its first name, with null for what is absent. When it is read, fields
with a default may be left out and some fields go by other names too.
-/

namespace QueryFilter

open Json

/-! ### Names -/

namespace FieldType

def toJson (t : FieldType) : Json := .string t.name

def ofJson? : Json → Option FieldType
  | .string text => ofName? text
  | _ => none

end FieldType

namespace Comparison

def toJson (c : Comparison) : Json := .string c.token

def ofJson? : Json → Option Comparison
  | .string text => ofToken? text
  | _ => none

end Comparison

namespace Widget

def toJson (w : Widget) : Json := .string w.name

def ofJson? : Json → Option Widget :=
  oneOf? (all.map fun w => (w.name, w))

end Widget

namespace Connective

def toJson (c : Connective) : Json := .string c.keyword

def names : List (String × Connective) :=
  [("AND", and), ("And", and), ("and", and), ("OR", or), ("Or", or), ("or", or)]

def ofJson? : Json → Option Connective := oneOf? names

end Connective

namespace JoinMode

def toJson (m : JoinMode) : Json := .string m.name

def names : List (String × JoinMode) :=
  Connective.names.map (fun entry => (entry.1, throughout entry.2)) ++
    [("PerRow", byRow), ("per_row", byRow), ("Custom", byFormula), ("custom", byFormula)]

def ofJson? : Json → Option JoinMode := oneOf? names

end JoinMode

namespace Direction

def toJson (d : Direction) : Json := .string d.keyword

def ofJson? : Json → Option Direction :=
  oneOf? [("ASC", ascending), ("DESC", descending)]

end Direction

namespace AddressPart

def writtenName : AddressPart → String
  | state => "Fetch User State"
  | country => "Fetch User Country"
  | postalCode => "Fetch User Postal Code"

def toJson (p : AddressPart) : Json := .string p.writtenName

def ofJson? : Json → Option AddressPart :=
  oneOf? ([state, country, postalCode].map fun p => (p.writtenName, p))

end AddressPart

/-! ### Records -/

namespace Choice

def toJson (c : Choice) : Json :=
  .object [("label", .string c.label), ("value", .string c.value)]

def ofJson? (j : Json) : Option Choice := do
  let r ← record? 2 j
  return {
    label := ← r.required? 0 ["label"] text?
    value := ← r.required? 1 ["value"] text? }

end Choice

namespace Field

def toJson (f : Field) : Json :=
  .object [
    ("label", .string f.label),
    ("api_name", .string f.apiName),
    ("data_type", .string f.typeName),
    ("picklist_options", ofList Choice.toJson f.choices)]

def ofJson? (j : Json) : Option Field := do
  let r ← record? 4 j
  return {
    label := ← r.required? 0 ["label"] text?
    apiName := ← r.required? 1 ["api_name", "value", "apiName"] text?
    typeName := ← r.required? 2 ["data_type", "dataType"] text?
    choices := ← r.defaulted? 3 ["picklist_options", "picklistOptions"] (items? Choice.ofJson?) [] }

end Field

namespace Schema

def toJson (s : Schema) : Json :=
  .object [("object_type", .string s.objectType), ("fields", ofList Field.toJson s.fields)]

def ofJson? (j : Json) : Option Schema := do
  let r ← record? 2 j
  return {
    objectType := ← r.required? 0 ["object_type"] text?
    fields := ← r.required? 1 ["fields"] (items? Field.ofJson?) }

end Schema

namespace SortKey

def toJson (k : SortKey) : Json :=
  .object [("field", .string k.field), ("direction", k.direction.toJson)]

def ofJson? (j : Json) : Option SortKey := do
  let r ← record? 2 j
  return {
    field := ← r.required? 0 ["field"] text?
    direction := ← r.defaulted? 1 ["direction"] Direction.ofJson? .ascending }

end SortKey

namespace UserAddress

def toJson (a : UserAddress) : Json :=
  .object [
    ("billingState", ofOption .string a.state),
    ("billingCountry", ofOption .string a.country),
    ("billingPostalCode", ofOption .string a.postalCode)]

def ofJson? (j : Json) : Option UserAddress := do
  let r ← record? 3 j
  return {
    state := ← r.defaulted? 0 ["billingState"] (nullable? text?) none
    country := ← r.defaulted? 1 ["billingCountry"] (nullable? text?) none
    postalCode := ← r.defaulted? 2 ["billingPostalCode"] (nullable? text?) none }

end UserAddress

namespace SavedRow

def toJson (row : SavedRow) : Json :=
  .object [
    ("field", .string row.field),
    ("operator", ofOption Comparison.toJson row.comparison),
    ("value", .string row.value),
    ("selectedValues", ofList .string row.selected),
    ("condition", row.joiner.toJson),
    ("valueCriteria", ofOption AddressPart.toJson row.source)]

def ofJson? (j : Json) : Option SavedRow := do
  let r ← record? 6 j
  return {
    field := ← r.required? 0 ["field"] text?
    comparison := ← r.defaulted? 1 ["operator"] (nullable? Comparison.ofJson?) none
    value := ← r.defaulted? 2 ["value"] text? ""
    selected := ← r.defaulted? 3 ["selectedValues"] (items? text?) []
    joiner := ← r.defaulted? 4 ["condition"] Connective.ofJson? .and
    source := ← r.defaulted? 5 ["valueCriteria"] (nullable? AddressPart.ofJson?) none }

end SavedRow

namespace ValueTable

def toJson (table : ValueTable) : Json :=
  .object (table.entries.map fun entry => (entry.1, ofList Choice.toJson entry.2))

def ofJson? : Json → Option ValueTable
  | .object members => do
    let entries ← members.mapM fun member => do
      return (member.1, ← items? Choice.ofJson? member.2)
    return ofEntries entries
  | _ => none

end ValueTable

namespace Session

/-- A limit is a natural number of at most 32 bits. -/
def limit? : Json → Option UInt32
  | .natural n => if n < UInt32.size then some (UInt32.ofNat n) else none
  | _ => none

def toJson (s : Session) : Json :=
  .object [
    ("objectType", .string s.objectType),
    ("fields", ofList Field.toJson s.fields),
    ("picklists", s.values.toJson),
    ("filters", ofList SavedRow.toJson s.rows),
    ("logic", s.mode.toJson),
    ("customLogic", .string s.formulaText),
    ("selectedFields", ofList .string s.columns),
    ("orderBy", ofOption SortKey.toJson s.order),
    ("limit", ofOption (fun n => .natural n.toNat) s.limit),
    ("userContext", s.address.toJson)]

def ofJson? (j : Json) : Option Session := do
  let r ← record? 10 j
  return {
    objectType := ← r.required? 0 ["objectType"] text?
    fields := ← r.defaulted? 1 ["fields"] (items? Field.ofJson?) []
    values := ← r.defaulted? 2 ["picklists"] ValueTable.ofJson? .empty
    rows := ← r.defaulted? 3 ["filters"] (items? SavedRow.ofJson?) []
    mode := ← r.defaulted? 4 ["logic"] JoinMode.ofJson? (.throughout .and)
    formulaText := ← r.defaulted? 5 ["customLogic"] text? ""
    columns := ← r.defaulted? 6 ["selectedFields"] (items? text?) []
    order := ← r.defaulted? 7 ["orderBy"] (nullable? SortKey.ofJson?) none
    limit := ← r.defaulted? 8 ["limit"] (nullable? limit?) none
    address := ← r.defaulted? 9 ["userContext"] UserAddress.ofJson? .empty }

/-- The session that a text writes. -/
def read? (text : String) : Option Session :=
  (Json.read? text).bind ofJson?

end Session
end QueryFilter
