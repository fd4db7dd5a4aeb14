import QueryFilter.Catalog.FieldType

/-!
# Schemas

The fields of one object type as they were reported. A field keeps the name of
its type as reported, so that fields of unknown types can still be listed and
selected; they have no `type?` and cannot be filtered on.
-/

namespace QueryFilter

/-- A value offered for a field, with the label it is shown under. -/
structure Choice where
  label : String
  value : String
  deriving DecidableEq, Repr

structure Field where
  label : String
  apiName : String
  typeName : String
  /-- Values known in advance. When there are none, a picklist row asks for them. -/
  choices : List Choice
  deriving DecidableEq, Repr

structure Schema where
  objectType : String
  fields : List Field
  deriving DecidableEq, Repr

namespace Choice

/-- The values offered for a truth value. -/
def truthValues : List Choice :=
  [⟨"True", "true"⟩, ⟨"False", "false"⟩]

end Choice

namespace Field

def type? (f : Field) : Option FieldType :=
  FieldType.ofName? f.typeName

def canBeFiltered (f : Field) : Bool :=
  f.type?.any FieldType.canBeFiltered

end Field

namespace Schema

/-- The first field with a given API name. -/
def find? (s : Schema) (apiName : String) : Option Field :=
  s.fields.find? (·.apiName == apiName)

/-- The fields that can be filtered on, by label in code point order; fields
with equal labels keep their order. -/
def filterFields (s : Schema) : List Field :=
  (s.fields.filter (·.canBeFiltered)).mergeSort fun a b => decide (a.label ≤ b.label)

end Schema
end QueryFilter
