import QueryFilter.Editor.Basic
import QueryFilter.Query
import QueryFilter.Session.ValueTable

/-!
# Sessions

A session is what is saved of a filter: the schema, the rows, the way they are
joined, the rest of the query, and the values that picklist rows and the user's
own address supply when the rows are restored.
-/

namespace QueryFilter

/-- A part of the user's billing address that a row can take its value from. -/
inductive AddressPart
  | state
  | country
  | postalCode
  deriving DecidableEq, Repr

/-- The billing address of the user. -/
structure UserAddress where
  state : Option String
  country : Option String
  postalCode : Option String
  deriving DecidableEq, Repr

structure SavedRow where
  field : String
  comparison : Option Comparison
  /-- Separated by commas for a picklist row. -/
  value : String
  selected : List String
  joiner : Connective
  /-- Where the value comes from instead, if the user's address has that part. -/
  source : Option AddressPart
  deriving DecidableEq, Repr

structure Session where
  objectType : String
  fields : List Field
  values : ValueTable
  rows : List SavedRow
  mode : JoinMode
  formulaText : String
  columns : List String
  order : Option SortKey
  limit : Option UInt32
  address : UserAddress
  deriving DecidableEq

namespace AddressPart

/-- What a part of the address is called in messages. -/
def name : AddressPart → String
  | state => "user state"
  | country => "user country"
  | postalCode => "user postal code"

end AddressPart

namespace UserAddress

def empty : UserAddress := ⟨none, none, none⟩

def part? (address : UserAddress) : AddressPart → Option String
  | .state => address.state
  | .country => address.country
  | .postalCode => address.postalCode

end UserAddress

namespace SavedRow

/-- The value that a row is restored with. -/
def valueFor (row : SavedRow) (address : UserAddress) : String :=
  (row.source.bind address.part?).getD row.value

end SavedRow

namespace Session

def schema (s : Session) : Schema :=
  ⟨s.objectType, s.fields⟩

/-- The query of a session under a condition. -/
def query (s : Session) (clause : Clause) : Query :=
  Query.orderedBy
    { objectType := s.objectType, chosen := s.columns, clause, order := none, limit := s.limit }
    s.order

end Session
end QueryFilter
