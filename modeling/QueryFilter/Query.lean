import QueryFilter.Sheet.Clause

/-!
# Queries

A query selects columns of one object type, under a condition, in an order, and
up to a limit. Its id and name are always selected, and come first.
-/

namespace QueryFilter

inductive Direction
  | ascending
  | descending
  deriving DecidableEq, Repr

structure SortKey where
  field : String
  direction : Direction
  deriving DecidableEq, Repr

structure Query where
  objectType : String
  /-- The columns selected beside the id and the name. -/
  chosen : List String
  clause : Clause
  order : Option SortKey
  limit : Option UInt32
  deriving DecidableEq, Repr

inductive QueryError
  | noColumns
  | noObjectType
  deriving DecidableEq, Repr

def QueryError.message : QueryError → String
  | noColumns => "Select at least 1 field to display."
  | noObjectType => "No object type selected."

def Direction.keyword : Direction → String
  | ascending => "ASC"
  | descending => "DESC"

namespace Query

/-- The number of records that a query without a limit asks for. -/
def defaultLimit : Nat := 5000

/-- The columns that every query selects. -/
def baseColumns : List String := ["Id", "Name"]

def columns (q : Query) : List String :=
  baseColumns ++ q.chosen.filter fun column => !baseColumns.contains column

/-- Orders a query by a key. A key without a field orders nothing. -/
def orderedBy (q : Query) (key : Option SortKey) : Query :=
  { q with order := key.filter fun key => key.field != "" }

def text (q : Query) : Except QueryError String :=
  if q.objectType = "" then .error .noObjectType
  else if q.chosen.isEmpty then .error .noColumns
  else
    let condition := q.clause.text?.elim "" (" " ++ ·)
    let order := q.order.elim "" fun key =>
      " ORDER BY " ++ key.field ++ " " ++ key.direction.keyword
    .ok ("SELECT " ++ ", ".intercalate q.columns ++ " FROM " ++ q.objectType ++ condition ++ order ++
      " LIMIT " ++ toString (q.limit.elim defaultLimit UInt32.toNat))

end Query
end QueryFilter
