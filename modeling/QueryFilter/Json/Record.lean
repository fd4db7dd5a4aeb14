import QueryFilter.Json.Basic

/-!
# Records in JSON

A record is written as an object with one member for each field, under the
field's name or another name it goes by, in any order and among members of other
names; or as an array of the fields in their order, without some at the end. A
field that is left out has its default, if it has one.
-/

namespace QueryFilter
namespace Json

def text? : Json → Option String
  | string text => some text
  | _ => none

def items? (read : Json → Option α) : Json → Option (List α)
  | array items => items.mapM read
  | _ => none

/-- A value that may be absent, which is written as null. -/
def nullable? (read : Json → Option α) : Json → Option (Option α)
  | null => some none
  | value => (read value).map some

/-- One of some named values: its name, or an object with null under that name. -/
def oneOf? (names : List (String × α)) : Json → Option α
  | string name => names.lookup name
  | object [(name, null)] => names.lookup name
  | _ => none

/-- The fields of a record as they are written. -/
inductive Record
  | named (members : List (String × Json))
  | listed (items : List Json)

/-- The written fields of a record that has `size` of them. -/
def record? (size : Nat) : Json → Option Record
  | object members => some (.named members)
  | array items => if items.length ≤ size then some (.listed items) else none
  | _ => none

namespace Record

/-- The value written for a field, if there is one. A field that is written
twice, under one name or two, is refused. -/
def find? (record : Record) (index : Nat) (names : List String) : Option (Option Json) :=
  match record with
  | named members =>
    match members.filter fun member => names.contains member.1 with
    | [] => some none
    | [member] => some (some member.2)
    | _ => none
  | listed items => some items[index]?

def required? (record : Record) (index : Nat) (names : List String) (read : Json → Option α) :
    Option α :=
  match record.find? index names with
  | some (some value) => read value
  | _ => none

def defaulted? (record : Record) (index : Nat) (names : List String) (read : Json → Option α)
    (default : α) : Option α :=
  match record.find? index names with
  | some (some value) => read value
  | some none => some default
  | none => none

end Record
end Json
end QueryFilter
