import QueryFilter.Text.Blank

/-!
# Field types

The types a field can have, their names, and what each type asks of a condition:
the control in which its value is entered, the shape of that value, and whether
the value is written as a quoted literal.
-/

namespace QueryFilter

inductive FieldType
  | string
  | picklist
  | url
  | email
  | textArea
  | reference
  | phone
  | date
  | dateTime
  | currency
  | double
  | boolean
  | int
  | address
  deriving DecidableEq, Repr

/-- The control in which a condition's value is entered. -/
inductive Widget
  | text
  | number
  | date
  | dateTime
  | checkbox
  | none
  deriving DecidableEq, Repr

/-- How the value of a condition is held: one text as entered, values chosen
from a list, or a truth value. -/
inductive ValueShape
  | single
  | chosen
  | truth
  deriving DecidableEq, Repr

/-- A name that the catalog does not know. -/
inductive UnknownName
  | fieldType (name : String)
  | comparison (token : String)
  deriving DecidableEq, Repr

namespace UnknownName

def message : UnknownName → String
  | fieldType name => "Unknown data type '" ++ name ++ "'"
  | comparison token => "Unknown operator '" ++ token ++ "'"

end UnknownName

namespace Widget

def all : List Widget := [text, number, date, dateTime, checkbox, none]

def name : Widget → String
  | text => "text"
  | number => "number"
  | date => "date"
  | dateTime => "datetime"
  | checkbox => "checkbox"
  | none => "none"

end Widget

namespace FieldType

/-- Every type, in the order in which types are listed. -/
def all : List FieldType :=
  [string, picklist, url, email, textArea, reference, phone, date, dateTime, currency, double,
    boolean, int, address]

@[simp] theorem mem_all (t : FieldType) : t ∈ all := by
  cases t <;> decide

def name : FieldType → String
  | string => "String"
  | picklist => "Picklist"
  | url => "Url"
  | email => "Email"
  | textArea => "TextArea"
  | reference => "Reference"
  | phone => "Phone"
  | date => "Date"
  | dateTime => "DateTime"
  | currency => "Currency"
  | double => "Double"
  | boolean => "Boolean"
  | int => "Int"
  | address => "Address"

/-- Names are read without regard to ASCII case and surrounding blanks;
references and whole numbers have a second name. -/
def ofName? (text : String) : Option FieldType :=
  match (Text.trim text).map Char.toLower with
  | "string" => some string
  | "picklist" => some picklist
  | "url" => some url
  | "email" => some email
  | "textarea" => some textArea
  | "reference" | "id" => some reference
  | "phone" => some phone
  | "date" => some date
  | "datetime" => some dateTime
  | "currency" => some currency
  | "double" => some double
  | "boolean" => some boolean
  | "int" | "integer" => some int
  | "address" => some address
  | _ => none

def ofName (text : String) : Except UnknownName FieldType :=
  match ofName? text with
  | some t => .ok t
  | none => .error (.fieldType text)

/-- Long texts may be listed and selected but not filtered on. -/
def canBeFiltered (t : FieldType) : Bool :=
  t != textArea

def widget : FieldType → Widget
  | string | picklist | url | email | textArea | reference | phone => .text
  | date => .date
  | dateTime => .dateTime
  | currency | double | int => .number
  | boolean => .checkbox
  | address => .none

/-- Whether a value of the type is written as a quoted literal. -/
def isQuoted : FieldType → Bool
  | string | picklist | url | email | textArea | reference | phone => true
  | date | dateTime | currency | double | boolean | int | address => false

def shape : FieldType → ValueShape
  | picklist => .chosen
  | boolean => .truth
  | _ => .single

end FieldType
end QueryFilter
