/-!
# JSON values

Members of an object keep their order and may repeat a key. Numbers are told
apart by what they are needed for: a plain run of digits is a natural number, and
every other literal is kept as it is written.
-/

namespace QueryFilter

inductive Json
  | null
  | bool (value : Bool)
  | natural (value : Nat)
  /-- A number written with a sign, a fraction or an exponent. -/
  | decimal (literal : String)
  | string (text : String)
  | array (items : List Json)
  | object (members : List (String × Json))
  /-- A well-formed string or object of which a string, as a key or as itself,
  escapes half of a surrogate pair and so denotes no text. -/
  | illegible
  deriving Repr, Inhabited

namespace Json

def ofOption (write : α → Json) : Option α → Json
  | some a => write a
  | none => null

def ofList (write : α → Json) (items : List α) : Json :=
  array (items.map write)

end Json
end QueryFilter
