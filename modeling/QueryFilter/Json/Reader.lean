import QueryFilter.Json.Token

/-!
# Reading a JSON text

The reader keeps the arrays and objects that are still open and takes one token
at a time, so nesting may be as deep as a text makes it. A text is one value with
nothing before or after it but spaces.
-/

namespace QueryFilter
namespace Json

/-- An array or object that is still open, with what it holds so far, latest
first. A key that denotes no text is kept as `none`. -/
inductive Frame
  | array (items : List Json)
  | object (members : List (Option String × Json)) (key : Option String)

/-- What the reader needs next. -/
inductive ReaderState
  | needsValue (outer : List Frame)
  | needsItemOrEnd (outer : List Frame)
  | needsKeyOrEnd (outer : List Frame)
  | needsKey (members : List (Option String × Json)) (outer : List Frame)
  | needsColon (members : List (Option String × Json)) (key : Option String) (outer : List Frame)
  /-- A mark that continues or ends what is open around a value. -/
  | needsMark (value : Json) (outer : List Frame)

/-- The object with some members, unless one of its keys denotes no text. -/
def ofMembers (members : List (Option String × Json)) : Json :=
  match members.mapM fun (key, value) => key.map (·, value) with
  | some named => object named
  | none => illegible

/-- The key that a literal writes, if it is a string. -/
def keyOf? : Json → Option (Option String)
  | string text => some (some text)
  | illegible => some none
  | _ => none

namespace ReaderState

def start : ReaderState := needsValue []

/-- The state after the start of a value. -/
def open? (outer : List Frame) : Token → Option ReaderState
  | .literal value => some (needsMark value outer)
  | .beginArray => some (needsItemOrEnd outer)
  | .beginObject => some (needsKeyOrEnd outer)
  | _ => none

/-- The state after a key. -/
def afterKey? (members : List (Option String × Json)) (outer : List Frame) :
    Token → Option ReaderState
  | .literal literal => (keyOf? literal).map fun key => needsColon members key outer
  | _ => none

/-- The state after a token, if a text can go on with it. -/
def next? : ReaderState → Token → Option ReaderState
  | needsValue outer, token => open? outer token
  | needsItemOrEnd outer, .endArray => some (needsMark (.array []) outer)
  | needsItemOrEnd outer, token => open? (.array [] :: outer) token
  | needsKeyOrEnd outer, .endObject => some (needsMark (.object []) outer)
  | needsKeyOrEnd outer, token => afterKey? [] outer token
  | needsKey members outer, token => afterKey? members outer token
  | needsColon members key outer, .colon => some (needsValue (.object members key :: outer))
  | needsMark item (.array items :: outer), .comma =>
    some (needsValue (.array (item :: items) :: outer))
  | needsMark item (.array items :: outer), .endArray =>
    some (needsMark (.array (item :: items).reverse) outer)
  | needsMark value (.object members key :: outer), .comma =>
    some (needsKey ((key, value) :: members) outer)
  | needsMark value (.object members key :: outer), .endObject =>
    some (needsMark (ofMembers ((key, value) :: members).reverse) outer)
  | _, _ => none

/-- The value that has been read, if the text may end here. -/
def finish? : ReaderState → Option Json
  | needsMark value [] => some value
  | _ => none

end ReaderState

/-- The value that a text writes. -/
def read? (text : String) : Option Json := do
  let tokens ← tokens? text.toList
  let state ← tokens.foldlM ReaderState.next? .start
  state.finish?

end Json
end QueryFilter
