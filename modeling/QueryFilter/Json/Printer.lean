import QueryFilter.Json.Basic

/-!
# Printing JSON

Each item and each member stands on a line of its own, two spaces further in than
what holds it; an empty array or object is its two marks. In strings only quotes,
backslashes and control characters are escaped.
-/

namespace QueryFilter
namespace Json

/-- The lower-case hexadecimal digit of a number below 16. -/
def hexDigit (n : Nat) : Char :=
  if n < 10 then Char.ofNat ('0'.toNat + n) else Char.ofNat ('a'.toNat + (n - 10))

def escapeCharacter (c : Char) : List Char :=
  match c with
  | '"' => ['\\', '"']
  | '\\' => ['\\', '\\']
  | '\x08' => ['\\', 'b']
  | '\x0c' => ['\\', 'f']
  | '\n' => ['\\', 'n']
  | '\r' => ['\\', 'r']
  | '\t' => ['\\', 't']
  | c =>
    if c.toNat < 0x20 then ['\\', 'u', '0', '0', hexDigit (c.toNat / 16), hexDigit (c.toNat % 16)]
    else [c]

/-- A text as a string literal. -/
def stringLiteral (text : String) : String :=
  "\"" ++ String.ofList (text.toList.flatMap escapeCharacter) ++ "\""

/-- The start of a line at a depth of nesting. -/
def newline (depth : Nat) : String :=
  "\n" ++ String.ofList (List.replicate (2 * depth) ' ')

/-- Marks around parts that stand on lines of their own. -/
def enclose (depth : Nat) (first last : String) (parts : List String) : String :=
  if parts.isEmpty then first ++ last
  else
    first ++ newline (depth + 1) ++ ("," ++ newline (depth + 1)).intercalate parts ++
      newline depth ++ last

mutual

/-- The text of a value inside some depth of nesting. -/
def printAt (depth : Nat) : Json → String
  | null => "null"
  | bool value => if value then "true" else "false"
  | natural value => toString value
  | decimal literal => literal
  | string text => stringLiteral text
  | array items => enclose depth "[" "]" (printItems (depth + 1) items)
  | object members => enclose depth "\x7b" "\x7d" (printMembers (depth + 1) members)
  | illegible => "null"

def printItems (depth : Nat) : List Json → List String
  | [] => []
  | item :: rest => printAt depth item :: printItems depth rest

def printMembers (depth : Nat) : List (String × Json) → List String
  | [] => []
  | (key, value) :: rest =>
    (stringLiteral key ++ ": " ++ printAt depth value) :: printMembers depth rest

end

def print (value : Json) : String :=
  printAt 0 value

end Json
end QueryFilter
