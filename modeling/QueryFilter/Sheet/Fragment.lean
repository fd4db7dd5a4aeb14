import QueryFilter.Sheet.Row
import QueryFilter.Text.Quoted

/-!
# Fragments

The text of the condition that a row states. A fragment starts with a space, so
that it can follow a connective. Texts and selections are quoted; truth values
and all other values are written as they are.
-/

namespace QueryFilter
namespace Fragment

/-- The token of a row's comparison; nothing for a row that has none. -/
def token (comparison : Option Comparison) : String :=
  comparison.elim "" Comparison.token

/-- A text is compared with a literal or matched against a pattern that it contains.
The negated match is written as the negation of a match. -/
def ofText (field : String) (comparison : Option Comparison) (value : String) : String :=
  match comparison with
  | some .like => " " ++ field ++ " LIKE " ++ Text.quote ("%" ++ value ++ "%")
  | some .notLike => " (NOT " ++ field ++ " LIKE  " ++ Text.quote ("%" ++ value ++ "%") ++ ")"
  | _ => " " ++ field ++ " " ++ token comparison ++ " " ++ Text.quote value

/-- A selection is compared as a set; an empty one as the empty text. -/
def ofSelection (field : String) (comparison : Option Comparison) (selected : List String) :
    String :=
  match selected with
  | [] => " " ++ field ++ " " ++ token comparison ++ " ''"
  | _ =>
    let keyword := if comparison = some .notEqual then "NOT IN" else "IN"
    " " ++ field ++ " " ++ keyword ++ " (" ++ ", ".intercalate (selected.map Text.quote) ++ ")"

/-- A truth value is true for the one text that says so. -/
def ofTruth (field : String) (comparison : Option Comparison) (value : String) : String :=
  " " ++ field ++ " " ++ token comparison ++ " " ++ (if value = "true" then "true" else "false")

/-- Other values stand as they were entered. -/
def verbatim (field : String) (comparison : Option Comparison) (value : String) : String :=
  " " ++ field ++ " " ++ token comparison ++ " " ++ (if value = "" then "''" else value)

end Fragment

namespace Row

/-- The text of the condition that a row states, complete or not. -/
def fragment (row : Row) : String :=
  match row.content with
  | .picklist list => Fragment.ofSelection row.field row.comparison list.selected
  | .truth => Fragment.ofTruth row.field row.comparison row.value
  | .single type =>
    if type.isQuoted then Fragment.ofText row.field row.comparison row.value
    else Fragment.verbatim row.field row.comparison row.value
  | .unresolved => Fragment.verbatim row.field row.comparison row.value

end Row
end QueryFilter
