import QueryFilter.Text.Blank

/-!
# Texts in pieces

Splitting at separators, the words of a text, the entries of a comma-separated
value, and whether one text occurs in another.
-/

namespace QueryFilter
namespace Text

/-- The pieces between the separators, empty ones included: one more than there
are separators. -/
def pieces (isSeparator : Char → Bool) : List Char → List (List Char)
  | [] => [[]]
  | c :: cs =>
    if isSeparator c then [] :: pieces isSeparator cs
    else match pieces isSeparator cs with
      | [] => [[c]]
      | piece :: rest => (c :: piece) :: rest

/-- The maximal runs of characters that are not blank. -/
def words (s : String) : List String :=
  ((pieces isBlank s.toList).filter fun piece => !piece.isEmpty).map String.ofList

/-- The entries of a comma-separated value, trimmed, without the empty ones. -/
def entries (s : String) : List String :=
  ((pieces (· == ',') s.toList).map fun piece => trim (String.ofList piece)).filter
    fun entry => entry != ""

/-- Whether `part` occurs somewhere in the text. -/
def occurs (part : List Char) : List Char → Bool
  | [] => part.isEmpty
  | c :: cs => part.isPrefixOf (c :: cs) || occurs part cs

/-- Whether the text `part` occurs in `s`. -/
def mentions (part s : String) : Bool :=
  occurs part.toList s.toList

@[simp] theorem pieces_ne_nil (isSeparator : Char → Bool) (cs : List Char) :
    pieces isSeparator cs ≠ [] := by
  cases cs with
  | nil => simp [pieces]
  | cons c cs => unfold pieces; split <;> (try split) <;> simp

end Text
end QueryFilter
