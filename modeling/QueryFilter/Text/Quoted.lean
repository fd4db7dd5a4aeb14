/-!
# Quoted literals

A literal stands between single quotes. Inside it a quote or a backslash is
written after a backslash, so that no value ends its literal early.
-/

namespace QueryFilter
namespace Text

/-- The characters of a value as they stand inside a literal. -/
def escape : List Char → List Char
  | [] => []
  | c :: cs =>
    if c = '\'' ∨ c = '\\' then '\\' :: c :: escape cs else c :: escape cs

/-- The literal that stands for a value. -/
def quote (value : String) : String :=
  "'" ++ String.ofList (escape value.toList) ++ "'"

@[simp] theorem toList_quote (value : String) :
    (quote value).toList = '\'' :: escape value.toList ++ ['\''] := by
  simp [quote, String.toList_append]

end Text
end QueryFilter
