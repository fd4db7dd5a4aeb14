/-!
# Blank characters

The Unicode property `White_Space` as a table of ranges, and the trimming that
it gives. Field values, type names and comparison tokens are all trimmed by this
one property; custom formulas skip a smaller set of their own.
-/

namespace QueryFilter
namespace Text

/-- The code points with the property `White_Space`, as closed ranges. -/
def blankRanges : List (Nat × Nat) :=
  [(0x09, 0x0D), (0x20, 0x20), (0x85, 0x85), (0xA0, 0xA0), (0x1680, 0x1680),
    (0x2000, 0x200A), (0x2028, 0x2029), (0x202F, 0x202F), (0x205F, 0x205F), (0x3000, 0x3000)]

def isBlank (c : Char) : Bool :=
  blankRanges.any fun range => range.1 ≤ c.toNat && c.toNat ≤ range.2

/-- Drops the blanks at the end of a list of characters. -/
def dropTrailing (cs : List Char) : List Char :=
  (cs.reverse.dropWhile isBlank).reverse

def trimStart (s : String) : String :=
  String.ofList (s.toList.dropWhile isBlank)

def trim (s : String) : String :=
  String.ofList (dropTrailing (s.toList.dropWhile isBlank))

/-- Whether a text has no character other than blanks. -/
def isAllBlank (s : String) : Bool :=
  s.toList.all isBlank

@[simp] theorem toList_trimStart (s : String) :
    (trimStart s).toList = s.toList.dropWhile isBlank := by
  simp [trimStart]

@[simp] theorem toList_trim (s : String) :
    (trim s).toList = dropTrailing (s.toList.dropWhile isBlank) := by
  simp [trim]

end Text
end QueryFilter
