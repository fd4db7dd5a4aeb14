/-!
# Balanced parentheses

Whether every opening parenthesis of a text has its closing one. All other
characters are passed over.
-/

namespace QueryFilter
namespace Formula

/-- Whether the parentheses are balanced when some are open already. -/
def closesAll : Nat → List Char → Bool
  | depth, [] => depth == 0
  | depth, c :: cs =>
    if c = '(' then closesAll (depth + 1) cs
    else if c = ')' then
      match depth with
      | 0 => false
      | rest + 1 => closesAll rest cs
    else closesAll depth cs

def isBalanced (text : String) : Bool :=
  closesAll 0 text.toList

end Formula
end QueryFilter
