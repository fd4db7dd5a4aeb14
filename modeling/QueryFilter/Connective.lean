/-!
# Connectives

The two words that join one condition to the next.
-/

namespace QueryFilter

inductive Connective
  | and
  | or
  deriving DecidableEq, Repr

namespace Connective

def keyword : Connective → String
  | and => "AND"
  | or => "OR"

end Connective
end QueryFilter
