import QueryFilter.Sheet.Basic

/-!
# Edits of a sheet

Every way in which a sheet is edited, as one type.
-/

namespace QueryFilter

inductive Edit
  | add
  | clear (index : Nat)
  | remove (index : Nat)
  | reset
  | pointAt (index : Nat) (field : String)
  | compareBy (index : Nat) (comparison : Comparison)
  | enter (index : Nat) (value : String)
  | select (index : Nat) (values : List String)
  | joinBy (index : Nat) (joiner : Connective)
  deriving DecidableEq, Repr

namespace Sheet

/-- Carries out an edit while fields are looked up in a schema. -/
def edit (schema : Schema) (s : Sheet) : Edit → Sheet × EditResult
  | .add => (s.add, .ok none)
  | .clear index => s.clear index
  | .remove index => s.remove index
  | .reset => (s.reset, .ok none)
  | .pointAt index field => s.pointAt schema index field
  | .compareBy index comparison => s.compareBy index comparison
  | .enter index value => s.enter index value
  | .select index values => s.select index values
  | .joinBy index joiner => s.joinBy index joiner

end Sheet
end QueryFilter
