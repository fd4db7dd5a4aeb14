import QueryFilter.Sheet.Row

/-!
# Value tables

The values that a session can serve to picklist rows, by the name of the field.
A field has at most one entry; writing it again replaces its values.
-/

namespace QueryFilter

structure ValueTable where
  entries : List (String × List Choice)
  distinct : (entries.map Prod.fst).Nodup
  deriving DecidableEq

namespace ValueTable

def empty : ValueTable := ⟨[], List.nodup_nil⟩

/-- Replaces the values of a field in its place, or adds them at the end. -/
def put (field : String) (values : List Choice) :
    List (String × List Choice) → List (String × List Choice)
  | [] => [(field, values)]
  | entry :: rest =>
    if entry.1 = field then (field, values) :: rest else entry :: put field values rest

theorem keys_put (field : String) (values : List Choice) (entries : List (String × List Choice)) :
    (put field values entries).map Prod.fst =
      if field ∈ entries.map Prod.fst then entries.map Prod.fst
      else entries.map Prod.fst ++ [field] := by
  induction entries with
  | nil => simp [put]
  | cons entry rest ih =>
    by_cases h : entry.1 = field
    · simp [put, h]
    · simp only [put, h, if_false, List.map_cons, ih, List.mem_cons, Ne.symm h, false_or]
      split <;> simp

theorem nodup_put (field : String) (values : List Choice) {entries : List (String × List Choice)}
    (h : (entries.map Prod.fst).Nodup) : ((put field values entries).map Prod.fst).Nodup := by
  rw [keys_put]
  split
  · exact h
  · next hf => exact List.nodup_append.2 ⟨h, by simp, by rintro a ha b hb rfl; simp_all⟩

def insert (table : ValueTable) (field : String) (values : List Choice) : ValueTable :=
  ⟨put field values table.entries, nodup_put field values table.distinct⟩

/-- The table of some entries, of which the last one for a field counts. -/
def ofEntries (entries : List (String × List Choice)) : ValueTable :=
  entries.foldl (fun table entry => table.insert entry.1 entry.2) empty

def find? (table : ValueTable) (field : String) : Option (List Choice) :=
  table.entries.lookup field

/-- What a table answers to a request. -/
def answer (table : ValueTable) (request : Request) : Delivery :=
  request.answer <|
    match table.find? request.field with
    | some choices => .ok choices
    | none => .error ⟨"no picklist values for " ++ request.objectType ++ "." ++ request.field⟩

end ValueTable
end QueryFilter
