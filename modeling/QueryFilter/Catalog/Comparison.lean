import QueryFilter.Catalog.FieldType
import QueryFilter.Text.Pieces

/-!
# Comparisons

The comparisons a condition can make, the tokens they are written with, and the
catalog of the field types that each one applies to. The order of the catalog is
the order in which comparisons are offered.
-/

namespace QueryFilter

inductive Comparison
  | equal
  | notEqual
  | less
  | greater
  | atMost
  | atLeast
  | like
  | notLike
  deriving DecidableEq, Repr

namespace FieldType

/-- Types whose values are ordered. -/
def ordered : List FieldType :=
  [date, dateTime, currency, double, int]

/-- Types whose values can be matched against a pattern. -/
def matchable : List FieldType :=
  [string, url, email, reference, phone, address]

end FieldType

namespace Comparison

def token : Comparison → String
  | equal => "="
  | notEqual => "!="
  | less => "<"
  | greater => ">"
  | atMost => "<="
  | atLeast => ">="
  | like => "LIKE"
  | notLike => "NOT LIKE"

def label : Comparison → String
  | equal => "Equals"
  | notEqual => "Not Equals"
  | less => "Less Than"
  | greater => "Greater Than"
  | atMost => "Less Than Or Equals"
  | atLeast => "Greater Than Or Equals"
  | like => "LIKE"
  | notLike => "NOT LIKE"

/-- A comparison and the types it applies to. -/
structure Entry where
  comparison : Comparison
  types : List FieldType

def catalog : List Entry :=
  [⟨equal, FieldType.all⟩, ⟨notEqual, FieldType.all⟩, ⟨less, FieldType.ordered⟩,
    ⟨greater, FieldType.ordered⟩, ⟨atMost, FieldType.ordered⟩, ⟨atLeast, FieldType.ordered⟩,
    ⟨like, FieldType.matchable⟩, ⟨notLike, FieldType.matchable⟩]

def all : List Comparison :=
  catalog.map Entry.comparison

@[simp] theorem mem_all (c : Comparison) : c ∈ all := by
  cases c <;> decide

/-- The types a comparison applies to: those of its entry in the catalog. -/
def types (c : Comparison) : List FieldType :=
  (catalog.find? (·.comparison == c)).elim [] Entry.types

def admits (c : Comparison) (t : FieldType) : Bool :=
  c.types.contains t

@[simp] theorem mem_types {c : Comparison} {t : FieldType} :
    t ∈ c.types ↔ c.admits t = true := by
  simp [admits]

/-- Each entry of the catalog is the one that is found for its comparison. -/
theorem types_of_mem {entry : Entry} (h : entry ∈ catalog) :
    entry.comparison.types = entry.types := by
  have hfound : ∀ entry ∈ catalog, entry.comparison.types = entry.types := by decide
  exact hfound entry h

/-- Tokens are read without regard to ASCII case, with blanks of any kind and
number between and around their words; the set forms stand for equality. -/
def ofToken? (text : String) : Option Comparison :=
  match (" ".intercalate (Text.words text)).map Char.toUpper with
  | "=" | "IN" => some equal
  | "!=" | "NOT IN" => some notEqual
  | "<" => some less
  | ">" => some greater
  | "<=" => some atMost
  | ">=" => some atLeast
  | "LIKE" => some like
  | "NOT LIKE" => some notLike
  | _ => none

def ofToken (text : String) : Except UnknownName Comparison :=
  match ofToken? text with
  | some c => .ok c
  | none => .error (.comparison text)

end Comparison

namespace FieldType

/-- The comparisons offered for a type: those of the catalog's entries that have it. -/
def comparisons (t : FieldType) : List Comparison :=
  (Comparison.catalog.filter (·.types.contains t)).map Comparison.Entry.comparison

/-- The comparisons offered for a type are the ones that apply to it. -/
@[simp] theorem mem_comparisons {t : FieldType} {c : Comparison} :
    c ∈ t.comparisons ↔ c.admits t = true := by
  rw [comparisons, List.mem_map]
  constructor
  · rintro ⟨entry, hentry, rfl⟩
    obtain ⟨hmem, happlies⟩ := List.mem_filter.mp hentry
    rwa [Comparison.admits, Comparison.types_of_mem hmem]
  · intro h
    obtain ⟨entry, hmem, rfl⟩ := List.mem_map.mp (Comparison.mem_all c)
    rw [Comparison.admits, Comparison.types_of_mem hmem] at h
    exact ⟨entry, List.mem_filter.mpr ⟨hmem, h⟩, rfl⟩

end FieldType
end QueryFilter
