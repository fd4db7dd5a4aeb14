/-!
# Formulas over numbered rows

A formula says how the rows of a filter combine. Its leaves are row numbers,
counted from 1, and the parentheses that its author wrote are part of it.
-/

namespace QueryFilter

inductive Formula
  | row (number : Nat)
  | not (body : Formula)
  | all (parts : List Formula)
  | any (parts : List Formula)
  | group (body : Formula)
  deriving Repr, Inhabited

namespace Formula

/-- The operands of AND as one formula; a single operand stands for itself. -/
def conjunction : List Formula → Formula
  | [part] => part
  | parts => all parts

/-- The operands of OR as one formula; a single operand stands for itself. -/
def disjunction : List Formula → Formula
  | [part] => part
  | parts => any parts

/-- A formula under a number of negations. -/
def negate : Nat → Formula → Formula
  | 0, body => body
  | n + 1, body => not (negate n body)

/-! ### Written form -/

mutual

/-- The text of a formula. -/
def text : Formula → String
  | row number => toString number
  | not body => "NOT " ++ text body
  | all parts => " AND ".intercalate (texts parts)
  | any parts => " OR ".intercalate (texts parts)
  | group body => "(" ++ text body ++ ")"

def texts : List Formula → List String
  | [] => []
  | part :: rest => text part :: texts rest

end

@[simp] theorem texts_eq_map (parts : List Formula) : texts parts = parts.map text := by
  induction parts with
  | nil => rfl
  | cons part rest ih => simp [texts, ih]

/-! ### Row numbers -/

mutual

/-- The row numbers at the leaves, in reading order. -/
def leaves : Formula → List Nat
  | row number => [number]
  | not body => leaves body
  | all parts => leavesOf parts
  | any parts => leavesOf parts
  | group body => leaves body

def leavesOf : List Formula → List Nat
  | [] => []
  | part :: rest => leaves part ++ leavesOf rest

end

@[simp] theorem leavesOf_eq_flatMap (parts : List Formula) :
    leavesOf parts = parts.flatMap leaves := by
  induction parts with
  | nil => rfl
  | cons part rest ih => simp [leavesOf, ih]

/-- Puts a number into an ascending list unless it is there already. -/
def insertAscending (n : Nat) : List Nat → List Nat
  | [] => [n]
  | m :: ms =>
    if n < m then n :: m :: ms
    else if n = m then m :: ms
    else m :: insertAscending n ms

@[simp] theorem mem_insertAscending {k n : Nat} {ms : List Nat} :
    k ∈ insertAscending n ms ↔ k = n ∨ k ∈ ms := by
  induction ms with
  | nil => simp [insertAscending]
  | cons m ms ih =>
    simp only [insertAscending]
    split
    · simp
    · split
      · next h => simp [h]
      · simp [ih, or_left_comm]

/-- The row numbers that a formula mentions, ascending and each once. -/
def numbers (f : Formula) : List Nat :=
  f.leaves.foldr insertAscending []

@[simp] theorem mem_numbers {k : Nat} {f : Formula} : k ∈ f.numbers ↔ k ∈ f.leaves := by
  unfold numbers
  induction f.leaves with
  | nil => simp
  | cons n ns ih => simp [ih]

end Formula
end QueryFilter
