import QueryFilter.Formula.Brackets

/-!
# Balanced parentheses as a grammar

The scan for balanced parentheses keeps nothing but how many are open. Yet what it accepts
is a language: the parentheses of an accepted text are a word of the grammar in which a
word is empty, or a word between a pair of parentheses and a word behind it. Where some
parentheses are open already, it accepts a word for each of them before the parenthesis
that closes it, and one more at the end.
-/

namespace QueryFilter
namespace Formula

/-- The parentheses of a text. -/
def brackets (cs : List Char) : List Char :=
  cs.filter fun c => c = '(' || c = ')'

@[simp] theorem brackets_append (cs ds : List Char) :
    brackets (cs ++ ds) = brackets cs ++ brackets ds :=
  List.filter_append ..

theorem closesAll_brackets (depth : Nat) (cs : List Char) :
    closesAll depth (brackets cs) = closesAll depth cs := by
  induction cs generalizing depth with
  | nil => rfl
  | cons c cs ih =>
    unfold brackets at ih ⊢
    by_cases hopening : c = '('
    · simp [hopening, closesAll, ih]
    · by_cases hclosing : c = ')'
      · cases depth with
        | zero => simp [hclosing, closesAll]
        | succ depth => simp [hclosing, closesAll, ih]
      · simp [hopening, hclosing, closesAll, ih]

/-- The words of parentheses in which each one has its partner. -/
inductive Balanced : List Char → Prop
  | empty : Balanced []
  | pair {inside rest : List Char} (hinside : Balanced inside) (hrest : Balanced rest) :
      Balanced ('(' :: inside ++ ')' :: rest)

/-- The words that also close as many parentheses as are open before them. -/
inductive Closing : Nat → List Char → Prop
  | balanced {bs : List Char} (hbs : Balanced bs) : Closing 0 bs
  | close {depth : Nat} {bs rest : List Char} (hbs : Balanced bs) (hrest : Closing depth rest) :
      Closing (depth + 1) (bs ++ ')' :: rest)

theorem Balanced.append {bs cs : List Char} (h : Balanced bs) (hcs : Balanced cs) :
    Balanced (bs ++ cs) := by
  induction h with
  | empty => exact hcs
  | pair hinside _ _ ih =>
    have hword := Balanced.pair hinside ih
    simpa using hword

/-! ### The scan against the grammar -/

/-- A balanced word leaves as many parentheses open as there were before it. -/
theorem Balanced.closesAll {bs : List Char} (h : Balanced bs) (depth : Nat) (rest : List Char) :
    Formula.closesAll depth (bs ++ rest) = Formula.closesAll depth rest := by
  induction h generalizing depth rest with
  | empty => rfl
  | pair _ _ ih ih' => simp [Formula.closesAll, ih, ih']

theorem Closing.closesAll {depth : Nat} {bs : List Char} (h : Closing depth bs) :
    Formula.closesAll depth bs = true := by
  induction h with
  | balanced hbs =>
    have hscan := hbs.closesAll 0 []
    rw [List.append_nil] at hscan
    rw [hscan]
    rfl
  | close hbs _ ih =>
    rw [hbs.closesAll]
    exact ih

/-- A parenthesis in front of a word is the partner of the first one that the word closes. -/
theorem Closing.opening {depth : Nat} {bs : List Char} (h : Closing (depth + 1) bs) :
    Closing depth ('(' :: bs) := by
  cases h with
  | close hinside hrest =>
    cases hrest with
    | balanced hbs => exact .balanced (.pair hinside hbs)
    | @close _ bs rest hbs hrest =>
      have hword := Closing.close (.pair hinside hbs) hrest
      simpa using hword

/-- The scan accepts no other words. The depth of the scan says what the rest of the text
still has to close. -/
theorem closing_of_closesAll {depth : Nat} {cs : List Char} (h : closesAll depth cs = true) :
    Closing depth (brackets cs) := by
  induction cs generalizing depth with
  | nil =>
    obtain rfl : depth = 0 := by simpa [closesAll] using h
    exact .balanced .empty
  | cons c cs ih =>
    by_cases hopening : c = '('
    · subst hopening
      exact (ih h).opening
    · by_cases hclosing : c = ')'
      · subst hclosing
        cases depth with
        | zero => cases h
        | succ depth => exact .close .empty (ih h)
      · have hskipped : brackets (c :: cs) = brackets cs := by
          simp [brackets, hopening, hclosing]
        rw [hskipped]
        exact ih (by simpa [closesAll, hopening, hclosing] using h)

theorem closesAll_iff_closing {depth : Nat} {cs : List Char} :
    closesAll depth cs = true ↔ Closing depth (brackets cs) :=
  ⟨closing_of_closesAll, fun h => by rw [← closesAll_brackets, h.closesAll]⟩

/-- Where no parenthesis is open yet, an accepted text has balanced parentheses. -/
theorem closesAll_zero_iff {cs : List Char} :
    closesAll 0 cs = true ↔ Balanced (brackets cs) := by
  rw [closesAll_iff_closing]
  constructor
  · rintro ⟨hbalanced⟩
    exact hbalanced
  · exact .balanced

/-! ### The scan against counts -/

theorem forall_prefix_cons {P : List Char → Prop} {c : Char} {cs : List Char} :
    (∀ front, front <+: c :: cs → P front) ↔ P [] ∧ ∀ front, front <+: cs → P (c :: front) := by
  constructor
  · intro h
    exact ⟨h [] List.nil_prefix, fun front hfront => h _ (List.cons_prefix_cons.mpr ⟨rfl, hfront⟩)⟩
  · rintro ⟨hnil, hcons⟩ front hfront
    rcases List.prefix_cons_iff.mp hfront with rfl | ⟨rest, rfl, hrest⟩
    · exact hnil
    · exact hcons rest hrest

/-- No prefix closes more parentheses than are open in it, and the whole closes all. -/
theorem closesAll_iff_count {depth : Nat} {cs : List Char} :
    closesAll depth cs = true ↔
      (∀ front, front <+: cs → front.count ')' ≤ depth + front.count '(') ∧
        depth + cs.count '(' = cs.count ')' := by
  induction cs generalizing depth with
  | nil => simp [closesAll]
  | cons c cs ih =>
    rw [forall_prefix_cons]
    by_cases hopening : c = '('
    · subst hopening
      have hscan : closesAll depth ('(' :: cs) = closesAll (depth + 1) cs := rfl
      rw [hscan, ih]
      simp [Nat.add_assoc, Nat.add_comm 1]
    · by_cases hclosing : c = ')'
      · subst hclosing
        cases depth with
        | zero =>
          have hfirst : ¬ (∀ front, front <+: cs → (')' :: front).count ')' ≤
              0 + (')' :: front).count '(') := fun h => by
            simpa using h [] List.nil_prefix
          exact iff_of_false (by simp [closesAll]) fun h => hfirst h.1.2
        | succ depth =>
          have hscan : closesAll (depth + 1) (')' :: cs) = closesAll depth cs := rfl
          rw [hscan, ih]
          simp [Nat.add_right_comm depth 1]
      · have hscan : closesAll depth (c :: cs) = closesAll depth cs := by
          simp [closesAll, hopening, hclosing]
        rw [hscan, ih]
        simp [List.count_cons_of_ne hopening, List.count_cons_of_ne hclosing]

/-- A text passes for balanced exactly if its parentheses are a word of the grammar; or, in
other words, if no prefix of it has more closing than opening parentheses and the whole has
as many of either. -/
theorem isBalanced_characterization (text : String) :
    (isBalanced text = true ↔ Balanced (brackets text.toList)) ∧
      (isBalanced text = true ↔
        (∀ front, front <+: text.toList → front.count ')' ≤ front.count '(') ∧
          text.toList.count '(' = text.toList.count ')') := by
  refine ⟨closesAll_zero_iff, ?_⟩
  rw [isBalanced, closesAll_iff_count]
  simp only [Nat.zero_add]

end Formula
end QueryFilter
