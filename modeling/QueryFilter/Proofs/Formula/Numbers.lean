import Mathlib.Order.Bounds.Basic
import QueryFilter.Formula.Check

/-!
# The numbers of a formula

The row numbers of a formula are listed in ascending order, so the first one with
a property is the least, and the first gap from 1 on is the least number that the
formula leaves out. A formula that mentions rows 1 to n and no others has no flaw.
-/

namespace QueryFilter
namespace Formula

theorem insertAscending_pairwise (n : Nat) {ns : List Nat} (h : ns.Pairwise (· < ·)) :
    (insertAscending n ns).Pairwise (· < ·) := by
  induction ns with
  | nil => simp [insertAscending]
  | cons m ms ih =>
    obtain ⟨hbefore, htail⟩ := List.pairwise_cons.mp h
    unfold insertAscending
    split_ifs with hlt heq
    · refine List.pairwise_cons.mpr ⟨fun k hk => ?_, h⟩
      rcases List.mem_cons.mp hk with rfl | hk
      · exact hlt
      · exact hlt.trans (hbefore k hk)
    · exact h
    · refine List.pairwise_cons.mpr ⟨fun k hk => ?_, ih htail⟩
      rcases mem_insertAscending.mp hk with rfl | hk
      · omega
      · exact hbefore k hk

theorem numbers_pairwise (f : Formula) : f.numbers.Pairwise (· < ·) := by
  unfold numbers
  induction f.leaves with
  | nil => exact List.Pairwise.nil
  | cons n ns ih => exact insertAscending_pairwise n ih

theorem isLeast_of_find? {p : Nat → Bool} {ns : List Nat} (h : ns.Pairwise (· < ·)) {n : Nat}
    (hfind : ns.find? p = some n) : IsLeast {m | m ∈ ns ∧ p m = true} n := by
  refine ⟨⟨List.mem_of_find?_eq_some hfind, List.find?_some hfind⟩, ?_⟩
  rintro m ⟨hmem, hm⟩
  obtain ⟨-, before, after, rfl, hbefore⟩ := List.find?_eq_some_iff_append.mp hfind
  rcases List.mem_append.mp hmem with hmem | hmem
  · have hnot := hbefore m hmem
    simp [hm] at hnot
  · rcases List.mem_cons.mp hmem with rfl | hmem
    · exact le_rfl
    · have hafter := (List.pairwise_append.mp h).2.1
      exact (List.rel_of_pairwise_cons hafter hmem).le

theorem firstGap_isLeast {next : Nat} {ns : List Nat} (h : ns.Pairwise (· < ·))
    (hnext : ∀ n ∈ ns, next ≤ n) : IsLeast {n | next ≤ n ∧ n ∉ ns} (firstGap next ns) := by
  induction ns generalizing next with
  | nil => exact ⟨by simp [firstGap], fun m hm => hm.1⟩
  | cons n ns ih =>
    obtain ⟨hbefore, htail⟩ := List.pairwise_cons.mp h
    unfold firstGap
    split_ifs with heq
    · subst heq
      have hsucc : ∀ m ∈ ns, n + 1 ≤ m := fun m hm => hbefore m hm
      obtain ⟨⟨hle, hnot⟩, hleast⟩ := ih htail hsucc
      refine ⟨⟨by omega, ?_⟩, ?_⟩
      · rw [List.mem_cons, not_or]
        exact ⟨by omega, hnot⟩
      · rintro m ⟨hm, hmem⟩
        rw [List.mem_cons, not_or] at hmem
        exact hleast ⟨by omega, hmem.2⟩
    · refine ⟨⟨le_rfl, ?_⟩, fun m hm => hm.1⟩
      intro hmem
      have hn := hnext n (by simp)
      rcases List.mem_cons.mp hmem with rfl | hmem
      · exact heq rfl
      · have hlt := hbefore next hmem
        omega

/-! ### Flaws -/

/-- The first reason why the numbers of a formula are not those of some rows. -/
inductive NumbersFlaw (f : Formula) (rowCount : Nat) : Flaw → Prop
  | unknownRow {n : Nat} (least : IsLeast {m | m ∈ f.numbers ∧ (m = 0 ∨ rowCount < m)} n) :
      NumbersFlaw f rowCount (.unknownRow n rowCount)
  | unreferenced {n : Nat} (known : ∀ m ∈ f.numbers, 1 ≤ m ∧ m ≤ rowCount)
      (least : IsLeast {m | (1 ≤ m ∧ m ≤ rowCount) ∧ m ∉ f.numbers} n) :
      NumbersFlaw f rowCount (.unreferenced n)

theorem NumbersFlaw.unique {f : Formula} {rowCount : Nat} {flaw flaw' : Flaw}
    (h : NumbersFlaw f rowCount flaw) (h' : NumbersFlaw f rowCount flaw') : flaw = flaw' := by
  cases h with
  | unknownRow least =>
    cases h' with
    | unknownRow least' => rw [least.unique least']
    | unreferenced known' =>
      obtain ⟨hmem, hunknown⟩ := least.1
      have hknown := known' _ hmem
      omega
  | unreferenced known least =>
    cases h' with
    | unknownRow least' =>
      obtain ⟨hmem, hunknown⟩ := least'.1
      have hknown := known _ hmem
      omega
    | unreferenced _ least' => rw [least.unique least']

theorem NumbersFlaw.not_fitting {f : Formula} {rowCount : Nat} {flaw : Flaw}
    (h : NumbersFlaw f rowCount flaw) : ¬∀ n, n ∈ f.numbers ↔ 1 ≤ n ∧ n ≤ rowCount := by
  intro hmem
  cases h with
  | unknownRow least =>
    obtain ⟨hn, hunknown⟩ := least.1
    have hrow := (hmem _).mp hn
    omega
  | unreferenced _ least =>
    obtain ⟨hrow, hn⟩ := least.1
    exact hn ((hmem _).mpr hrow)

theorem known_of_find?_eq_none {f : Formula} {rowCount : Nat}
    (h : f.numbers.find? (fun n => n == 0 || rowCount < n) = none) :
    ∀ m ∈ f.numbers, 1 ≤ m ∧ m ≤ rowCount := by
  intro m hm
  have hfalse := List.find?_eq_none.mp h m hm
  simp only [Bool.or_eq_true, beq_iff_eq, decide_eq_true_eq] at hfalse
  omega

theorem numbersFlaw_of_eq_some {f : Formula} {rowCount : Nat} {flaw : Flaw}
    (h : f.numbersFlaw? rowCount = some flaw) : NumbersFlaw f rowCount flaw := by
  unfold numbersFlaw? at h
  split at h
  · next n hfind =>
    cases h
    have hleast := isLeast_of_find? f.numbers_pairwise hfind
    simp only [Bool.or_eq_true, beq_iff_eq, decide_eq_true_eq] at hleast
    exact .unknownRow hleast
  · next hfind =>
    have hknown := known_of_find?_eq_none hfind
    obtain ⟨⟨hle, hnot⟩, hleast⟩ := firstGap_isLeast f.numbers_pairwise fun n hn => (hknown n hn).1
    dsimp only at h
    split at h
    · next hgap =>
      cases h
      exact .unreferenced hknown ⟨⟨⟨hle, hgap⟩, hnot⟩, fun m hm => hleast ⟨hm.1.1, hm.2⟩⟩
    · cases h

theorem mem_numbers_of_eq_none {f : Formula} {rowCount : Nat}
    (h : f.numbersFlaw? rowCount = none) (n : Nat) : n ∈ f.numbers ↔ 1 ≤ n ∧ n ≤ rowCount := by
  unfold numbersFlaw? at h
  split at h
  · cases h
  · next hfind =>
    have hknown := known_of_find?_eq_none hfind
    have hleast := (firstGap_isLeast f.numbers_pairwise fun n hn => (hknown n hn).1).2
    dsimp only at h
    split at h
    · cases h
    · next hgap =>
      refine ⟨hknown n, fun hn => ?_⟩
      -- a number that is left out is no less than the first gap, which no row has
      by_contra hnot
      have hle := hleast ⟨hn.1, hnot⟩
      omega

/-- The first flaw is what is reported. -/
theorem numbersFlaw?_eq_some_iff {f : Formula} {rowCount : Nat} {flaw : Flaw} :
    f.numbersFlaw? rowCount = some flaw ↔ NumbersFlaw f rowCount flaw := by
  refine ⟨numbersFlaw_of_eq_some, fun h => ?_⟩
  cases hflaw : f.numbersFlaw? rowCount with
  | some flaw' => rw [(numbersFlaw_of_eq_some hflaw).unique h]
  | none => exact absurd (mem_numbers_of_eq_none hflaw) h.not_fitting

/-- A formula has no flaw when it mentions each of the rows and nothing else. -/
theorem numbersFlaw?_eq_none_iff {f : Formula} {rowCount : Nat} :
    f.numbersFlaw? rowCount = none ↔ ∀ n, n ∈ f.numbers ↔ 1 ≤ n ∧ n ≤ rowCount := by
  refine ⟨mem_numbers_of_eq_none, fun h => ?_⟩
  cases hflaw : f.numbersFlaw? rowCount with
  | none => rfl
  | some flaw => exact absurd h (numbersFlaw_of_eq_some hflaw).not_fitting

end Formula
end QueryFilter
