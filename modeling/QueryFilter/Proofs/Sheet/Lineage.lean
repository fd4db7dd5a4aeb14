import Mathlib.Data.List.InsertIdx
import QueryFilter.Proofs.Sheet.Event

/-!
# The rows before and after an event

In every sheet that events lead to, ids tell the rows apart and the next id is
new. So each row after an event is a row of before at the same stage, or one
that the event emptied and that entered its next generation, or it has a new id;
and a row that the event did not empty is still there.
-/

namespace QueryFilter
namespace Sheet

/-- Ids tell the rows apart, and the next id is new. -/
structure Distinct (s : Sheet) : Prop where
  nodup : (s.rows.map Row.id).Nodup
  below : ∀ row ∈ s.rows, row.id < s.nextId

namespace Distinct

variable {s : Sheet}

theorem eq_of_id (h : s.Distinct) {a b : Row} (ha : a ∈ s.rows) (hb : b ∈ s.rows)
    (hid : a.id = b.id) : a = b :=
  List.inj_on_of_nodup_map h.nodup ha hb hid

theorem index_eq_of_id (h : s.Distinct) {i j : Nat} {a b : Row} (ha : s.rows[i]? = some a)
    (hb : s.rows[j]? = some b) (hid : a.id = b.id) : i = j := by
  have hi : i < (s.rows.map Row.id).length := by
    simpa using (List.getElem?_eq_some_iff.mp ha).1
  apply (List.getElem?_inj hi h.nodup).mp
  simp [ha, hb, hid]

end Distinct

theorem distinct_new : Distinct .new :=
  ⟨by simp [new], by simp [new, Row.blank]⟩

theorem map_id_set {rows : List Row} {index : Nat} {row later : Row}
    (found : rows[index]? = some row) (hid : later.id = row.id) :
    (rows.set index later).map Row.id = rows.map Row.id := by
  apply List.ext_getElem?
  intro i
  rw [List.getElem?_map, List.getElem?_map, List.getElem?_set]
  split_ifs with hi hlt
  · subst hi
    simp [found, hid]
  · simp_all
  · rfl

theorem map_id_renumber (rows : List Row) :
    (renumber rows).map Row.id = rows.map Row.id := by
  apply List.ext_getElem?
  intro i
  simp [renumber, Function.comp_def]

theorem mem_renumber {rows : List Row} {later : Row} (h : later ∈ renumber rows) :
    ∃ row ∈ rows, row.SameStage later := by
  obtain ⟨index, hlt, rfl⟩ := List.mem_mapIdx.mp h
  exact ⟨rows[index], List.getElem_mem hlt, rfl, rfl, rfl⟩

theorem exists_mem_renumber {rows : List Row} {row : Row} (h : row ∈ rows) :
    ∃ later ∈ renumber rows, row.SameStage later := by
  obtain ⟨index, hlt, rfl⟩ := List.mem_iff_getElem.mp h
  exact ⟨_, List.mem_mapIdx.mpr ⟨index, hlt, rfl⟩, rfl, rfl, rfl⟩

theorem Distinct.set {s : Sheet} (h : s.Distinct) {index : Nat} {row later : Row}
    (found : s.rows[index]? = some row) (hid : later.id = row.id) :
    Distinct { s with rows := s.rows.set index later } := by
  refine ⟨?_, ?_⟩
  · rw [map_id_set found hid]
    exact h.nodup
  · intro other hother
    rcases List.mem_or_eq_of_mem_set hother with hold | rfl
    · exact h.below other hold
    · rw [hid]
      exact h.below row (List.mem_of_getElem? found)

namespace Effect

variable {s later : Sheet} {event : Event}

theorem nextId_le (h : s.Effect event later) : s.nextId ≤ later.nextId := by
  cases h <;> simp [add, reset]

theorem distinct (h : s.Effect event later) (hs : s.Distinct) : later.Distinct := by
  cases h with
  | unchanged _ => exact hs
  | added =>
    refine ⟨?_, ?_⟩
    · have hnew : ∀ row ∈ s.rows, row.id ≠ s.nextId := fun row hrow =>
        Nat.ne_of_lt (hs.below row hrow)
      simpa [add, Row.blank, List.nodup_append, hs.nodup] using hnew
    · intro row hrow
      rcases List.mem_append.mp hrow with hold | hnew
      · exact Nat.lt_succ_of_lt (hs.below row hold)
      · rw [List.mem_singleton.mp hnew]
        exact Nat.lt_succ_self _
  | restarted => exact ⟨by simp [reset], by simp [reset, Row.blank]⟩
  | adjusted found same _ => exact hs.set found same.id
  | emptied found stamp _ => exact hs.set found (congrArg Stamp.id stamp)
  | removed found _ =>
    refine ⟨?_, ?_⟩
    · rw [map_id_renumber, ← List.eraseIdx_map]
      exact hs.nodup.eraseIdx _
    · intro row hrow
      obtain ⟨old, hold, same⟩ := mem_renumber hrow
      rw [same.id]
      exact hs.below old (List.mem_of_mem_eraseIdx hold)

/-- Where a row comes from: it has a new id, or it was there at the same stage, or
the event emptied it. -/
theorem origin (h : s.Effect event later) (hs : s.Distinct) {row : Row}
    (hrow : row ∈ later.rows) :
    s.nextId ≤ row.id ∨
      (∃ old ∈ s.rows, old.SameStage row ∧ ¬ event.Empties s old.id) ∨
      ∃ old ∈ s.rows, row.stamp = ⟨old.id, old.generation + 1⟩ ∧ event.Empties s old.id := by
  cases h with
  | unchanged quiet => exact .inr (.inl ⟨row, hrow, .refl row, quiet _⟩)
  | added =>
    rcases List.mem_append.mp hrow with hold | hnew
    · exact .inr (.inl ⟨row, hold, .refl row, id⟩)
    · rw [List.mem_singleton.mp hnew]
      exact .inl (Nat.le_refl _)
  | restarted =>
    rw [List.mem_singleton.mp hrow]
    exact .inl (Nat.le_refl _)
  | adjusted found same quiet =>
    rcases List.mem_or_eq_of_mem_set hrow with hold | rfl
    · exact .inr (.inl ⟨row, hold, .refl row, quiet _⟩)
    · exact .inr (.inl ⟨_, List.mem_of_getElem? found, same, quiet _⟩)
  | @emptied _ index old _ found stamp only =>
    obtain ⟨i, hi⟩ := List.mem_iff_getElem?.mp hrow
    rw [List.getElem?_set] at hi
    split_ifs at hi with heq hlt
    · cases hi
      exact .inr (.inr ⟨old, List.mem_of_getElem? found, stamp, (only _).mpr rfl⟩)
    · refine .inr (.inl ⟨row, List.mem_of_getElem? hi, .refl row, ?_⟩)
      intro hempties
      exact heq (hs.index_eq_of_id found hi ((only _).mp hempties))
  | @removed _ index old found only =>
    obtain ⟨kept, hkept, same⟩ := mem_renumber hrow
    obtain ⟨i, hne, hi⟩ := List.mem_eraseIdx_iff_getElem?.mp hkept
    refine .inr (.inl ⟨kept, List.mem_of_getElem? hi, same, ?_⟩)
    intro hempties
    exact hne (hs.index_eq_of_id found hi ((only _).mp hempties)).symm

/-- A row that the event does not empty is still there, at the same stage. -/
theorem exists_sameStage (h : s.Effect event later) {row : Row} (hrow : row ∈ s.rows)
    (hquiet : ¬ event.Empties s row.id) : ∃ kept ∈ later.rows, row.SameStage kept := by
  obtain ⟨i, hi⟩ := List.mem_iff_getElem?.mp hrow
  cases h with
  | unchanged _ => exact ⟨row, hrow, .refl row⟩
  | added => exact ⟨row, List.mem_append_left _ hrow, .refl row⟩
  | restarted => exact absurd ⟨row, hrow, rfl⟩ hquiet
  | @adjusted _ index old new found same _ =>
    by_cases heq : index = i
    · subst heq
      obtain rfl : old = row := Option.some.inj (found.symm.trans hi)
      exact ⟨new, List.mem_set (List.getElem?_eq_some_iff.mp found).1 new, same⟩
    · exact ⟨row, List.mem_iff_getElem?.mpr ⟨i, by rw [List.getElem?_set_ne heq, hi]⟩, .refl row⟩
  | @emptied _ index old new found _ only =>
    have hne : index ≠ i := by
      rintro rfl
      obtain rfl : old = row := Option.some.inj (found.symm.trans hi)
      exact hquiet ((only _).mpr rfl)
    exact ⟨row, List.mem_iff_getElem?.mpr ⟨i, by rw [List.getElem?_set_ne hne, hi]⟩, .refl row⟩
  | @removed _ index old found only =>
    have hne : i ≠ index := by
      rintro rfl
      obtain rfl : old = row := Option.some.inj (found.symm.trans hi)
      exact hquiet ((only _).mpr rfl)
    exact exists_mem_renumber (List.mem_eraseIdx_iff_getElem?.mpr ⟨i, hne, hi⟩)

end Effect

theorem Distinct.apply {s : Sheet} (hs : s.Distinct) (event : Event) :
    (event.apply s).Distinct :=
  (s.effect event).distinct hs

theorem Distinct.after {s : Sheet} (hs : s.Distinct) (events : List Event) :
    (s.after events).Distinct := by
  induction events generalizing s with
  | nil => exact hs
  | cons event rest ih => exact ih (hs.apply event)

theorem nextId_le_after (s : Sheet) (events : List Event) :
    s.nextId ≤ (s.after events).nextId := by
  induction events generalizing s with
  | nil => exact Nat.le_refl _
  | cons event rest ih => exact Nat.le_trans (s.effect event).nextId_le (ih (event.apply s))

end Sheet
end QueryFilter
