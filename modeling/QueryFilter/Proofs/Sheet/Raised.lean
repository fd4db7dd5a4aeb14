import Mathlib.Data.List.InsertIdx
import QueryFilter.Proofs.Sheet.Delivery
import QueryFilter.Sheet.Clause

/-!
# Sheets under other ids

Ids tell rows apart and say nothing else. A sheet whose ids are all raised by the same
number takes edits and answers as the sheet itself does, with the ids in its requests
raised too, and states the same conditions. It has no row for an id below that number,
so an answer for such an id is stale.
-/

namespace QueryFilter

def Stamp.raise (k : Nat) (stamp : Stamp) : Stamp :=
  ⟨stamp.id + k, stamp.generation⟩

def Request.raise (k : Nat) (request : Request) : Request :=
  { request with stamp := request.stamp.raise k }

def EditResult.raise (k : Nat) (result : EditResult) : EditResult :=
  result.map (Option.map (Request.raise k))

def Delivery.raise (k : Nat) (delivery : Delivery) : Delivery :=
  { delivery with stamp := delivery.stamp.raise k }

@[simp] theorem Delivery.generation_raise (k : Nat) (delivery : Delivery) :
    (delivery.raise k).stamp.generation = delivery.stamp.generation := rfl

@[simp] theorem Delivery.result_raise (k : Nat) (delivery : Delivery) :
    (delivery.raise k).result = delivery.result := rfl

theorem Request.answer_raise (k : Nat) (request : Request)
    (result : Except FetchFailure (List Choice)) :
    (request.raise k).answer result = (request.answer result).raise k := rfl

/-! ### Rows -/

namespace Row

def raise (k : Nat) (row : Row) : Row :=
  { row with id := row.id + k }

section

variable (k : Nat) (row : Row)

@[simp] theorem generation_raise : (row.raise k).generation = row.generation := rfl

@[simp] theorem content_raise : (row.raise k).content = row.content := rfl

@[simp] theorem type?_raise : (row.raise k).type? = row.type? := rfl

@[simp] theorem fragment_raise : (row.raise k).fragment = row.fragment := rfl

@[simp] theorem clear_raise : (row.raise k).clear = row.clear.raise k := rfl

@[simp] theorem pointAt_raise (schema : Schema) (field : String) :
    (row.raise k).pointAt schema field = (row.pointAt schema field).raise k := rfl

theorem request?_raise (schema : Schema) :
    (row.raise k).request? schema = (row.request? schema).map (Request.raise k) := by
  unfold request?
  rw [content_raise]
  split
  · split_ifs <;> rfl
  · rfl

theorem receive_raise (choices : List Choice) :
    (row.raise k).receive choices = (row.receive choices).raise k := by
  unfold receive
  rw [content_raise]
  split <;> rfl

end

end Row

/-! ### Sheets -/

namespace Sheet

def raise (k : Nat) (s : Sheet) : Sheet :=
  ⟨s.rows.map (Row.raise k), s.nextId + k⟩

variable (k : Nat) (s : Sheet)

@[simp] theorem size_raise : (s.raise k).size = s.size := by
  simp [size, raise]

theorem getElem?_raise (index : Nat) :
    (s.raise k).rows[index]? = s.rows[index]?.map (Row.raise k) :=
  List.getElem?_map

theorem complete_raise : (s.raise k).complete = s.complete.map (Row.raise k) := by
  rw [complete, complete, raise, List.filter_map]
  rfl

theorem add_raise : (s.raise k).add = s.add.raise k := by
  simp [add, raise, Row.raise, Row.blank, size, Nat.add_right_comm]

theorem reset_raise : (s.raise k).reset = s.reset.raise k := by
  simp [reset, raise, Row.raise, Row.blank, Nat.add_right_comm]

/-- A row is changed alike under raised ids if the change itself is. -/
theorem update_raise (index : Nat) {change : Row → Row × EditResult}
    (h : ∀ row : Row, change (row.raise k) =
      ((change row).1.raise k, EditResult.raise k (change row).2)) :
    (s.raise k).update index change =
      ((s.update index change).1.raise k, EditResult.raise k (s.update index change).2) := by
  unfold update
  rw [getElem?_raise, size_raise]
  cases s.rows[index]? with
  | none => rfl
  | some row => simp only [Option.map_some, h, raise, List.map_set]

theorem clear_raise (index : Nat) :
    (s.raise k).clear index =
      ((s.clear index).1.raise k, EditResult.raise k (s.clear index).2) :=
  s.update_raise k index fun _ => rfl

theorem renumber_raise (rows : List Row) :
    renumber (rows.map (Row.raise k)) = (renumber rows).map (Row.raise k) := by
  apply List.ext_getElem?
  intro i
  simp [renumber, Row.raise, Function.comp_def]

theorem remove_raise (index : Nat) :
    (s.raise k).remove index =
      ((s.remove index).1.raise k, EditResult.raise k (s.remove index).2) := by
  unfold remove
  rw [size_raise]
  split_ifs with hone hlt
  · exact s.clear_raise k index
  · simp only [raise, List.eraseIdx_map, renumber_raise]
    rfl
  · rfl

/-- A sheet whose ids are raised takes every edit as the sheet itself does. -/
theorem edit_raise (schema : Schema) (change : Edit) :
    (s.raise k).edit schema change =
      ((s.edit schema change).1.raise k, EditResult.raise k (s.edit schema change).2) := by
  cases change with
  | add => rw [edit, edit, add_raise]; rfl
  | reset => rw [edit, edit, reset_raise]; rfl
  | clear index => exact s.clear_raise k index
  | remove index => exact s.remove_raise k index
  | enter | joinBy => exact s.update_raise k _ fun _ => rfl
  | pointAt index field =>
    refine s.update_raise k index fun row => ?_
    rw [Row.pointAt_raise, Row.request?_raise]
    rfl
  | compareBy index comparison =>
    refine s.update_raise k index fun row => ?_
    rw [Row.type?_raise]
    cases row.type? with
    | none => rfl
    | some type =>
      dsimp only
      split_ifs <;> rfl
  | select index values =>
    refine s.update_raise k index fun row => ?_
    rw [Row.content_raise]
    cases row.content <;> rfl

theorem indexOf_raise (id : Nat) : (s.raise k).indexOf (id + k) = s.indexOf id := by
  have hsame : ((·.id == id + k) ∘ Row.raise k) = (·.id == id) := by
    funext row
    simp [Row.raise]
  rw [indexOf, raise, List.findIdx_map, hsame, indexOf]

theorem deliver_raise (delivery : Delivery) :
    (s.raise k).deliver (delivery.raise k) =
      ((s.deliver delivery).1.raise k, (s.deliver delivery).2) := by
  have hindex : (s.raise k).indexOf (delivery.raise k).stamp.id = s.indexOf delivery.stamp.id :=
    s.indexOf_raise k delivery.stamp.id
  simp only [deliver, hindex, getElem?_raise]
  cases s.rows[s.indexOf delivery.stamp.id]? with
  | none => rfl
  | some row =>
    simp only [Option.map_some, Row.generation_raise, Row.content_raise, Row.receive_raise,
      Delivery.generation_raise, Delivery.result_raise]
    cases delivery.result with
    | error failure =>
      dsimp only
      split_ifs <;> rfl
    | ok choices =>
      dsimp only
      split_ifs
      · rfl
      · simp [raise, List.map_set]
      · rfl

/-- No row has an id below the number by which the ids are raised. -/
theorem deliver_of_id_lt {delivery : Delivery} (h : delivery.stamp.id < k) :
    (s.raise k).deliver delivery = (s.raise k, .stale) := by
  have habsent : (s.raise k).rows[(s.raise k).indexOf delivery.stamp.id]? = none := by
    cases hfound : (s.raise k).rows[(s.raise k).indexOf delivery.stamp.id]? with
    | none => rfl
    | some row =>
      have hid := id_of_indexOf hfound
      obtain ⟨row, -, rfl⟩ := List.mem_map.mp (List.mem_of_getElem? hfound)
      exact absurd hid (by simp only [Row.raise]; omega)
  simp only [deliver, habsent]

/-! ### Conditions -/

theorem fragment?_raise (number : Nat) : (s.raise k).fragment? number = s.fragment? number := by
  rw [fragment?, fragment?, complete_raise, List.find?_map, Option.map_map]
  rfl

theorem joinFragments_raise {lead : Row → String}
    (h : ∀ row : Row, lead (row.raise k) = lead row) (rows : List Row) :
    joinFragments lead (rows.map (Row.raise k)) = joinFragments lead rows := by
  cases rows with
  | nil => rfl
  | cons first rest => simp [joinFragments, h, Function.comp_def]

theorem body_raise (arrangement : Arrangement) :
    (s.raise k).body arrangement = s.body arrangement := by
  have hfragments : (s.raise k).complete.map Row.fragment = s.complete.map Row.fragment := by
    rw [complete_raise, List.map_map]
    rfl
  cases arrangement with
  | throughout connective => simp only [body, hfragments]
  | byRow =>
    rw [body, body, complete_raise, joinFragments_raise k fun _ => rfl]
  | byFormula f =>
    have hfill : (s.raise k).fragment? = s.fragment? := funext (s.fragment?_raise k)
    simp only [body, size_raise, hfill]

theorem clause_raise (arrangement : Arrangement) :
    (s.raise k).clause arrangement = s.clause arrangement := by
  simp [clause, complete_raise, body_raise]

end Sheet
end QueryFilter
