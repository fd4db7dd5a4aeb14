import Mathlib.Data.List.Nodup
import QueryFilter.Sheet.Edit

/-!
# Events of a sheet

A sheet goes on by edits, each under a schema of its own, and by the delivery of
answers. An edit that is refused leaves the sheet as it was. What an event does to
the rows is said once, by `Effect`: everything else about events is a case analysis
on it. An event empties a row when it removes it, clears it, or points it at a field.
-/

namespace QueryFilter

inductive Event
  | edit (schema : Schema) (change : Edit)
  | deliver (delivery : Delivery)

/-- A later form of a row at the same stage of its life. Its number, joiner,
comparison, value and selection may differ. -/
structure Row.SameStage (row later : Row) : Prop where
  stamp : later.stamp = row.stamp
  field : later.field = row.field
  isPicklist : later.content.isPicklist = row.content.isPicklist

namespace Row

theorem SameStage.refl (row : Row) : row.SameStage row := ⟨rfl, rfl, rfl⟩

theorem SameStage.trans {a b c : Row} (hab : a.SameStage b) (hbc : b.SameStage c) :
    a.SameStage c :=
  ⟨hbc.stamp.trans hab.stamp, hbc.field.trans hab.field, hbc.isPicklist.trans hab.isPicklist⟩

theorem SameStage.id {row later : Row} (h : row.SameStage later) : later.id = row.id :=
  congrArg Stamp.id h.stamp

theorem SameStage.generation {row later : Row} (h : row.SameStage later) :
    later.generation = row.generation :=
  congrArg Stamp.generation h.stamp

theorem sameStage_receive (choices : List Choice) (row : Row) :
    row.SameStage (row.receive choices) := by
  unfold receive
  split
  · next h => exact ⟨rfl, rfl, by rw [h]; rfl⟩
  · exact .refl row

end Row

namespace Sheet

/-! ### Updates -/

theorem set_self {rows : List Row} {index : Nat} {row : Row} (h : rows[index]? = some row) :
    rows.set index row = rows := by
  obtain ⟨hlt, rfl⟩ := List.getElem?_eq_some_iff.mp h
  exact List.set_getElem_self hlt

section Update

variable {s : Sheet} {index : Nat}

theorem update_of_none (h : s.rows[index]? = none) (change : Row → Row × EditResult) :
    s.update index change = (s, .error (.noSuchRow index s.size)) := by
  simp only [update, h]

theorem update_of_some {row : Row} (h : s.rows[index]? = some row)
    (change : Row → Row × EditResult) :
    s.update index change =
      ({ s with rows := s.rows.set index (change row).1 }, (change row).2) := by
  simp only [update, h]

theorem update_snd_eq_ok {change : Row → Row × EditResult} {request : Option Request} :
    (s.update index change).2 = .ok request ↔
      ∃ row, s.rows[index]? = some row ∧ (change row).2 = .ok request := by
  cases h : s.rows[index]? with
  | none => simp [update_of_none h]
  | some row => simp [update_of_some h]

/-- An update leaves the sheet as it was if it is refused by a row that is left as it was. -/
theorem update_fst_of_error {change : Row → Row × EditResult}
    (hchange : ∀ row error, (change row).2 = .error error → (change row).1 = row)
    {error : EditError} (h : (s.update index change).2 = .error error) :
    (s.update index change).1 = s := by
  cases hrow : s.rows[index]? with
  | none => rw [update_of_none hrow]
  | some row =>
    rw [update_of_some hrow] at h ⊢
    rw [hchange row error h, set_self hrow]

/-- A refused edit leaves the sheet as it was. -/
theorem edit_fst_of_error {schema : Schema} {change : Edit} {error : EditError}
    (h : (s.edit schema change).2 = .error error) : (s.edit schema change).1 = s := by
  cases change with
  | add | reset => cases h
  | clear | enter | joinBy | pointAt => exact update_fst_of_error (fun _ _ => nofun) h
  | remove index =>
    simp only [edit, remove] at h ⊢
    split_ifs at h ⊢
    · exact update_fst_of_error (fun _ _ => nofun) h
    · rfl
  | compareBy index comparison =>
    refine update_fst_of_error (fun row error hrefused => ?_) h
    cases htype : row.type? with
    | none => rfl
    | some type =>
      simp only [htype] at hrefused ⊢
      split_ifs at hrefused ⊢
      rfl
  | select index values =>
    refine update_fst_of_error (fun row error hrefused => ?_) h
    cases hcontent : row.content with
    | picklist list => simp [hcontent] at hrefused
    | _ => rfl

end Update

/-! ### Edits that empty rows -/

/-- Whether an edit removes the row with an id, clears it, or points it at a field. -/
def Empties (s : Sheet) (id : Nat) : Edit → Prop
  | .reset => ∃ row ∈ s.rows, row.id = id
  | .clear index | .remove index | .pointAt index _ => s.rows[index]?.map Row.id = some id
  | .add | .compareBy _ _ | .enter _ _ | .select _ _ | .joinBy _ _ => False

instance (s : Sheet) (id : Nat) : (change : Edit) → Decidable (s.Empties id change)
  | .reset => inferInstanceAs (Decidable (∃ row ∈ s.rows, row.id = id))
  | .clear index | .remove index | .pointAt index _ =>
    inferInstanceAs (Decidable (s.rows[index]?.map Row.id = some id))
  | .add | .compareBy _ _ | .enter _ _ | .select _ _ | .joinBy _ _ =>
    inferInstanceAs (Decidable False)

end Sheet

namespace Event

/-- The sheet after an event. -/
def apply (s : Sheet) : Event → Sheet
  | edit schema change => (s.edit schema change).1
  | deliver delivery => (s.deliver delivery).1

/-- The request that an event gives rise to. -/
def request? (s : Sheet) : Event → Option Request
  | edit schema change =>
    match (s.edit schema change).2 with
    | .ok request => request
    | .error _ => none
  | deliver _ => none

/-- Whether an event ends the stage of the row with an id. -/
def Empties (s : Sheet) (id : Nat) : Event → Prop
  | edit _ change => s.Empties id change
  | deliver _ => False

instance (s : Sheet) (id : Nat) : (event : Event) → Decidable (event.Empties s id)
  | edit _ change => inferInstanceAs (Decidable (s.Empties id change))
  | deliver _ => inferInstanceAs (Decidable False)

end Event

namespace Sheet

/-- The sheet after some events. -/
def after (s : Sheet) (events : List Event) : Sheet :=
  events.foldl Event.apply s

/-- The requests that some events give rise to, in order. -/
def requests (s : Sheet) : List Event → List Request
  | [] => []
  | event :: rest => (event.request? s).toList ++ requests (event.apply s) rest

/-- Whether some of the events ends the stage of the row with an id. -/
def EmptiedDuring (s : Sheet) (id : Nat) : List Event → Prop
  | [] => False
  | event :: rest => event.Empties s id ∨ EmptiedDuring (event.apply s) id rest

instance decidableEmptiedDuring (s : Sheet) (id : Nat) :
    (events : List Event) → Decidable (s.EmptiedDuring id events)
  | [] => inferInstanceAs (Decidable False)
  | event :: rest =>
    have := decidableEmptiedDuring (event.apply s) id rest
    inferInstanceAs (Decidable (event.Empties s id ∨ EmptiedDuring (event.apply s) id rest))

@[simp] theorem after_nil (s : Sheet) : s.after [] = s := rfl

@[simp] theorem after_cons (s : Sheet) (event : Event) (rest : List Event) :
    s.after (event :: rest) = (event.apply s).after rest := rfl

@[simp] theorem after_append (s : Sheet) (first second : List Event) :
    s.after (first ++ second) = (s.after first).after second :=
  List.foldl_append

/-- What an event does to a sheet: nothing, a blank row with a new id at the end
or in place of all rows, a row at the same stage in place of one row, a row in the
next generation in place of one row, or one row less. -/
inductive Effect (s : Sheet) : Event → Sheet → Prop
  | unchanged {event : Event} (quiet : ∀ id, ¬ event.Empties s id) : Effect s event s
  | added {schema : Schema} : Effect s (.edit schema .add) s.add
  | restarted {schema : Schema} : Effect s (.edit schema .reset) s.reset
  | adjusted {event : Event} {index : Nat} {row later : Row} (found : s.rows[index]? = some row)
      (same : row.SameStage later) (quiet : ∀ id, ¬ event.Empties s id) :
      Effect s event { s with rows := s.rows.set index later }
  | emptied {event : Event} {index : Nat} {row later : Row} (found : s.rows[index]? = some row)
      (stamp : later.stamp = ⟨row.id, row.generation + 1⟩)
      (only : ∀ id, event.Empties s id ↔ row.id = id) :
      Effect s event { s with rows := s.rows.set index later }
  | removed {event : Event} {index : Nat} {row : Row} (found : s.rows[index]? = some row)
      (only : ∀ id, event.Empties s id ↔ row.id = id) :
      Effect s event { s with rows := renumber (s.rows.eraseIdx index) }

section Effect

variable {s : Sheet} {event : Event} {index : Nat} {change : Row → Row × EditResult}

theorem effect_adjust (quiet : ∀ id, ¬ event.Empties s id)
    (same : ∀ row : Row, row.SameStage (change row).1) :
    Effect s event (s.update index change).1 := by
  cases h : s.rows[index]? with
  | none =>
    rw [update_of_none h]
    exact .unchanged quiet
  | some row =>
    rw [update_of_some h]
    exact .adjusted h (same row) quiet

theorem effect_empty (empties : ∀ id, event.Empties s id ↔ s.rows[index]?.map Row.id = some id)
    (stamp : ∀ row, (change row).1.stamp = ⟨row.id, row.generation + 1⟩) :
    Effect s event (s.update index change).1 := by
  cases h : s.rows[index]? with
  | none =>
    rw [update_of_none h]
    exact .unchanged fun id hid => by simpa [h] using (empties id).mp hid
  | some row =>
    rw [update_of_some h]
    exact .emptied h (stamp row) fun id => by simp [empties, h]

end Effect

theorem effect_remove (s : Sheet) (schema : Schema) (index : Nat) :
    Effect s (.edit schema (.remove index)) (s.remove index).1 := by
  unfold remove
  split_ifs with hone hlt
  · exact effect_empty (fun id => Iff.rfl) fun row => row.stamp_clear
  · obtain ⟨row, hrow⟩ : ∃ row, s.rows[index]? = some row :=
      ⟨_, List.getElem?_eq_getElem hlt⟩
    exact .removed hrow fun id => by simp [Event.Empties, Empties, hrow]
  · have hnone : s.rows[index]? = none := List.getElem?_eq_none (Nat.le_of_not_lt hlt)
    exact .unchanged fun id => by simp [Event.Empties, Empties, hnone]

theorem effect_deliver (s : Sheet) (delivery : Delivery) :
    Effect s (.deliver delivery) (s.deliver delivery).1 := by
  have quiet : ∀ id, ¬ (Event.deliver delivery).Empties s id := fun _ h => h
  simp only [deliver]
  cases hrow : s.rows[s.indexOf delivery.stamp.id]? with
  | none => exact .unchanged quiet
  | some row =>
    cases delivery.result with
    | error failure =>
      dsimp only
      split_ifs <;> exact .unchanged quiet
    | ok choices =>
      dsimp only
      split_ifs
      · exact .unchanged quiet
      · exact .adjusted hrow (row.sameStage_receive choices) quiet
      · exact .unchanged quiet

/-- Every event has one of the effects. -/
theorem effect (s : Sheet) (event : Event) : Effect s event (event.apply s) := by
  cases event with
  | deliver delivery => exact s.effect_deliver delivery
  | edit schema change =>
    cases change with
    | add => exact .added
    | reset => exact .restarted
    | clear index => exact effect_empty (fun _ => Iff.rfl) fun row => row.stamp_clear
    | remove index => exact s.effect_remove schema index
    | pointAt index field =>
      exact effect_empty (fun _ => Iff.rfl) fun row => row.stamp_pointAt schema field
    | compareBy index comparison =>
      refine effect_adjust (fun _ h => h) fun row => ?_
      split
      · exact .refl row
      · split_ifs
        · exact ⟨rfl, rfl, rfl⟩
        · exact .refl row
    | enter index value => exact effect_adjust (fun _ h => h) fun row => ⟨rfl, rfl, rfl⟩
    | select index values =>
      refine effect_adjust (fun _ h => h) fun row => ?_
      split
      · next hlist => exact ⟨rfl, rfl, by rw [hlist]; rfl⟩
      · exact .refl row
    | joinBy index joiner => exact effect_adjust (fun _ h => h) fun row => ⟨rfl, rfl, rfl⟩

end Sheet
end QueryFilter
