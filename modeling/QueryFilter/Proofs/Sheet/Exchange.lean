import QueryFilter.Proofs.Sheet.Arrival
import QueryFilter.Proofs.Sheet.Order

/-!
# Edits and answers in either order

An answer fills the picklist of the one row that waits for it. An edit of another row
does not notice, even if it moves that row, and nor does a change of the row's
comparison or joiner. Only the selection depends on both: while nothing is selected,
an answer takes the selection from the value. So an edit and an answer may trade places
unless the edit empties the row, enters a value while nothing is selected there, or
selects nothing.
-/

namespace QueryFilter

/-! ### Rows -/

/-- A picklist with the values delivered for it. If nothing is selected yet, the entries
of a value become the selection. -/
def Content.fill (choices : List Choice) (value : String) : Content → Content
  | picklist list =>
    picklist ⟨choices, if list.selected.isEmpty then Text.entries value else list.selected, true⟩
  | content => content

namespace Row

/-- What a row holds once an answer has arrived. -/
def contentAfter (answer : Delivery) (row : Row) : Content :=
  if row.stamp = answer.stamp then
    match answer.result with
    | .ok choices => row.content.fill choices row.value
    | .error _ => row.content
  else row.content

section Take

variable (answer : Delivery) (row : Row)

/-- An answer changes nothing of a row but its content. -/
theorem take_eq : row.take answer = { row with content := row.contentAfter answer } := by
  unfold take contentAfter receive
  split_ifs
  · cases answer.result with
    | error failure => rfl
    | ok choices =>
      cases hcontent : row.content with
      | picklist list => rfl
      | _ =>
        dsimp only [Content.fill]
        rw [← hcontent]
  · rfl

theorem type?_take : (row.take answer).type? = row.type? := by
  unfold take
  split_ifs
  · cases answer.result with
    | error failure => rfl
    | ok choices => exact type?_receive choices row
  · rfl

theorem take_number (number : Nat) :
    ({ row with number := number } : Row).take answer =
      { row.take answer with number := number } := by
  rw [take_eq, take_eq answer row]
  rfl

theorem take_comparison (comparison : Option Comparison) :
    ({ row with comparison := comparison } : Row).take answer =
      { row.take answer with comparison := comparison } := by
  rw [take_eq, take_eq answer row]
  rfl

theorem take_joiner (joiner : Connective) :
    ({ row with joiner := joiner } : Row).take answer =
      { row.take answer with joiner := joiner } := by
  rw [take_eq, take_eq answer row]
  rfl

variable {answer row}

theorem take_of_id_ne (h : row.id ≠ answer.stamp.id) : row.take answer = row :=
  take_of_ne fun hstamp => h (congrArg Stamp.id hstamp)

theorem take_of_not_isPicklist (h : row.content.isPicklist = false) : row.take answer = row := by
  unfold take receive
  split_ifs
  · cases answer.result with
    | error failure => rfl
    | ok choices => cases hcontent : row.content <;> simp_all [Content.isPicklist]
  · rfl

/-- A value does not matter to an answer where something is selected. -/
theorem take_value (value : String) (h : row.content.selected ≠ []) :
    ({ row with value := value } : Row).take answer = { row.take answer with value := value } := by
  have hfill (choices : List Choice) (value value' : String) :
      row.content.fill choices value = row.content.fill choices value' := by
    cases hcontent : row.content with
    | picklist list =>
      rw [hcontent] at h
      have hselected : list.selected.isEmpty = false := by simpa [Content.selected] using h
      simp [Content.fill, hselected]
    | _ => rfl
  have hcontent : ({ row with value := value } : Row).contentAfter answer =
      row.contentAfter answer := by
    unfold contentAfter
    change (if row.stamp = answer.stamp then _ else _) = _
    split_ifs
    · cases answer.result with
      | error failure => rfl
      | ok choices => exact hfill choices value row.value
    · rfl
  rw [take_eq, take_eq answer row, hcontent]

/-- Values that are selected stay selected, and the picklist is filled alike around them. -/
theorem take_selected (answer : Delivery) {list : Picklist} (held : row.content = .picklist list)
    {values : List String} (h : values ≠ []) :
    ∃ filled : Picklist, (row.take answer).content = .picklist filled ∧
      ({ row with content := .picklist { list with selected := values } } : Row).take answer =
        { row.take answer with content := .picklist { filled with selected := values } } := by
  have hvalues : values.isEmpty = false := by simpa using h
  by_cases hstamp : row.stamp = answer.stamp
  · have hstamp' (content : Content) : ({ row with content } : Row).stamp = answer.stamp := hstamp
    cases hresult : answer.result with
    | error failure => exact ⟨list, by simp [take, hresult, held], by simp [take, hresult]⟩
    | ok choices =>
      let selected := if list.selected.isEmpty then Text.entries row.value else list.selected
      refine ⟨⟨choices, selected, true⟩, by simp [take, hstamp, hresult, receive, held, selected], ?_⟩
      simp [take, hstamp, hstamp', hresult, receive, held, hvalues]
  · rw [take_of_ne hstamp, take_of_ne (by exact hstamp)]
    exact ⟨list, held, rfl⟩

end Take

end Row

/-! ### Sheets -/

namespace Sheet

/-- Whether an edit interferes with an answer for the row with an id: it empties that row,
enters a value while nothing is selected there, or selects nothing there. -/
def Interferes (s : Sheet) (id : Nat) : Edit → Prop
  | .enter index _ => ∃ row ∈ s.rows[index]?, row.id = id ∧ row.content.selected = []
  | .select index values => s.rows[index]?.map Row.id = some id ∧ values = []
  | change => s.Empties id change

instance (s : Sheet) (id : Nat) : (change : Edit) → Decidable (s.Interferes id change)
  | .enter index _ =>
    inferInstanceAs (Decidable (∃ row ∈ s.rows[index]?, row.id = id ∧ row.content.selected = []))
  | .select index values =>
    inferInstanceAs (Decidable (s.rows[index]?.map Row.id = some id ∧ values = []))
  | .add => inferInstanceAs (Decidable (s.Empties id .add))
  | .reset => inferInstanceAs (Decidable (s.Empties id .reset))
  | .clear index => inferInstanceAs (Decidable (s.Empties id (.clear index)))
  | .remove index => inferInstanceAs (Decidable (s.Empties id (.remove index)))
  | .pointAt index field => inferInstanceAs (Decidable (s.Empties id (.pointAt index field)))
  | .compareBy index comparison =>
    inferInstanceAs (Decidable (s.Empties id (.compareBy index comparison)))
  | .joinBy index joiner => inferInstanceAs (Decidable (s.Empties id (.joinBy index joiner)))

/-- The sheet with an answer taken in by the row that bears its stamp. -/
def take (answer : Delivery) (s : Sheet) : Sheet :=
  { s with rows := s.rows.map (Row.take answer) }

section Take

variable {s : Sheet} {answer : Delivery}

@[simp] theorem size_take : (s.take answer).size = s.size := by
  simp [size, take]

@[simp] theorem getElem?_take (index : Nat) :
    (s.take answer).rows[index]? = s.rows[index]?.map (Row.take answer) :=
  List.getElem?_map

/-- An update keeps the id of the row that it changes, so it goes the same way after an
answer if it does where that row bears the id in the answer. -/
theorem update_take {index : Nat} {change : Row → Row × EditResult}
    (hid : ∀ row, (change row).1.id = row.id)
    (hself : ∀ row, s.rows[index]? = some row → row.id = answer.stamp.id →
      change (row.take answer) = ((change row).1.take answer, (change row).2)) :
    (s.take answer).update index change =
      ((s.update index change).1.take answer, (s.update index change).2) := by
  cases hrow : s.rows[index]? with
  | none =>
    have htaken : (s.take answer).rows[index]? = none := by rw [getElem?_take, hrow, Option.map_none]
    rw [update_of_none hrow, update_of_none htaken, size_take]
  | some row =>
    have htaken : (s.take answer).rows[index]? = some (row.take answer) := by
      rw [getElem?_take, hrow, Option.map_some]
    have hchange : change (row.take answer) = ((change row).1.take answer, (change row).2) := by
      by_cases hsame : row.id = answer.stamp.id
      · exact hself row hrow hsame
      · have hne : (change row).1.id ≠ answer.stamp.id := by rwa [hid]
        rw [Row.take_of_id_ne hsame, Row.take_of_id_ne hne]
    rw [update_of_some hrow, update_of_some htaken, hchange]
    simp only [take, List.map_set]

section Empties

variable {index : Nat} (hother : s.rows[index]?.map Row.id ≠ some answer.stamp.id)
include hother

theorem update_take_of_id_ne {change : Row → Row × EditResult}
    (hid : ∀ row, (change row).1.id = row.id) :
    (s.take answer).update index change =
      ((s.update index change).1.take answer, (s.update index change).2) :=
  update_take hid fun row hrow hsame => absurd (by rw [hrow, Option.map_some, hsame]) hother

theorem remove_take :
    (s.take answer).remove index = ((s.remove index).1.take answer, (s.remove index).2) := by
  have hrenumber (rows : List Row) :
      renumber (rows.map (Row.take answer)) = (renumber rows).map (Row.take answer) := by
    apply List.ext_getElem?
    intro i
    simp [renumber, Row.take_number, Function.comp_def]
  unfold remove
  rw [size_take]
  split_ifs with hone hlt
  · exact update_take_of_id_ne hother fun _ => rfl
  · simp only [take, List.eraseIdx_map, hrenumber]
  · rfl

end Empties

theorem compareBy_take (index : Nat) (comparison : Comparison) :
    (s.take answer).compareBy index comparison =
      ((s.compareBy index comparison).1.take answer, (s.compareBy index comparison).2) := by
  refine update_take (fun row => ?_) fun row _ _ => ?_
  · split
    · rfl
    · split_ifs <;> rfl
  · rw [Row.type?_take]
    cases row.type? with
    | none => rfl
    | some type =>
      dsimp only
      split_ifs
      · exact congrArg (·, _) (Row.take_comparison answer row (some comparison)).symm
      · rfl

theorem enter_take {index : Nat} {value : String}
    (h : ¬ s.Interferes answer.stamp.id (.enter index value)) :
    (s.take answer).enter index value =
      ((s.enter index value).1.take answer, (s.enter index value).2) := by
  refine update_take (fun row => rfl) fun row hrow hsame => ?_
  have hselected : row.content.selected ≠ [] := fun hnone => h ⟨row, hrow, hsame, hnone⟩
  exact congrArg (·, _) (Row.take_value value hselected).symm

theorem select_take {index : Nat} {values : List String}
    (h : ¬ s.Interferes answer.stamp.id (.select index values)) :
    (s.take answer).select index values =
      ((s.select index values).1.take answer, (s.select index values).2) := by
  refine update_take (fun row => ?_) fun row hrow hsame => ?_
  · split <;> rfl
  · have hvalues : values ≠ [] := fun hnone => h ⟨by rw [hrow, Option.map_some, hsame], hnone⟩
    cases hcontent : row.content with
    | picklist list =>
      obtain ⟨filled, hfilled, htaken⟩ := Row.take_selected answer hcontent hvalues
      rw [hfilled, htaken]
    | _ =>
      have hkept : row.take answer = row := Row.take_of_not_isPicklist (by rw [hcontent]; rfl)
      rw [hkept, hcontent]

theorem joinBy_take (index : Nat) (joiner : Connective) :
    (s.take answer).joinBy index joiner =
      ((s.joinBy index joiner).1.take answer, (s.joinBy index joiner).2) :=
  update_take (fun _ => rfl) fun row _ _ =>
    congrArg (·, _) (Row.take_joiner answer row joiner).symm

/-- An edit that does not interfere with an answer goes the same way after it. -/
theorem edit_take {schema : Schema} {change : Edit} (hbelow : answer.stamp.id < s.nextId)
    (hpresent : ∃ row ∈ s.rows, row.id = answer.stamp.id)
    (h : ¬ s.Interferes answer.stamp.id change) :
    (s.take answer).edit schema change =
      ((s.edit schema change).1.take answer, (s.edit schema change).2) := by
  cases change with
  | add =>
    have hblank (number : Nat) : (Row.blank s.nextId number).take answer = .blank s.nextId number :=
      Row.take_of_id_ne (Nat.ne_of_gt hbelow)
    have hadd : (s.take answer).add = s.add.take answer := by
      simp only [add, take, List.map_append, List.map_singleton, hblank, size, List.length_map]
    rw [edit, edit, hadd]
  | reset => exact absurd hpresent h
  | clear index => exact update_take_of_id_ne h fun _ => rfl
  | remove index => exact remove_take h
  | pointAt index field => exact update_take_of_id_ne h fun _ => rfl
  | compareBy index comparison => exact compareBy_take index comparison
  | enter index value => exact enter_take h
  | select index values => exact select_take h
  | joinBy index joiner => exact joinBy_take index joiner

end Take

theorem interferes_of_empties {s : Sheet} {id : Nat} {change : Edit} (h : s.Empties id change) :
    s.Interferes id change := by
  cases change with
  | enter | select => exact False.elim h
  | _ => exact h

/-- What becomes of an awaited answer. -/
def outcomeOf : Except FetchFailure (List Choice) → Outcome
  | .ok _ => .applied
  | .error failure => .failed failure

section Exchange

variable {s : Sheet} (hs : s.Distinct) {request : Request} (hr : s.Awaited request)
  (result : Except FetchFailure (List Choice))
include hs hr

theorem deliver_of_awaited :
    s.deliver (request.answer result) = (s.take (request.answer result), outcomeOf result) := by
  obtain ⟨row, hrow, hstamp, -, hlist⟩ := hr
  rw [deliver_of_mem hs hrow hstamp]
  have houtcome : row.outcome (request.answer result) = outcomeOf result := by
    cases result <;> simp [Row.outcome, Request.answer, outcomeOf, hlist]
  rw [houtcome]
  rfl

/-- An awaited answer and an edit that does not interfere with it may trade places. -/
theorem edit_deliver_comm {schema : Schema} {change : Edit}
    (h : ¬ s.Interferes request.stamp.id change) :
    let answer := request.answer result
    let edited := s.edit schema change
    let delivered := s.deliver answer
    edited.1.deliver answer = ((delivered.1.edit schema change).1, delivered.2) ∧
      (delivered.1.edit schema change).2 = edited.2 := by
  have hpresent : ∃ row ∈ s.rows, row.id = request.stamp.id := by
    obtain ⟨row, hrow, hstamp, -⟩ := hr
    exact ⟨row, hrow, congrArg Stamp.id hstamp⟩
  have hbelow : request.stamp.id < s.nextId := by
    obtain ⟨row, hrow, hid⟩ := hpresent
    exact hid ▸ hs.below row hrow
  have htaken : (s.take (request.answer result)).edit schema change =
      ((s.edit schema change).1.take (request.answer result), (s.edit schema change).2) :=
    edit_take hbelow hpresent h
  have hquiet : ¬ (Event.edit schema change).Empties s request.stamp.id :=
    fun hempties => h (interferes_of_empties hempties)
  have heffect := s.effect (.edit schema change)
  have hdistinct : (s.edit schema change).1.Distinct := heffect.distinct hs
  have hawaited : (s.edit schema change).1.Awaited request := hr.effect heffect hquiet
  simp only [deliver_of_awaited hs hr, htaken, deliver_of_awaited hdistinct hawaited, and_self]

end Exchange

/-- Whether an answer to a request arrives before or after an edit that does not interfere
with it, the sheet ends up the same, the edit gives the same request or refusal, and the
same becomes of the answer. -/
theorem exchange_of_run (before since : List Event) (event : Event) (request : Request)
    (hrequest : event.request? (new.after before) = some request)
    (hsince : ¬ (new.after (before ++ [event])).EmptiedDuring request.stamp.id since)
    (schema : Schema) (change : Edit) :
    let s := new.after (before ++ event :: since)
    ¬ s.Interferes request.stamp.id change →
    ∀ result : Except FetchFailure (List Choice),
      let answer := request.answer result
      let edited := s.edit schema change
      let delivered := s.deliver answer
      edited.1.deliver answer = ((delivered.1.edit schema change).1, delivered.2) ∧
        (delivered.1.edit schema change).2 = edited.2 := by
  intro s hchange result
  have hdistinct := distinct_new.after (before ++ event :: since)
  have hquiet : ¬ (event.apply (new.after before)).EmptiedDuring request.stamp.id since := by
    simpa using hsince
  have hawaited := (awaited_of_request? hrequest).1.after hquiet
  rw [← after_cons, ← after_append] at hawaited
  exact edit_deliver_comm hdistinct hawaited result hchange

/-- A value that is entered while nothing is selected is the selection only if it is there
before the answer. -/
example :
    let schema : Schema := ⟨"Account", [⟨"Type", "Type", "Picklist", []⟩]⟩
    let s := new.after [.edit schema (.pointAt 0 "Type")]
    let answer : Delivery := ⟨⟨0, 1⟩, .ok []⟩
    let change := Edit.enter 0 "a"
    (((s.edit schema change).1.deliver answer).1.rows.map (·.content.selected),
        ((s.deliver answer).1.edit schema change).1.rows.map (·.content.selected)) =
      ([["a"]], [[]]) := by
  decide +kernel

/-- The second row waits for values and holds two entries. It becomes the first row, or
another value is selected in it, before or after the answer. -/
theorem exchange_of_run_two_rows :
    let schema : Schema := ⟨"Account", [⟨"Type", "Type", "Picklist", []⟩]⟩
    let request : Request := ⟨⟨1, 1⟩, "Account", "Type"⟩
    let result : Except FetchFailure (List Choice) := .ok [⟨"Customer", "customer"⟩]
    let s := new.after [.edit schema .add, .edit schema (.pointAt 1 "Type"),
      .edit schema (.enter 1 "a, b")]
    let filled := (s.deliver (request.answer result)).1
    let alike (change : Edit) : Prop :=
      (s.edit schema change).1.deliver (request.answer result) =
        ((filled.edit schema change).1, .applied)
    let selections (change : Edit) : List (List String) :=
      (filled.edit schema change).1.rows.map (·.content.selected)
    (alike (.remove 0) ∧ selections (.remove 0) = [["a", "b"]]) ∧
      alike (.select 1 ["c"]) ∧ selections (.select 1 ["c"]) = [[], ["c"]] := by
  intro schema request result s filled alike selections
  have hexchange (change : Edit) (h : ¬ s.Interferes request.stamp.id change) : alike change := by
    have houtcome : (s.deliver (request.answer result)).2 = .applied := by decide +kernel
    have hboth := (exchange_of_run [.edit schema .add] [.edit schema (.enter 1 "a, b")]
      (.edit schema (.pointAt 1 "Type")) request (by decide +kernel) (by decide +kernel) schema
      change h result).1
    exact hboth.trans (by rw [← houtcome]; rfl)
  exact ⟨⟨hexchange _ (by decide +kernel), by decide +kernel⟩,
    hexchange _ (by decide +kernel), by decide +kernel⟩

end Sheet
end QueryFilter
