import QueryFilter.Proofs.Sheet.Delivery

/-!
# The order of arrivals

An answer changes at most the one row that bears its stamp, and changes it the same
way again when it arrives again. Among answers with distinct stamps each row has at
most one that concerns it. So what a sheet becomes depends on which answers arrive
and not on their order or number, and what becomes of each answer is the same every
time.
-/

namespace QueryFilter
namespace Row

/-- What an answer makes of a row. -/
def take (answer : Delivery) (row : Row) : Row :=
  if row.stamp = answer.stamp then
    match answer.result with
    | .ok choices => row.receive choices
    | .error _ => row
  else row

/-- What becomes of an answer for a row that bears its stamp. -/
def outcome (answer : Delivery) (row : Row) : Outcome :=
  match answer.result with
  | .ok _ => if row.content.isPicklist then .applied else .stale
  | .error failure => .failed failure

/-- What some answers make of a row, one after another. -/
def takeEach (answers : List Delivery) (row : Row) : Row :=
  answers.foldl (fun row answer => row.take answer) row

section Take

variable {answer : Delivery} {row : Row}

theorem take_of_ne (h : row.stamp ≠ answer.stamp) : row.take answer = row :=
  if_neg h

theorem sameStage_take (answer : Delivery) (row : Row) : row.SameStage (row.take answer) := by
  unfold take
  split_ifs
  · split
    · next choices _ => exact row.sameStage_receive choices
    · exact .refl row
  · exact .refl row

/-- The entries of the value become the selection at most once, and if there are none
the selection is empty again. -/
theorem receive_receive (choices : List Choice) (row : Row) :
    (row.receive choices).receive choices = row.receive choices := by
  cases hcontent : row.content with
  | picklist list =>
    simp only [receive, hcontent]
    by_cases hselected : list.selected.isEmpty = true
    · simp [hselected]
    · simp [hselected]
  | _ => simp only [receive, hcontent]

theorem take_take (answer : Delivery) (row : Row) :
    (row.take answer).take answer = row.take answer := by
  by_cases hstamp : row.stamp = answer.stamp
  · cases hresult : answer.result with
    | ok choices => simp [take, hstamp, hresult, receive_receive]
    | error failure => simp [take, hstamp, hresult]
  · rw [take_of_ne hstamp, take_of_ne hstamp]

theorem outcome_take (first second : Delivery) (row : Row) :
    (row.take first).outcome second = row.outcome second := by
  unfold outcome
  rw [(row.sameStage_take first).isPicklist]

end Take

section TakeEach

variable {answers : List Delivery} {row : Row}

theorem takeEach_of_settled (h : ∀ answer ∈ answers, row.take answer = row) :
    row.takeEach answers = row := by
  induction answers with
  | nil => rfl
  | cons first rest ih =>
    rw [takeEach, List.foldl_cons, h first (by simp)]
    exact ih fun answer hanswer => h answer (by simp [hanswer])

theorem takeEach_of_absent (h : ∀ answer ∈ answers, answer.stamp ≠ row.stamp) :
    row.takeEach answers = row :=
  takeEach_of_settled fun answer hanswer => take_of_ne (h answer hanswer).symm

/-- A row takes in the one answer that bears its stamp, however often it comes. -/
theorem takeEach_of_mem {answer : Delivery} (hanswer : answer ∈ answers)
    (hstamp : answer.stamp = row.stamp)
    (honly : ∀ other ∈ answers, other.stamp = row.stamp → other = answer) :
    row.takeEach answers = row.take answer := by
  induction answers with
  | nil => cases hanswer
  | cons first rest ih =>
    have hrest : ∀ other ∈ rest, other.stamp = row.stamp → other = answer :=
      fun other hother => honly other (by simp [hother])
    rw [takeEach, List.foldl_cons]
    by_cases hfirst : first.stamp = row.stamp
    · rw [honly first (by simp) hfirst]
      -- from here on the row is settled
      apply takeEach_of_settled
      intro other hother
      by_cases hsame : other.stamp = row.stamp
      · rw [hrest other hother hsame, take_take]
      · rw [take_of_ne]
        rw [(row.sameStage_take answer).stamp]
        exact Ne.symm hsame
    · have hlater : answer ∈ rest := by
        rcases List.mem_cons.mp hanswer with rfl | hlater
        · exact absurd hstamp hfirst
        · exact hlater
      rw [take_of_ne (Ne.symm hfirst)]
      exact ih hlater hrest

end TakeEach

end Row

namespace Sheet

/-- Hands over some answers one after another, and says what became of each. -/
def deliverEach (s : Sheet) : List Delivery → Sheet × List Outcome
  | [] => (s, [])
  | answer :: rest =>
    let (changed, outcome) := s.deliver answer
    let (changed, outcomes) := changed.deliverEach rest
    (changed, outcome :: outcomes)

/-! ### One answer -/

section Deliver

variable {s : Sheet} {answer : Delivery} {row : Row}

theorem map_take_of_absent (h : ∀ row ∈ s.rows, row.stamp ≠ answer.stamp) :
    s.rows.map (Row.take answer) = s.rows := by
  rw [List.map_congr_left fun row hrow => Row.take_of_ne (h row hrow)]
  exact List.map_id' s.rows

/-- Where one row bears the stamp of an answer, only that row changes. -/
theorem set_take (hs : s.Distinct) {index : Nat} (hindex : s.rows[index]? = some row)
    (hstamp : row.stamp = answer.stamp) :
    s.rows.set index (row.take answer) = s.rows.map (Row.take answer) := by
  apply List.ext_getElem?
  intro i
  rw [List.getElem?_set, List.getElem?_map]
  split_ifs with hi hlt
  · rw [← hi, hindex]
    rfl
  · rw [← hi, List.getElem?_eq_none (Nat.le_of_not_lt hlt)]
    rfl
  · cases hother : s.rows[i]? with
    | none => rfl
    | some other =>
      have hne : other.stamp ≠ answer.stamp := by
        intro hsame
        exact hi (hs.index_eq_of_id hindex hother
          (congrArg Stamp.id (hstamp.trans hsame.symm)))
      rw [Option.map_some, Row.take_of_ne hne]

theorem deliver_of_absent (h : ∀ row ∈ s.rows, row.stamp ≠ answer.stamp) :
    s.deliver answer = (s, .stale) := by
  cases hfound : s.rows[s.indexOf answer.stamp.id]? with
  | none => simp [deliver, hfound]
  | some row =>
    have hgeneration : row.generation ≠ answer.stamp.generation := by
      intro hgeneration
      apply h row (List.mem_of_getElem? hfound)
      rw [Row.stamp, id_of_indexOf hfound, hgeneration]
    simp [deliver, hfound, hgeneration]

theorem deliver_of_mem (hs : s.Distinct) (hrow : row ∈ s.rows)
    (hstamp : row.stamp = answer.stamp) :
    s.deliver answer = ({ s with rows := s.rows.map (Row.take answer) }, row.outcome answer) := by
  have hindex := getElem?_indexOf hs hrow
  have hid : answer.stamp.id = row.id := congrArg Stamp.id hstamp.symm
  have hgeneration : row.generation = answer.stamp.generation := congrArg Stamp.generation hstamp
  rw [← set_take hs hindex hstamp]
  cases hresult : answer.result with
  | error failure =>
    have hkept : row.take answer = row := by simp [Row.take, hresult]
    rw [hkept, set_self hindex]
    simp [deliver, hid, hindex, hgeneration, hresult, Row.outcome]
  | ok choices =>
    have htaken : row.take answer = row.receive choices := by simp [Row.take, hstamp, hresult]
    cases hlist : row.content.isPicklist with
    | true => simp [deliver, hid, hindex, hgeneration, hresult, hlist, htaken, Row.outcome]
    | false =>
      have hkept : row.receive choices = row := by
        cases hcontent : row.content <;> simp_all [Row.receive, Content.isPicklist]
      rw [htaken, hkept, set_self hindex]
      simp [deliver, hid, hindex, hgeneration, hresult, hlist, Row.outcome]

theorem deliver_fst (hs : s.Distinct) (answer : Delivery) :
    (s.deliver answer).1 = { s with rows := s.rows.map (Row.take answer) } := by
  by_cases h : ∃ row ∈ s.rows, row.stamp = answer.stamp
  · obtain ⟨row, hrow, hstamp⟩ := h
    rw [deliver_of_mem hs hrow hstamp]
  · push Not at h
    rw [deliver_of_absent h, map_take_of_absent h]

theorem distinct_deliver (hs : s.Distinct) (answer : Delivery) : (s.deliver answer).1.Distinct :=
  hs.apply (.deliver answer)

/-- What becomes of an answer does not depend on the answers before it. -/
theorem deliver_deliver_snd (hs : s.Distinct) (first second : Delivery) :
    ((s.deliver first).1.deliver second).2 = (s.deliver second).2 := by
  have hlater := distinct_deliver hs first
  by_cases h : ∃ row ∈ s.rows, row.stamp = second.stamp
  · obtain ⟨row, hrow, hstamp⟩ := h
    have hmem : row.take first ∈ (s.deliver first).1.rows := by
      rw [deliver_fst hs]
      exact List.mem_map_of_mem hrow
    have hstamp' : (row.take first).stamp = second.stamp :=
      (row.sameStage_take first).stamp.trans hstamp
    rw [deliver_of_mem hs hrow hstamp, deliver_of_mem hlater hmem hstamp', Row.outcome_take]
  · push Not at h
    have habsent : ∀ row ∈ (s.deliver first).1.rows, row.stamp ≠ second.stamp := by
      intro row hrow
      rw [deliver_fst hs] at hrow
      obtain ⟨old, hold, rfl⟩ := List.mem_map.mp hrow
      rw [(old.sameStage_take first).stamp]
      exact h old hold
    rw [deliver_of_absent h, deliver_of_absent habsent]

end Deliver

/-! ### Many answers -/

section DeliverEach

variable {s : Sheet}

theorem deliverEach_fst (hs : s.Distinct) (answers : List Delivery) :
    (s.deliverEach answers).1 = { s with rows := s.rows.map (Row.takeEach answers) } := by
  induction answers generalizing s with
  | nil =>
    show s = { s with rows := s.rows.map fun row => row }
    rw [List.map_id']
  | cons first rest ih =>
    show ((s.deliver first).1.deliverEach rest).1 = _
    rw [ih (distinct_deliver hs first), deliver_fst hs, List.map_map]
    rfl

theorem deliverEach_snd (hs : s.Distinct) (answers : List Delivery) :
    (s.deliverEach answers).2 = answers.map fun answer => (s.deliver answer).2 := by
  induction answers generalizing s with
  | nil => rfl
  | cons first rest ih =>
    show (s.deliver first).2 :: ((s.deliver first).1.deliverEach rest).2 = _
    rw [ih (distinct_deliver hs first), List.map_cons]
    simp only [deliver_deliver_snd hs]

variable {answers : List Delivery} (hstamps : (answers.map Delivery.stamp).Nodup)
include hstamps

theorem takeEach_eq_take {arrived : List Delivery} (harrived : ∀ d, d ∈ arrived ↔ d ∈ answers)
    {row : Row} {answer : Delivery} (hanswer : answer ∈ answers)
    (hstamp : answer.stamp = row.stamp) : row.takeEach arrived = row.take answer := by
  refine Row.takeEach_of_mem ((harrived answer).mpr hanswer) hstamp fun other hother hsame => ?_
  exact List.inj_on_of_nodup_map hstamps ((harrived other).mp hother) hanswer
    (hsame.trans hstamp.symm)

/-- Answers with distinct stamps may arrive in any order and any number of times. -/
theorem deliverEach_congr (hs : s.Distinct) {first second : List Delivery}
    (hfirst : ∀ d, d ∈ first ↔ d ∈ answers) (hsecond : ∀ d, d ∈ second ↔ d ∈ answers) :
    (s.deliverEach first).1 = (s.deliverEach second).1 := by
  rw [deliverEach_fst hs, deliverEach_fst hs]
  congr 1
  apply List.map_congr_left
  intro row _
  by_cases h : ∃ answer ∈ answers, answer.stamp = row.stamp
  · obtain ⟨answer, hanswer, hstamp⟩ := h
    rw [takeEach_eq_take hstamps hfirst hanswer hstamp,
      takeEach_eq_take hstamps hsecond hanswer hstamp]
  · push Not at h
    rw [Row.takeEach_of_absent fun d hd => h d ((hfirst d).mp hd),
      Row.takeEach_of_absent fun d hd => h d ((hsecond d).mp hd)]

end DeliverEach

end Sheet
end QueryFilter
