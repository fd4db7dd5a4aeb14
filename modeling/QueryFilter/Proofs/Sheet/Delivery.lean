import QueryFilter.Proofs.Sheet.Lineage

/-!
# Deliveries land on the row they were asked for

Along a run, a request is `Awaited` as long as its row is at the stage at which
it was made, and `Outlived` from the first event on that removes or empties the
row. An outlived request never comes back, because ids and generations are never
used twice. So what becomes of an answer depends only on what happened to the row
between the request and the answer, however late and however often the answer
arrives.
-/

namespace QueryFilter

theorem Row.request?_eq_some {schema : Schema} {row : Row} {request : Request}
    (h : row.request? schema = some request) :
    request.stamp = row.stamp ∧ request.field = row.field ∧ row.content.isPicklist = true := by
  unfold Row.request? at h
  split at h
  · next hlist =>
    split_ifs at h
    cases h
    exact ⟨rfl, rfl, by rw [hlist]; rfl⟩
  · cases h

theorem Row.receive_of_picklist {row : Row} {list : Picklist} (choices : List Choice)
    (h : row.content = .picklist list) :
    ∃ filled, row.receive choices = { row with content := .picklist filled } := by
  unfold Row.receive
  rw [h]
  exact ⟨_, rfl⟩

namespace Sheet

/-- The row that a request was made for is still at the stage at which it was made. -/
def Awaited (s : Sheet) (request : Request) : Prop :=
  ∃ row ∈ s.rows, row.stamp = request.stamp ∧ row.field = request.field ∧
    row.content.isPicklist = true

/-- The row that a request was made for is gone or in a later generation. -/
def Outlived (s : Sheet) (request : Request) : Prop :=
  request.stamp.id < s.nextId ∧
    ∀ row ∈ s.rows, row.id = request.stamp.id → request.stamp.generation < row.generation

/-- Two sheets that differ in nothing but the picklist of the one row with an id,
and that row points at a field. -/
def DifferInPicklist (s later : Sheet) (id : Nat) (field : String) : Prop :=
  ∃ index row list filled, s.rows[index]? = some row ∧ row.id = id ∧
    (∀ other ∈ s.rows, other.id = id → other = row) ∧
    row.field = field ∧ row.content = .picklist list ∧
    later = { s with rows := s.rows.set index { row with content := .picklist filled } }

section Step

variable {s later : Sheet} {event : Event} {request : Request}

theorem Awaited.effect (hr : s.Awaited request) (h : s.Effect event later)
    (hquiet : ¬ event.Empties s request.stamp.id) : later.Awaited request := by
  obtain ⟨row, hrow, hstamp, hfield, hlist⟩ := hr
  rw [← hstamp] at hquiet
  obtain ⟨kept, hkept, same⟩ := h.exists_sameStage hrow hquiet
  exact ⟨kept, hkept, same.stamp.trans hstamp, same.field.trans hfield,
    same.isPicklist.trans hlist⟩

theorem Outlived.effect (hr : s.Outlived request) (hs : s.Distinct)
    (h : s.Effect event later) : later.Outlived request := by
  refine ⟨Nat.lt_of_lt_of_le hr.1 h.nextId_le, fun row hrow hid => ?_⟩
  rcases h.origin hs hrow with hnew | ⟨old, hold, same, _⟩ | ⟨old, hold, hstamp, _⟩
  · have := hr.1
    omega
  · rw [same.generation]
    exact hr.2 old hold (same.id.symm.trans hid)
  · have hgeneration : row.generation = old.generation + 1 := congrArg Stamp.generation hstamp
    have hids : row.id = old.id := congrArg Stamp.id hstamp
    have := hr.2 old hold (hids.symm.trans hid)
    omega

/-- An event that empties the row of an awaited request outlives the request. -/
theorem Awaited.outlived (hr : s.Awaited request) (hs : s.Distinct)
    (h : s.Effect event later) (hempties : event.Empties s request.stamp.id) :
    later.Outlived request := by
  obtain ⟨row, hrow, hstamp, -, -⟩ := hr
  have hid : row.id = request.stamp.id := congrArg Stamp.id hstamp
  have hgeneration : row.generation = request.stamp.generation :=
    congrArg Stamp.generation hstamp
  have hbelow := hs.below row hrow
  refine ⟨Nat.lt_of_lt_of_le (hid ▸ hbelow) h.nextId_le, fun next hnext hnextId => ?_⟩
  rcases h.origin hs hnext with hnew | ⟨old, hold, same, hquiet⟩ | ⟨old, hold, hnextStamp, _⟩
  · omega
  · rw [← same.id, hnextId] at hquiet
    exact absurd hempties hquiet
  · have hnextGeneration : next.generation = old.generation + 1 :=
      congrArg Stamp.generation hnextStamp
    have hids : next.id = old.id := congrArg Stamp.id hnextStamp
    obtain rfl := hs.eq_of_id hold hrow (by omega)
    omega

end Step

section Run

variable {s : Sheet} {request : Request}

theorem Awaited.after (hr : s.Awaited request) {events : List Event}
    (hquiet : ¬ s.EmptiedDuring request.stamp.id events) : (s.after events).Awaited request := by
  induction events generalizing s with
  | nil => exact hr
  | cons event rest ih =>
    rw [EmptiedDuring, not_or] at hquiet
    exact ih (hr.effect (s.effect event) hquiet.1) hquiet.2

theorem Outlived.after (hr : s.Outlived request) (hs : s.Distinct) (events : List Event) :
    (s.after events).Outlived request := by
  induction events generalizing s with
  | nil => exact hr
  | cons event rest ih => exact ih (hr.effect hs (s.effect event)) (hs.apply event)

theorem Awaited.outlived_after (hr : s.Awaited request) (hs : s.Distinct) {events : List Event}
    (hempties : s.EmptiedDuring request.stamp.id events) :
    (s.after events).Outlived request := by
  induction events generalizing s with
  | nil => exact absurd hempties id
  | cons event rest ih =>
    by_cases h : event.Empties s request.stamp.id
    · exact (hr.outlived hs (s.effect event) h).after (hs.apply event) rest
    · exact ih (hr.effect (s.effect event) h) (hs.apply event) (hempties.resolve_left h)

end Run

/-- Only pointing a row at a field makes a request, and it is that row's. -/
theorem edit_eq_ok_some {s : Sheet} {schema : Schema} {change : Edit} {request : Request}
    (h : (s.edit schema change).2 = .ok (some request)) :
    ∃ index field row, change = .pointAt index field ∧ s.rows[index]? = some row ∧
      (row.pointAt schema field).request? schema = some request := by
  cases change with
  | pointAt index field =>
    obtain ⟨row, hrow, hrequest⟩ := update_snd_eq_ok.mp h
    exact ⟨index, field, row, rfl, hrow, Except.ok.inj hrequest⟩
  | add | reset => cases h
  | clear | enter | joinBy =>
    obtain ⟨row, -, hrequest⟩ := update_snd_eq_ok.mp h
    cases hrequest
  | remove index =>
    simp only [edit, remove] at h
    split_ifs at h
    · obtain ⟨row, -, hrequest⟩ := update_snd_eq_ok.mp h
      cases hrequest
    · cases h
  | compareBy index comparison =>
    obtain ⟨row, -, hrequest⟩ := update_snd_eq_ok.mp h
    split at hrequest
    · cases hrequest
    · split_ifs at hrequest
      cases hrequest
  | select index values =>
    obtain ⟨row, -, hrequest⟩ := update_snd_eq_ok.mp h
    split at hrequest <;> cases hrequest

/-- A request is made for a row that has just entered a new generation. -/
theorem awaited_of_request? {s : Sheet} {event : Event} {request : Request}
    (h : event.request? s = some request) :
    (event.apply s).Awaited request ∧
      ∃ row ∈ s.rows, request.stamp = ⟨row.id, row.generation + 1⟩ := by
  cases event with
  | deliver delivery => cases h
  | edit schema change =>
    have hedit : (s.edit schema change).2 = .ok (some request) := by
      cases hedit : (s.edit schema change).2 with
      | error error => simp [Event.request?, hedit] at h
      | ok requested => simpa [Event.request?, hedit] using h
    obtain ⟨index, field, row, rfl, hrow, hrequest⟩ := edit_eq_ok_some hedit
    obtain ⟨hstamp, hfield, hlist⟩ := Row.request?_eq_some hrequest
    have happly : (Event.edit schema (.pointAt index field)).apply s =
        { s with rows := s.rows.set index (row.pointAt schema field) } :=
      congrArg Prod.fst (update_of_some hrow _)
    have hlt := (List.getElem?_eq_some_iff.mp hrow).1
    rw [happly]
    exact ⟨⟨_, List.mem_set hlt _, hstamp.symm, hfield.symm, hlist⟩,
      row, List.mem_of_getElem? hrow, hstamp⟩

/-- A new request has a stamp that no request before it had. -/
theorem stamp_ne_of_request? {s : Sheet} (hs : s.Distinct) {old request : Request}
    (hold : s.Awaited old ∨ s.Outlived old) {event : Event}
    (h : event.request? s = some request) : request.stamp ≠ old.stamp := by
  obtain ⟨-, row, hrow, hstamp⟩ := awaited_of_request? h
  intro heq
  rw [heq] at hstamp
  have hid : old.stamp.id = row.id := congrArg Stamp.id hstamp
  have hgeneration : old.stamp.generation = row.generation + 1 := congrArg Stamp.generation hstamp
  rcases hold with ⟨holder, hholder, hbears, -, -⟩ | ⟨-, hlater⟩
  · have hids : holder.id = row.id := (congrArg Stamp.id hbears).trans hid
    have hgenerations : holder.generation = row.generation + 1 :=
      (congrArg Stamp.generation hbears).trans hgeneration
    obtain rfl := hs.eq_of_id hholder hrow hids
    omega
  · have := hlater row hrow hid.symm
    omega

theorem stamp_ne_of_mem_requests {s : Sheet} (hs : s.Distinct) {old : Request}
    (hold : s.Awaited old ∨ s.Outlived old) {events : List Event} {request : Request}
    (h : request ∈ s.requests events) : request.stamp ≠ old.stamp := by
  induction events generalizing s with
  | nil => simp [requests] at h
  | cons event rest ih =>
    rcases List.mem_append.mp h with hnow | hlater
    · exact stamp_ne_of_request? hs hold (by simpa using hnow)
    · refine ih (hs.apply event) ?_ hlater
      rcases hold with hawaited | houtlived
      · by_cases hempties : event.Empties s old.stamp.id
        · exact .inr (hawaited.outlived hs (s.effect event) hempties)
        · exact .inl (hawaited.effect (s.effect event) hempties)
      · exact .inr (houtlived.effect hs (s.effect event))

/-- No two requests of a run have the same stamp. -/
theorem nodup_stamps {s : Sheet} (hs : s.Distinct) (events : List Event) :
    ((s.requests events).map Request.stamp).Nodup := by
  induction events generalizing s with
  | nil => simp [requests]
  | cons event rest ih =>
    have hrest := ih (hs.apply event)
    cases h : event.request? s with
    | none => simpa [requests, h] using hrest
    | some request =>
      have hnew : ∀ later ∈ (event.apply s).requests rest, later.stamp ≠ request.stamp :=
        fun later hlater => stamp_ne_of_mem_requests (hs.apply event)
          (.inl (awaited_of_request? h).1) hlater
      simpa [requests, h, hrest] using hnew

section Outcome

variable {s : Sheet} {request : Request}

theorem id_of_indexOf {id : Nat} {row : Row} (h : s.rows[s.indexOf id]? = some row) :
    row.id = id := by
  obtain ⟨hlt, rfl⟩ := List.getElem?_eq_some_iff.mp h
  exact beq_iff_eq.mp (List.findIdx_getElem (w := hlt))

theorem getElem?_indexOf (hs : s.Distinct) {row : Row} (hrow : row ∈ s.rows) :
    s.rows[s.indexOf row.id]? = some row := by
  have hlt : s.indexOf row.id < s.rows.length :=
    List.findIdx_lt_length_of_exists ⟨row, hrow, by simp⟩
  have hfound := List.getElem?_eq_getElem hlt
  rw [hfound, hs.eq_of_id (List.getElem_mem hlt) hrow (id_of_indexOf hfound)]

theorem deliver_error_of_awaited (hs : s.Distinct) (hr : s.Awaited request)
    (failure : FetchFailure) :
    s.deliver (request.answer (.error failure)) = (s, .failed failure) := by
  obtain ⟨row, hrow, hstamp, -, -⟩ := hr
  simp [deliver, Request.answer, ← hstamp, Row.stamp, getElem?_indexOf hs hrow]

theorem deliver_ok_of_awaited (hs : s.Distinct) (hr : s.Awaited request)
    (choices : List Choice) :
    ∃ later, s.deliver (request.answer (.ok choices)) = (later, .applied) ∧
      s.DifferInPicklist later request.stamp.id request.field := by
  obtain ⟨row, hrow, hstamp, hfield, hlist⟩ := hr
  have hfound := getElem?_indexOf hs hrow
  obtain ⟨list, hcontent⟩ : ∃ list, row.content = .picklist list := by
    cases h : row.content <;> simp_all [Content.isPicklist]
  obtain ⟨filled, hfilled⟩ := Row.receive_of_picklist choices hcontent
  have hid : row.id = request.stamp.id := congrArg Stamp.id hstamp
  have honly : ∀ other ∈ s.rows, other.id = request.stamp.id → other = row :=
    fun other hother hother' => hs.eq_of_id hother hrow (hother'.trans hid.symm)
  refine ⟨{ s with rows := s.rows.set (s.indexOf row.id) (row.receive choices) }, ?_,
    s.indexOf row.id, row, list, filled, hfound, hid, honly, hfield, hcontent, by rw [hfilled]⟩
  simp [deliver, Request.answer, ← hstamp, Row.stamp, hfound, hlist]

theorem deliver_of_outlived (hr : s.Outlived request)
    (result : Except FetchFailure (List Choice)) :
    s.deliver (request.answer result) = (s, .stale) := by
  simp only [deliver, Request.answer]
  cases hfound : s.rows[s.indexOf request.stamp.id]? with
  | none => rfl
  | some row =>
    have hlater := hr.2 row (List.mem_of_getElem? hfound) (id_of_indexOf hfound)
    exact if_pos (Nat.ne_of_gt hlater)

end Outcome

/-- Along every run from a new sheet, whatever the edits, schemas and deliveries,
requests have distinct stamps, and an answer is stale exactly if the row of its
request was removed or emptied since. Otherwise a failure is reported and values
go to that row's picklist and nowhere else. -/
theorem delivery_of_run :
    (∀ events, ((new.requests events).map Request.stamp).Nodup) ∧
    ∀ (before since : List Event) (event : Event) (request : Request)
      (result : Except FetchFailure (List Choice)),
      event.request? (new.after before) = some request →
      let s := new.after (before ++ event :: since)
      let emptied := (new.after (before ++ [event])).EmptiedDuring request.stamp.id since
      let outcome := (s.deliver (request.answer result)).2
      let later := (s.deliver (request.answer result)).1
      (outcome = .stale ↔ emptied) ∧
      (∀ failure, outcome = .failed failure ↔ ¬ emptied ∧ result = .error failure) ∧
      (outcome = .applied ↔ ¬ emptied ∧ ∃ choices, result = .ok choices) ∧
      (outcome = .applied → s.DifferInPicklist later request.stamp.id request.field) ∧
      (outcome ≠ .applied → later = s) := by
  refine ⟨fun events => nodup_stamps distinct_new events, ?_⟩
  intro before since event request result hrequest
  have hdistinct : (event.apply (new.after before)).Distinct :=
    (distinct_new.after before).apply event
  have hawaited := (awaited_of_request? hrequest).1
  simp only [after_append, after_cons, after_nil]
  by_cases hempties :
    (event.apply (new.after before)).EmptiedDuring request.stamp.id since
  · have houtlived := hawaited.outlived_after hdistinct hempties
    rw [deliver_of_outlived houtlived]
    simp [hempties]
  · have hstill := hawaited.after hempties
    cases result with
    | error failure =>
      rw [deliver_error_of_awaited (hdistinct.after since) hstill]
      simp [hempties, eq_comm]
    | ok choices =>
      obtain ⟨later, hdeliver, hdiffer⟩ :=
        deliver_ok_of_awaited (hdistinct.after since) hstill choices
      rw [hdeliver]
      simp [hempties, hdiffer]

/-- The second row asks for values. They arrive after the first row has been removed,
and again after the second row, now the only one, has been removed, which empties it. -/
theorem delivery_before_and_after_emptying :
    let schema : Schema := ⟨"Account", [⟨"Type", "Type", "Picklist", []⟩]⟩
    let point := Event.edit schema (.pointAt 1 "Type")
    let removal := Event.edit schema (.remove 0)
    let request : Request := ⟨⟨1, 1⟩, "Account", "Type"⟩
    let answer := request.answer (.ok [⟨"Customer", "customer"⟩])
    point.request? (new.after [.edit schema .add]) = some request ∧
      ((new.after [.edit schema .add, point, removal]).deliver answer).2 = .applied ∧
      ((new.after [.edit schema .add, point, removal, .deliver answer, removal]).deliver
        answer).2 = .stale := by
  intro schema point removal request answer
  have hrequest : point.request? (new.after [.edit schema .add]) = some request := by
    decide +kernel
  refine ⟨hrequest, ?_, ?_⟩
  · exact (delivery_of_run.2 [.edit schema .add] [removal] point request _
      hrequest).2.2.1.mpr ⟨by decide +kernel, _, rfl⟩
  · exact (delivery_of_run.2 [.edit schema .add] [removal, .deliver answer, removal] point
      request _ hrequest).1.mpr (by decide +kernel)

end Sheet
end QueryFilter
