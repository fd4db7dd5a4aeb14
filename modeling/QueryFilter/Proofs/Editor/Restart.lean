import QueryFilter.Proofs.Editor.Run
import QueryFilter.Proofs.Sheet.Raised

/-!
# Starting over

An editor that starts over, on its own schema or on another, goes on as a new editor
does. The ids it gives out are those of the new editor, all raised by the same number,
and every id given out before lies below that number. So whatever is done to the two
alike, they stay alike, and an answer to a request of before finds no row.
-/

namespace QueryFilter

/-- The request that an action gave rise to. -/
def Response.request? : Response → Option Request
  | .requested request => some request
  | _ => none

def Response.raise (k : Nat) : Response → Response
  | .requested request => .requested (request.raise k)
  | response => response

theorem Response.request?_raise (k : Nat) (response : Response) :
    (response.raise k).request? = response.request?.map (Request.raise k) := by
  cases response <;> rfl

def Action.isDelivery : Action → Bool
  | .deliver _ => true
  | _ => false

namespace Editor

/-! ### Editors under other ids -/

def raise (k : Nat) (e : Editor) : Editor :=
  { e with sheet := e.sheet.raise k }

section

variable (k : Nat) (e : Editor)

theorem reset_raise : (e.raise k).reset = e.reset.raise k := by
  simp only [reset, raise, Sheet.reset_raise]

theorem setSchema_raise (schema : Schema) :
    (e.raise k).setSchema schema = (e.setSchema schema).raise k :=
  reset_raise k { e with schema }

theorem check_raise : (e.raise k).check = e.check := by
  simp only [check, raise, Sheet.size_raise]

theorem edit_raise (change : Edit) :
    (e.raise k).edit change =
      ((e.edit change).1.raise k, EditResult.raise k (e.edit change).2) := by
  cases change with
  | reset =>
    rw [edit, reset_raise]
    rfl
  | _ =>
    simp only [edit, raise, Sheet.edit_raise]
    cases (e.sheet.edit e.schema _).2 <;> rfl

theorem deliver_raise (delivery : Delivery) :
    (e.raise k).deliver (delivery.raise k) =
      ((e.deliver delivery).1.raise k, (e.deliver delivery).2) := by
  simp only [deliver, raise, Sheet.deliver_raise]

theorem validate_raise : (e.raise k).validate = e.validate.raise k := by
  simp only [validate, check_raise]
  cases e.check <;> rfl

theorem produce_raise :
    (e.raise k).produce = (e.produce.1.raise k, e.produce.2) := by
  have hmode : (e.raise k).mode = e.mode := rfl
  unfold produce
  rw [hmode]
  cases e.mode with
  | throughout connective => simp only [raise, Sheet.clause_raise]
  | byRow => simp only [raise, Sheet.clause_raise]
  | byFormula =>
    have hclause : (fun f => (e.raise k).sheet.clause (.byFormula f)) =
        fun f => e.sheet.clause (.byFormula f) :=
      funext fun f => e.sheet.clause_raise k (.byFormula f)
    have hcomplete : (e.raise k).sheet.complete.isEmpty = e.sheet.complete.isEmpty := by
      simp [raise, Sheet.complete_raise]
    simp only [produceByFormula, hcomplete, check_raise, hclause]
    split_ifs
    · rfl
    · cases e.check.bind fun f => e.sheet.clause (.byFormula f) <;> rfl

theorem blame_raise : (e.raise k).blame = (e.blame.1.raise k, e.blame.2) := by
  simp only [blame, check_raise]
  change (if e.mode = .byFormula then _ else _) = _
  split_ifs <;> rfl

theorem queryFailed_raise (message : String) :
    (e.raise k).queryFailed message =
      ((e.queryFailed message).1.raise k, (e.queryFailed message).2) := by
  unfold queryFailed
  split_ifs
  · exact e.blame_raise k
  · rfl

/-- An editor whose ids are raised takes every action, apart from the delivery of an
answer, as the editor itself does. -/
theorem perform_raise {action : Action} (h : action.isDelivery = false) :
    (e.raise k).perform action =
      ((e.perform action).1.raise k, (e.perform action).2.raise k) := by
  cases action with
  | deliver delivery => cases h
  | edit change =>
    simp only [perform, edit_raise]
    cases (e.edit change).2 with
    | error refusal => rfl
    | ok request => cases request <;> rfl
  | setSchema schema =>
    simp only [perform, setSchema_raise]
    rfl
  | setMode mode =>
    simp only [perform, setMode]
    change (if e.mode = mode then _ else _, _) = _
    split_ifs <;> rfl
  | setFormula text => rfl
  | validate =>
    simp only [perform, validate_raise]
    rfl
  | produce =>
    simp only [perform, produce_raise]
    rfl
  | blame =>
    simp only [perform, blame_raise]
    rfl
  | queryFailed message =>
    simp only [perform, queryFailed_raise]
    rfl

theorem perform_deliver_raise (delivery : Delivery) :
    (e.raise k).perform (.deliver (delivery.raise k)) =
      ((e.perform (.deliver delivery)).1.raise k,
        (e.perform (.deliver delivery)).2.raise k) := by
  simp only [perform, deliver_raise]
  rfl

theorem perform_deliver_of_id_lt {delivery : Delivery} (h : delivery.stamp.id < k) :
    (e.raise k).perform (.deliver delivery) = (e.raise k, .delivered .stale) := by
  simp only [perform, deliver, raise, e.sheet.deliver_of_id_lt k h]

end

/-! ### What was asked for before -/

/-- The requests that some actions give rise to, in order. -/
def requests (e : Editor) : List Action → List Request
  | [] => []
  | action :: rest =>
    (e.perform action).2.request?.toList ++ requests (e.perform action).1 rest

/-- A request of an editor is made by an event of its sheet. -/
theorem request?_perform {e : Editor} {action : Action} {request : Request}
    (h : (e.perform action).2.request? = some request) :
    ∃ event : Event, event.request? e.sheet = some request := by
  cases action with
  | edit change =>
    refine ⟨.edit e.schema change, ?_⟩
    by_cases hreset : change = .reset
    · subst hreset
      cases h
    · simp only [perform, edit_snd hreset] at h
      cases hedit : (e.sheet.edit e.schema change).2 with
      | error refusal =>
        rw [hedit] at h
        cases h
      | ok asked =>
        rw [hedit] at h
        cases asked with
        | none => cases h
        | some asked => simpa [Event.request?, hedit, Response.ofEdit, Response.request?] using h
  | _ => cases h

theorem distinct_perform {e : Editor} (he : e.sheet.Distinct) (action : Action) :
    (e.perform action).1.sheet.Distinct := by
  rw [sheet_perform]
  exact he.after _

theorem nextId_le_perform (e : Editor) (action : Action) :
    e.sheet.nextId ≤ (e.perform action).1.sheet.nextId := by
  rw [sheet_perform]
  exact e.sheet.nextId_le_after _

theorem nextId_le_after (e : Editor) (actions : List Action) :
    e.sheet.nextId ≤ (e.after actions).sheet.nextId :=
  after_induction (P := fun later => e.sheet.nextId ≤ later.sheet.nextId)
    (fun later action h => Nat.le_trans h (later.nextId_le_perform action)) (Nat.le_refl _) actions

/-- Every request is for an id that has been given out. -/
theorem id_lt_of_mem_requests {e : Editor} (he : e.sheet.Distinct) {actions : List Action}
    {request : Request} (h : request ∈ e.requests actions) :
    request.stamp.id < (e.after actions).sheet.nextId := by
  induction actions generalizing e with
  | nil => cases h
  | cons action rest ih =>
    rcases List.mem_append.mp h with hnow | hlater
    · obtain ⟨event, hevent⟩ := request?_perform (by simpa using hnow)
      obtain ⟨-, row, hrow, hstamp⟩ := Sheet.awaited_of_request? hevent
      have hgiven : request.stamp.id < e.sheet.nextId := by
        rw [hstamp]
        exact he.below row hrow
      exact Nat.lt_of_lt_of_le hgiven (e.nextId_le_after (action :: rest))
    · exact ih (distinct_perform he action) hlater

/-- An editor that turns to a schema is the new editor for it, under new ids. -/
theorem setSchema_eq_raise (e : Editor) (schema : Schema) :
    e.setSchema schema = (new schema).raise e.sheet.nextId := by
  simp [setSchema, reset, new, raise, Sheet.reset, Sheet.new, Sheet.raise, Row.raise, Row.blank,
    Nat.add_comm]

end Editor

/-! ### What is done since -/

/-- An editor that has started over, and the requests it has made since. -/
structure Course where
  editor : Editor
  requests : List Request

/-- What can be done to an editor that has started over: any action on it, the answer
to a request that it has made since, by its place among them, and an answer that is
late, to a request of before. -/
inductive Move
  | act (action : Action) (own : action.isDelivery = false)
  | answer (place : Nat) (result : Except FetchFailure (List Choice))
  | late (request : Request) (result : Except FetchFailure (List Choice))

def Move.isLate : Move → Bool
  | late _ _ => true
  | _ => false

namespace Course

def start (e : Editor) : Course := ⟨e, []⟩

def perform (c : Course) (action : Action) : Course × Response :=
  let (editor, response) := c.editor.perform action
  (⟨editor, c.requests ++ response.request?.toList⟩, response)

/-- The course after a move and the response to it, if there is something to respond to. -/
def play (c : Course) : Move → Course × Option Response
  | .act action _ => (c.perform action).map id some
  | .answer place result =>
    match c.requests[place]? with
    | none => (c, none)
    | some request => (c.perform (.deliver (request.answer result))).map id some
  | .late request result => (c.perform (.deliver (request.answer result))).map id some

/-- The course after some moves. -/
def after (c : Course) (moves : List Move) : Course :=
  moves.foldl (fun c move => (c.play move).1) c

@[simp] theorem after_nil (c : Course) : c.after [] = c := rfl

@[simp] theorem after_cons (c : Course) (move : Move) (rest : List Move) :
    c.after (move :: rest) = (c.play move).1.after rest := rfl

def raise (k : Nat) (c : Course) : Course :=
  ⟨c.editor.raise k, c.requests.map (Request.raise k)⟩

variable (k : Nat) (c : Course)

theorem perform_raise {action raised : Action}
    (h : (c.editor.raise k).perform raised =
      ((c.editor.perform action).1.raise k, (c.editor.perform action).2.raise k)) :
    (c.raise k).perform raised =
      ((c.perform action).1.raise k, (c.perform action).2.raise k) := by
  simp only [perform, raise, h, Response.request?_raise, List.map_append]
  cases (c.editor.perform action).2.request? <;> rfl

/-- What one move keeps: courses that differ in their ids take it alike. -/
theorem play_raise {move : Move} (h : move.isLate = false) :
    (c.raise k).play move =
      ((c.play move).1.raise k, (c.play move).2.map (Response.raise k)) := by
  cases move with
  | late request result => cases h
  | act action own =>
    rw [play, c.perform_raise k (c.editor.perform_raise k own)]
    rfl
  | answer place result =>
    simp only [play, raise, List.getElem?_map]
    cases c.requests[place]? with
    | none => rfl
    | some request =>
      have hdeliver := c.editor.perform_deliver_raise k (request.answer result)
      rw [← request.answer_raise] at hdeliver
      exact congrArg (Prod.map id some) (c.perform_raise k hdeliver)

/-- A late answer is for an id that no row has. -/
theorem play_late {request : Request} (h : request.stamp.id < k)
    (result : Except FetchFailure (List Choice)) :
    (c.raise k).play (.late request result) = (c.raise k, some (.delivered .stale)) := by
  have hid : (request.answer result).stamp.id < k := h
  have hdeliver := c.editor.perform_deliver_of_id_lt k hid
  simp only [play, perform, raise, hdeliver]
  simp [Response.request?]

/-- Late answers left aside, courses that differ in their ids take the same moves alike. -/
theorem after_raise {moves : List Move}
    (h : ∀ request result, .late request result ∈ moves → request.stamp.id < k) :
    (c.raise k).after moves = (c.after (moves.filter fun move => !move.isLate)).raise k := by
  induction moves generalizing c with
  | nil => rfl
  | cons move rest ih =>
    have hrest : ∀ request result, .late request result ∈ rest → request.stamp.id < k :=
      fun request result hmem => h request result (List.mem_cons_of_mem _ hmem)
    cases hlate : move.isLate with
    | false =>
      rw [after_cons, c.play_raise k hlate, List.filter_cons_of_pos (by simp [hlate]), after_cons]
      exact ih _ hrest
    | true =>
      cases move with
      | late request result =>
        rw [after_cons, c.play_late k (h request result List.mem_cons_self), ih c hrest]
        rfl
      | act | answer => cases hlate

/-- A course goes on as another does, with its ids raised, and answers to the requests
of before are stale. -/
structure Follows (course model : Course) (k : Nat) (before : List Request) : Prop where
  state : course = model.raise k
  own : ∀ move : Move, move.isLate = false →
    course.play move = ((model.play move).1.raise k, (model.play move).2.map (Response.raise k))
  late : ∀ request ∈ before, ∀ result,
    course.play (.late request result) = (course, some (.delivered .stale))

end Course

namespace Editor

theorem follows_setSchema {e : Editor} {before : List Request}
    (hbefore : ∀ request ∈ before, request.stamp.id < e.sheet.nextId) (schema : Schema)
    {moves : List Move}
    (hlate : ∀ request result, .late request result ∈ moves → request ∈ before) :
    ((Course.start (e.setSchema schema)).after moves).Follows
      ((Course.start (new schema)).after (moves.filter fun move => !move.isLate))
      e.sheet.nextId before := by
  have hstart : Course.start (e.setSchema schema) =
      (Course.start (new schema)).raise e.sheet.nextId :=
    congrArg Course.start (e.setSchema_eq_raise schema)
  have hstate := (Course.start (new schema)).after_raise e.sheet.nextId
    fun request result hmem => hbefore request (hlate request result hmem)
  rw [hstart]
  refine ⟨hstate, ?_, ?_⟩
  · intro move hmove
    rw [hstate]
    exact Course.play_raise _ _ hmove
  · intro request hrequest result
    rw [hstate]
    exact Course.play_late _ _ (hbefore request hrequest) result

/-- Whatever has been done to an editor, once it is reset or turns to another schema it
follows the new editor for its schema: after any moves its state is that of the new
editor after the same moves without the late answers, with all ids raised by the same
number, and so is its response to each further move; each late answer is stale and
changes nothing. -/
theorem restart_of_run (schema : Schema) (actions : List Action) (moves : List Move)
    (hlate : ∀ request result, .late request result ∈ moves →
      request ∈ (new schema).requests actions) :
    let e := (new schema).after actions
    let before := (new schema).requests actions
    let prompt := moves.filter fun move => !move.isLate
    ((Course.start e.reset).after moves).Follows ((Course.start (new e.schema)).after prompt)
        e.sheet.nextId before ∧
      ∀ other, ((Course.start (e.setSchema other)).after moves).Follows
        ((Course.start (new other)).after prompt) e.sheet.nextId before := by
  intro e before prompt
  have hbefore : ∀ request ∈ before, request.stamp.id < e.sheet.nextId :=
    fun request hrequest => id_lt_of_mem_requests Sheet.distinct_new hrequest
  -- a reset is a turn to the editor's own schema
  exact ⟨follows_setSchema hbefore e.schema hlate,
    fun other => follows_setSchema hbefore other hlate⟩

/-- A picklist asks for its values, the editor is reset, and a new row asks for them
under the next id. The late answer changes nothing, and the answer to the new request
goes to the new row. -/
theorem restart_of_run_two_requests :
    let schema : Schema := ⟨"Account", [⟨"Type", "Type", "Picklist", []⟩]⟩
    let asked : Request := ⟨⟨0, 1⟩, "Account", "Type"⟩
    let values : Except FetchFailure (List Choice) := .ok [⟨"Customer", "customer"⟩]
    let before : List Action := [.edit (.pointAt 0 "Type")]
    let moves : List Move := [.late asked values, .act (.edit (.pointAt 0 "Type")) rfl,
      .late asked values]
    let restarted := (Course.start ((new schema).after before).reset).after moves
    restarted.requests = [⟨⟨1, 1⟩, "Account", "Type"⟩] ∧
      restarted.play (.late asked values) = (restarted, some (.delivered .stale)) ∧
      (restarted.play (.answer 0 values)).1.editor.sheet.rows.map (·.content.choices) =
        [[⟨"Customer", "customer"⟩]] := by
  intro schema asked values before moves restarted
  have hasked : (new schema).requests before = [asked] := by decide +kernel
  have hlate : ∀ request result, .late request result ∈ moves →
      request ∈ (new schema).requests before := by
    intro request result hmem
    rw [hasked]
    simp only [moves, List.mem_cons, List.not_mem_nil, or_false, reduceCtorEq, false_or,
      Move.late.injEq] at hmem
    rcases hmem with ⟨rfl, -⟩ | ⟨rfl, -⟩ <;> exact List.mem_singleton_self asked
  obtain ⟨⟨hstate, hown, hstale⟩, -⟩ := restart_of_run schema before moves hlate
  refine ⟨?_, hstale asked (by simp [hasked]) values, ?_⟩
  · exact (congrArg Course.requests hstate).trans (by decide +kernel)
  · rw [hown (.answer 0 values) rfl]
    decide +kernel

end Editor
end QueryFilter
