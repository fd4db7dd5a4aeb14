import QueryFilter.Proofs.Session.Restore
import QueryFilter.Proofs.Sheet.Arrival

/-!
# Sessions whose answers arrive in any order

Restoring a session does not depend on the answers, the requests of a session have
distinct stamps, and receiving answers changes the sheet of the editor alone. So the
order in which the answers arrive makes no difference to what is compiled.
-/

namespace QueryFilter
namespace Session

theorem result_receive (e : Editor) (answers : List Delivery) :
    (receive e answers).result = .ok { e with sheet := (e.sheet.deliverEach answers).1 } := by
  induction answers generalizing e with
  | nil => rfl
  | cons first rest ih =>
    simp only [receive, Report.result_bind, Report.result_say, Except.bind, ih]
    rfl

variable (s : Session)

/-- The answers to the requests of a session, in the order of its rows. -/
def answers : List Delivery :=
  s.requests.map s.values.answer

theorem nodup_stamp_answers : (s.answers.map Delivery.stamp).Nodup := by
  have hstamps : s.answers.map Delivery.stamp = s.requests.map Request.stamp := by
    simp only [answers, List.map_map]
    rfl
  rw [hstamps]
  exact s.nodup_stamp_requests

/-- The sheet of a session once answers have arrived. -/
def sheetAfter (arrived : List Delivery) : Sheet :=
  ((Sheet.holding s.restoredRows).deliverEach arrived).1

theorem result_compileArriving (arrange : List Delivery → List Delivery) :
    (s.compileArriving arrange).result =
      if s.rows.all (SavedRow.fits s.schema) then
        (s.conclude { Editor.new s.schema with sheet := s.sheetAfter (arrange s.answers) }).result
      else .error .input := by
  simp only [compileArriving, Report.result_bind, result_restore, result_receive]
  by_cases hfits : s.rows.all (SavedRow.fits s.schema) = true
  · simp only [hfits, if_true, Except.bind]
    rfl
  · simp [hfits, Except.bind]

/-- Whatever a sheet has been through, answers with distinct stamps leave it the same
in whichever order and however often they arrive, and each of them comes out as if it
were the first. So a session compiles to the same whenever its answers arrive. -/
theorem compile_of_arrivals :
    (∀ (events : List Event) (answers first second : List Delivery),
      (answers.map Delivery.stamp).Nodup →
      (∀ d, d ∈ first ↔ d ∈ answers) → (∀ d, d ∈ second ↔ d ∈ answers) →
      let s := Sheet.new.after events
      (s.deliverEach first).1 = (s.deliverEach second).1 ∧
      (s.deliverEach first).2 = first.map (fun d => (s.deliver d).2) ∧
      (s.deliverEach second).2 = second.map (fun d => (s.deliver d).2)) ∧
    ∀ (s : Session) (arrange other : List Delivery → List Delivery),
      (∀ ds d, d ∈ arrange ds ↔ d ∈ ds) → (∀ ds d, d ∈ other ds ↔ d ∈ ds) →
      (s.compileArriving arrange).result = (s.compileArriving other).result := by
  constructor
  · intro events answers first second hstamps hfirst hsecond s
    have hs : s.Distinct := Sheet.distinct_new.after events
    exact ⟨Sheet.deliverEach_congr hstamps hs hfirst hsecond, Sheet.deliverEach_snd hs first,
      Sheet.deliverEach_snd hs second⟩
  · intro s arrange other harrange hother
    have hsheet : s.sheetAfter (arrange s.answers) = s.sheetAfter (other s.answers) :=
      Sheet.deliverEach_congr s.nodup_stamp_answers s.distinct_restored (harrange s.answers)
        (hother s.answers)
    rw [result_compileArriving, result_compileArriving, hsheet]

/-- Two rows wait for values. One answer arrives twice and the other is a failure; and
the answers of a session arrive in its order or the other way round. -/
theorem compile_of_arrivals_reversed :
    let fields : List Field := [⟨"Type", "Type", "Picklist", []⟩, ⟨"Kind", "Kind", "Picklist", []⟩]
    let point (index : Nat) (field : String) : Event :=
      .edit ⟨"Account", fields⟩ (.pointAt index field)
    let s := Sheet.new.after [point 0 "Type", .edit ⟨"Account", fields⟩ .add, point 1 "Kind"]
    let values : Delivery := ⟨⟨0, 1⟩, .ok [⟨"Customer", "customer"⟩]⟩
    let failure : Delivery := ⟨⟨1, 1⟩, .error ⟨"offline"⟩⟩
    let table : ValueTable := .ofEntries [("Type", [⟨"Customer", "customer"⟩])]
    let row (field value : String) : SavedRow := ⟨field, some .equal, value, [], .and, none⟩
    let session : Session := ⟨"Account", fields, table, [row "Type" "a, b", row "Kind" "c"],
      .throughout .or, "", ["Type"], none, none, .empty⟩
    ((s.deliverEach [values, failure, values]).1 = (s.deliverEach [failure, values]).1 ∧
      (s.deliverEach [values, failure, values]).2 = [.applied, .failed ⟨"offline"⟩, .applied]) ∧
    session.compile.result =
        .ok ⟨⟨" Type IN ('a', 'b') OR Kind = ''", true⟩,
          "SELECT Id, Name, Type FROM Account WHERE Type IN ('a', 'b') OR Kind = '' LIMIT 5000"⟩ ∧
      (session.compileArriving List.reverse).result = session.compile.result := by
  intro fields point s values failure table row session
  have h := compile_of_arrivals.1
    [point 0 "Type", .edit ⟨"Account", fields⟩ .add, point 1 "Kind"] [values, failure]
    [values, failure, values] [failure, values] (by decide +kernel)
    (by intro d; simp only [List.mem_cons]; tauto) (by intro d; simp only [List.mem_cons]; tauto)
  refine ⟨⟨h.1, ?_⟩, by decide +kernel, ?_⟩
  · rw [h.2.1]
    decide +kernel
  · exact compile_of_arrivals.2 session List.reverse id (fun _ _ => List.mem_reverse)
      fun _ _ => Iff.rfl

end Session
end QueryFilter
