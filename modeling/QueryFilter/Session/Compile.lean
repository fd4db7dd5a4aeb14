import QueryFilter.Session.Basic
import QueryFilter.Session.Report

/-!
# Compiling sessions

A session is compiled through an editor: its rows are restored one after another,
the values that they ask for are delivered, and the condition that the editor
gives goes into the query. The values may be delivered in any order.
-/

namespace QueryFilter

/-- The condition of a session and the text of its query. -/
structure Compiled where
  clause : Clause
  text : String
  deriving DecidableEq, Repr

namespace Session

/-! ### Restoring rows -/

/-- What is said of a saved row that an edit refuses. -/
def refusalNotices (index : Nat) (error : EditError) : List Notice :=
  [.problem ("Invalid filter row " ++ toString (index + 1)), .detail error.message]

/-- What is said of a saved row whose field is not known. -/
def unknownFieldNotices (index : Nat) (row : SavedRow) : List Notice :=
  [.warning ("Filter row " ++ toString (index + 1) ++ ": unknown field '" ++ row.field ++
    "', row left incomplete")]

/-- What is said of a saved row that takes its value from a part of the address
that the user does not have. -/
def missingPartNotices (address : UserAddress) (index : Nat) (row : SavedRow) : List Notice :=
  match row.source with
  | none => []
  | some part =>
    if (address.part? part).isSome then []
    else
      [.warning ("Filter row " ++ toString (index + 1) ++ ": no " ++ part.name ++
        " available, using the saved value")]

/-- Edits an editor on behalf of the saved row at an index. -/
def restoreBy (index : Nat) (e : Editor) (change : Edit) : Report (Editor × Option Request) := do
  let (edited, result) := e.edit change
  let request ← Report.ofExcept .input (refusalNotices index) result
  return (edited, request)

/-- Restores the comparison of a saved row, if it has one. -/
def restoreComparison (index : Nat) (row : SavedRow) (e : Editor) : Report Editor :=
  match row.comparison with
  | none => pure e
  | some comparison => do
    let (e, _) ← restoreBy index e (.compareBy index comparison)
    return e

/-- Restores the selection of a saved row, if it has one. -/
def restoreSelection (index : Nat) (row : SavedRow) (e : Editor) : Report Editor :=
  if row.selected.isEmpty then pure e
  else do
    let (e, _) ← restoreBy index e (.select index row.selected)
    return e

/-- Restores what a saved row says of a field that is known. -/
def restoreContent (address : UserAddress) (index : Nat) (row : SavedRow) (e : Editor) :
    Report Editor := do
  let e ← restoreComparison index row e
  Report.say (missingPartNotices address index row)
  let (e, _) ← restoreBy index e (.enter index (row.valueFor address))
  restoreSelection index row e

/-- Restores the saved row at an index, which is the next row of the editor, with
the request that it gives rise to. -/
def restoreRow (address : UserAddress) (index : Nat) (row : SavedRow) (e : Editor) :
    Report (Editor × Option Request) := do
  let (e, request) ← restoreBy index (if index = 0 then e else e.add) (.pointAt index row.field)
  let (e, _) ← restoreBy index e (.joinBy index row.joiner)
  if (e.sheet.rows[index]?.bind Row.type?).isSome then
    let e ← restoreContent address index row e
    return (e, request)
  else
    Report.say (unknownFieldNotices index row)
    return (e, request)

/-- Restores saved rows from an index on, with the requests that they give rise to. -/
def restoreFrom (address : UserAddress) (index : Nat) (e : Editor) :
    List SavedRow → Report (Editor × List Request)
  | [] => pure (e, [])
  | row :: rest => do
    let (e, request) ← restoreRow address index row e
    let (e, requests) ← restoreFrom address (index + 1) e rest
    return (e, request.toList ++ requests)

/-- The editor with the rows of a session, and the requests for values that are
still to be answered. -/
def restore (s : Session) : Report (Editor × List Request) :=
  restoreFrom s.address 0 (.new s.schema) s.rows

/-! ### Values -/

/-- What is said of a delivery. -/
def outcomeNotices : Outcome → List Notice
  | .failed failure => [.warning failure.message]
  | _ => []

/-- Delivers answers in the order in which they arrive. -/
def receive (e : Editor) : List Delivery → Report Editor
  | [] => pure e
  | delivery :: rest => do
    let (e, outcome) := e.deliver delivery
    Report.say (outcomeNotices outcome)
    receive e rest

/-! ### The query -/

/-- The condition and the query that an editor with the rows of a session gives. -/
def conclude (s : Session) (e : Editor) : Report Compiled := do
  let e := (e.setMode s.mode).setFormula s.formulaText
  let clause ← Report.ofExcept .validation
    (fun error => [.problem error.summary, .detail error.message]) e.produce.2
  let text ← Report.ofExcept .build (fun error => [.problem error.message]) (s.query clause).text
  return ⟨clause, text⟩

/-- Compiles a session whose answers arrive in the order that `arrange` gives. -/
def compileArriving (s : Session) (arrange : List Delivery → List Delivery) : Report Compiled := do
  let (e, requests) ← s.restore
  let e ← receive e (arrange (requests.map s.values.answer))
  s.conclude e

/-- Compiles a session whose answers arrive in the order of its rows. -/
def compile (s : Session) : Report Compiled :=
  s.compileArriving id

end Session
end QueryFilter
