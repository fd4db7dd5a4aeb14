import QueryFilter.Editor.Basic

/-!
# Actions on an editor

Everything that can happen to an editor, as one type, with the response that
each action gets.
-/

namespace QueryFilter

inductive Action
  | edit (change : Edit)
  | deliver (delivery : Delivery)
  | setSchema (schema : Schema)
  | setMode (mode : JoinMode)
  | setFormula (text : String)
  | validate
  | produce
  | blame
  | queryFailed (message : String)

inductive Response
  | done
  | requested (request : Request)
  | refused (error : EditError)
  | delivered (outcome : Outcome)
  | judged (verdict : Verdict)
  | produced (result : Except Formula.Error Clause)
  | blamed (error : Option Formula.Error)

/-- The response to an edit. -/
def Response.ofEdit : EditResult → Response
  | .error refusal => .refused refusal
  | .ok none => .done
  | .ok (some request) => .requested request

namespace Editor

def perform (e : Editor) : Action → Editor × Response
  | .edit change =>
    let (changed, result) := e.edit change
    (changed, .ofEdit result)
  | .deliver delivery =>
    let (changed, outcome) := e.deliver delivery
    (changed, .delivered outcome)
  | .setSchema schema => (e.setSchema schema, .done)
  | .setMode mode => (e.setMode mode, .done)
  | .setFormula text => (e.setFormula text, .done)
  | .validate => (e.validate, .judged e.validate.verdict)
  | .produce =>
    let (changed, result) := e.produce
    (changed, .produced result)
  | .blame =>
    let (changed, error) := e.blame
    (changed, .blamed error)
  | .queryFailed message =>
    let (changed, error) := e.queryFailed message
    (changed, .blamed error)

end Editor
end QueryFilter
