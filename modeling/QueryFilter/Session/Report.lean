/-!
# Reports

What a piece of work has to say on the way, and whether it succeeded. Work stops
at the first failure and keeps what was said until then.
-/

namespace QueryFilter

/-- A line said to the user, by its weight. -/
inductive Notice
  | heading (text : String)
  | info (text : String)
  | success (text : String)
  | warning (text : String)
  | problem (text : String)
  /-- More about the problem before it. -/
  | detail (text : String)
  deriving DecidableEq, Repr

def Notice.line : Notice → String
  | heading text => text
  | info text => text
  | success text => "✓ " ++ text
  | warning text => "! " ++ text
  | problem text => "✗ " ++ text
  | detail text => "  " ++ text

/-- The part of the work that failed. -/
inductive Failure
  | input
  | file
  | session
  | build
  | validation
  deriving DecidableEq, Repr

def Failure.message : Failure → String
  | input => "Invalid input"
  | file => "File access failed"
  | session => "Invalid session"
  | build => "Failed to build query"
  | validation => "Validation failed"

structure Report (α : Type) where
  notices : List Notice
  result : Except Failure α

namespace Report

def pure (a : α) : Report α := ⟨[], .ok a⟩

def bind (r : Report α) (next : α → Report β) : Report β :=
  match r.result with
  | .error failure => ⟨r.notices, .error failure⟩
  | .ok a => ⟨r.notices ++ (next a).notices, (next a).result⟩

instance : Monad Report where
  pure := Report.pure
  bind := Report.bind

/-- Says some notices. -/
def say (notices : List Notice) : Report Unit := ⟨notices, .ok ()⟩

/-- Fails after saying why. -/
def fail (failure : Failure) (notices : List Notice) : Report α := ⟨notices, .error failure⟩

/-- A result whose error is said before the work fails. -/
def ofExcept (failure : Failure) (notices : ε → List Notice) : Except ε α → Report α
  | .ok a => ⟨[], .ok a⟩
  | .error e => ⟨notices e, .error failure⟩

@[simp] theorem result_pure (a : α) : (Pure.pure a : Report α).result = .ok a := rfl

@[simp] theorem result_bind (r : Report α) (next : α → Report β) :
    (r >>= next).result = r.result.bind fun a => (next a).result := by
  show (Report.bind r next).result = _
  unfold Report.bind
  cases r.result <;> rfl

@[simp] theorem result_say (notices : List Notice) : (say notices).result = .ok () := rfl

@[simp] theorem result_fail (failure : Failure) (notices : List Notice) :
    (fail failure notices : Report α).result = .error failure := rfl

@[simp] theorem result_ofExcept (failure : Failure) (notices : ε → List Notice)
    (x : Except ε α) : (ofExcept failure notices x).result = x.mapError fun _ => failure := by
  cases x <;> rfl

end Report
end QueryFilter
