import QueryFilter.Command.Run

/-!
# The command line program
-/

namespace QueryFilter

/-- The contents of a file, or why it could not be read. -/
def contentsOf (path : String) : IO (Except String String) :=
  try
    return .ok (← IO.FS.readFile path)
  catch e =>
    return .error (toString e)

/-- The contents of the file that a call needs, if it needs one. -/
def neededContents (call : Invocation) : IO (Except String String) :=
  match call.sessionPath? with
  | some path => contentsOf path
  | none => return .error "no file"

end QueryFilter

open QueryFilter in
def main (arguments : List String) : IO UInt32 := do
  let call := Invocation.ofArguments arguments
  let output := call.execute (← neededContents call)
  IO.print output.printed
  IO.eprint output.said
  return output.exitCode
