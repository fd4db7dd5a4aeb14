import QueryFilter.Command.Arguments
import QueryFilter.Json.Printer
import QueryFilter.Session.Compile
import QueryFilter.Session.Format

/-!
# Running commands

What each command prints and says. Results go to the standard output, as text or
as JSON; notices go to the standard error output, and a failure shows in the exit
code.
-/

namespace QueryFilter

/-- What a run of the program leaves behind. -/
structure Output where
  printed : String
  notices : List Notice
  exitCode : UInt32
  deriving DecidableEq, Repr

namespace Output

/-- The text of the standard error output. -/
def said (output : Output) : String :=
  String.join (output.notices.map fun notice => notice.line ++ "\n")

/-- The output of a report on what is to be printed. -/
def ofReport (r : Report String) : Output :=
  match r.result with
  | .ok printed => ⟨printed, r.notices, 0⟩
  | .error _ => ⟨"", r.notices, 1⟩

end Output

namespace Command

/-! ### Forms of results -/

def printLine (text : String) : String := text ++ "\n"

def printJson (value : Json) : String := printLine value.print

/-- Two columns. The left one is padded to as many characters as the longest
entry in it has bytes. -/
def printTable (rows : List (String × String)) : String :=
  let width := (rows.map fun row => row.1.utf8ByteSize).foldl max 0
  String.join (rows.map fun row =>
    printLine (row.1 ++ String.ofList (List.replicate (width - row.1.length) ' ') ++ "  " ++ row.2))

/-! ### Sessions in files -/

/-- The path of the session that a command works on. -/
def sessionPath? : Command → Option String
  | build path | fields path => some path
  | _ => none

/-- The session in a file, or why the file could not be read. -/
def sessionIn (path : String) (contents : Except String String) : Report Session := do
  let text ← Report.ofExcept .file
    (fun reason => [.problem ("Failed to read session file " ++ path), .detail reason]) contents
  match Session.read? text with
  | some session => return session
  | none => Report.fail .session [.problem "Failed to parse session", .detail "not a session"]

/-! ### Commands -/

def clauseJson (clause : Clause) : Json :=
  .object [("body", .string clause.body), ("has_conditions", .bool clause.isConditional)]

def compiledJson (compiled : Compiled) : Json :=
  .object [("where_clause", clauseJson compiled.clause), ("soql", .string compiled.text)]

def runBuild (path : String) (format : ResultFormat) (contents : Except String String) :
    Report String := do
  Report.say [.heading "Building query"]
  let session ← sessionIn path contents
  let compiled ← session.compile
  Report.say [
    if compiled.clause.isConditional then
      .success ("Compiled " ++ toString session.rows.length ++ " filter rows")
    else .info "No complete filter rows; the query is unconditional"]
  return match format with
    | .pretty => printLine compiled.text
    | .json => printJson (compiledJson compiled)

/-- The verdict on a formula as JSON: its text, and what is said of a bad one. -/
def verdictJson (isValid : Bool) (text : String) (summary : Option String) : Json :=
  .object ([("valid", .bool isValid), ("expression", .string text)] ++
    summary.toList.map fun summary => ("message", .string summary))

/-- A bad formula fails the command, but its verdict is printed all the same. -/
def runValidate (text : String) (rowCount : Nat) (format : ResultFormat) : Output :=
  let heading := Notice.heading ("Validating custom logic for " ++ toString rowCount ++ " rows")
  match Formula.check text rowCount with
  | .ok f =>
    let printed := match format with
      | .pretty => printLine f.text
      | .json => printJson (verdictJson true f.text none)
    ⟨printed, [heading, .success "Custom logic is valid"], 0⟩
  | .error error =>
    let printed := match format with
      | .pretty => ""
      | .json => printJson (verdictJson false text (some error.summary))
    ⟨printed, [heading, .problem error.summary, .detail error.message], 1⟩

def operatorsJson (type : FieldType) : Json :=
  .object [
    ("data_type", type.toJson),
    ("input", type.widget.toJson),
    ("quoted", .bool type.isQuoted),
    ("operators", .array (type.comparisons.map fun comparison =>
      .object [("token", .string comparison.token), ("label", .string comparison.label)]))]

def runOperators (typeName : String) (format : ResultFormat) : Report String := do
  Report.say [.heading ("Listing operators for " ++ typeName)]
  let known := "Known data types: " ++ ", ".intercalate (FieldType.all.map FieldType.name)
  let type ← Report.ofExcept .input
    (fun error : UnknownName => [.problem error.message, .info known]) (FieldType.ofName typeName)
  Report.say [.success (type.name ++ " offers " ++ toString type.comparisons.length ++
    " operators (" ++ type.widget.name ++ " input)")]
  return match format with
    | .pretty => printTable (type.comparisons.map fun c => (c.token, c.label))
    | .json => printJson (operatorsJson type)

def runFields (path : String) (format : ResultFormat) (contents : Except String String) :
    Report String := do
  Report.say [.heading "Listing filterable fields"]
  let session ← sessionIn path contents
  let fields := session.schema.filterFields
  let skipped := session.fields.length - fields.length
  Report.say [.success ("Found " ++ toString fields.length ++ " filterable fields on " ++
    session.objectType)]
  Report.say <|
    if skipped = 0 then [] else [.info (toString skipped ++ " fields have unsupported data types")]
  return match format with
    | .pretty => printTable (fields.map fun f => (f.label, f.apiName ++ " (" ++ f.typeName ++ ")"))
    | .json => printJson (.array (fields.map Field.toJson))

/-- Runs a command, given the contents of the session file that it names. -/
def run (command : Command) (format : ResultFormat) (contents : Except String String) : Output :=
  match command with
  | build path => .ofReport (runBuild path format contents)
  | validate text rowCount => runValidate text rowCount format
  | operators typeName => .ofReport (runOperators typeName format)
  | fields path => .ofReport (runFields path format contents)

end Command

namespace Invocation

/-- The path of the file that a call needs. -/
def sessionPath? : Invocation → Option String
  | run command _ => command.sessionPath?
  | _ => none

def versionLine : String := "soql-filter 0.3.0\n"

def helpText : String :=
  "Usage: soql-filter [-v] [-f pretty|json] COMMAND\n\n" ++
  "  build SESSION               compile the rows of a session into a query\n" ++
  "  validate FORMULA -r ROWS    check a formula against a number of rows\n" ++
  "  operators TYPE              list the operators for a data type\n" ++
  "  fields SESSION              list the filterable fields of a session\n"

/-- Carries out a call, given the contents of the file that it needs. -/
def execute (call : Invocation) (contents : Except String String) : Output :=
  match call with
  | run command format => command.run format contents
  | version => ⟨versionLine, [], 0⟩
  | help => ⟨helpText, [], 0⟩
  | misuse => ⟨"", [.problem "The arguments make no call; --help shows how to call the program"], 2⟩

end Invocation
end QueryFilter
