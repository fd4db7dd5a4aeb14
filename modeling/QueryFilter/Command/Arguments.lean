/-!
# Arguments of the command line

A call names a command and what the command works on, with options anywhere
before or after the command's name. Options have a long name and a letter;
letters may be run together, and the value of an option follows it, joined by an
equals sign or directly to the letter, or as the next argument. After a double
dash nothing is an option, and no command can be named. What follows a request for
help names the command to be explained, and is never an option. The first argument
that does not fit ends the reading, whatever comes after it.
-/

namespace QueryFilter

/-- How results are printed. -/
inductive ResultFormat
  | pretty
  | json
  deriving DecidableEq, Repr

/-- What the program is called to do. -/
inductive Command
  | build (path : String)
  | validate (text : String) (rowCount : Nat)
  | operators (typeName : String)
  | fields (path : String)
  deriving DecidableEq, Repr

/-- What a list of arguments asks for. -/
inductive Invocation
  | run (command : Command) (format : ResultFormat)
  | version
  | help
  /-- The arguments make no call. -/
  | misuse
  deriving DecidableEq, Repr

namespace Invocation

/-- The commands by name, before what they work on is known, and the request to
explain one of them. -/
inductive Verb
  | build
  | validate
  | operators
  | fields
  | help
  deriving DecidableEq

def Verb.ofName? : String → Option Verb
  | "build" => some build
  | "validate" => some validate
  | "operators" => some operators
  | "fields" => some fields
  | "help" => some help
  | _ => none

/-- Whether a command can work on what an argument says: a path is never empty, and
only a command can be explained. -/
def Verb.accepts : Verb → String → Bool
  | build, path | fields, path => path != ""
  | validate, _ | operators, _ => true
  | help, name => (ofName? name).isSome

/-- An option that takes a value. -/
inductive ValueOption
  | format
  | rows
  deriving DecidableEq

/-- The options given on one side of the command's name. -/
structure Options where
  isVerbose : Bool
  format : Option ResultFormat
  rows : Option Nat

/-- What has been read of a list of arguments. -/
structure Reading where
  /-- The options before the command's name. -/
  shared : Options
  verb : Option Verb
  /-- The options after the command's name. -/
  own : Options
  /-- What the command works on. -/
  operand : Option String
  /-- An option whose value has to be the next argument. -/
  pending : Option ValueOption
  /-- Whether options have ended. -/
  isLiteral : Bool

namespace Options

def empty : Options := ⟨false, none, none⟩

end Options

namespace Reading

def start : Reading := ⟨.empty, none, .empty, none, none, false⟩

def options (r : Reading) : Options :=
  if r.verb.isSome then r.own else r.shared

def setOptions (r : Reading) (options : Options) : Reading :=
  if r.verb.isSome then { r with own := options } else { r with shared := options }

/-- The largest count of rows that can be given. -/
def maxCount : Nat := UInt64.size - 1

/-- A count: decimal digits, with or without a plus sign. -/
def count? (text : String) : Option Nat :=
  let digits := match text.toList with
    | '+' :: rest => rest
    | cs => cs
  if digits.isEmpty || !digits.all Char.isDigit then none
  else
    let value := Nat.ofDigitChars 10 digits 0
    if value ≤ maxCount then some value else none

def format? : String → Option ResultFormat
  | "pretty" => some .pretty
  | "json" => some .json
  | _ => none

/-- Reading goes on, or ends with what the arguments ask for. -/
abbrev Step := Except Invocation Reading

def verbose (r : Reading) : Step :=
  if r.options.isVerbose then .error .misuse
  else .ok (r.setOptions { r.options with isVerbose := true })

/-- Gives an option its value. No option may be given twice on one side. -/
def assign (r : Reading) (option : ValueOption) (value : String) : Step :=
  match option with
  | .format =>
    match r.options.format, format? value with
    | none, some format => .ok (r.setOptions { r.options with format := some format })
    | _, _ => .error .misuse
  | .rows =>
    match r.options.rows, count? value with
    | none, some rows => .ok (r.setOptions { r.options with rows := some rows })
    | _, _ => .error .misuse

/-- An option with the value that is joined to it, or else the next argument. -/
def option (r : Reading) (option : ValueOption) : Option String → Step
  | some value => r.assign option value
  | none => .ok { r with pending := some option }

/-- An option by its long name. -/
def long (r : Reading) (name : String) (value : Option String) : Step :=
  match name, value, r.verb with
  | "verbose", none, _ => r.verbose
  | "format", value, _ => r.option .format value
  | "rows", value, some .validate => r.option .rows value
  | "help", none, _ => .error .help
  | "version", none, none => .error .version
  | _, _, _ => .error .misuse

/-- The value joined to the letter of an option. -/
def joined : List Char → Option String
  | [] => none
  | '=' :: value => some (String.ofList value)
  | value => some (String.ofList value)

/-- Options by their letters. -/
def letters (r : Reading) : List Char → Step
  | [] => .ok r
  | 'v' :: rest =>
    match r.verbose with
    | .ok r => letters r rest
    | .error stop => .error stop
  | 'f' :: value => r.option .format (joined value)
  | 'r' :: value => if r.verb = some .validate then r.option .rows (joined value) else .error .misuse
  | 'h' :: _ => .error .help
  | 'V' :: _ => if r.verb.isNone then .error .version else .error .misuse
  | _ => .error .misuse

/-- An argument that is no option: the command's name, or the one thing that the
command works on. -/
def nameOrOperand (r : Reading) (argument : String) : Step :=
  match r.verb, r.operand with
  | none, _ =>
    match Verb.ofName? argument with
    | some verb => if r.isLiteral then .error .misuse else .ok { r with verb := some verb }
    | none => .error .misuse
  | some verb, none =>
    if verb.accepts argument then .ok { r with operand := some argument } else .error .misuse
  | some _, some _ => .error .misuse

/-- Takes in the next argument. -/
def next (r : Reading) (argument : String) : Step :=
  match r.pending with
  | some option => { r with pending := none }.assign option argument
  | none =>
    if r.isLiteral || r.verb = some .help then r.nameOrOperand argument
    else
      match argument.toList with
      | ['-', '-'] => .ok { r with isLiteral := true }
      | '-' :: '-' :: cs =>
        let name := cs.takeWhile (· != '=')
        let value := match cs.dropWhile (· != '=') with
          | [] => none
          | _ :: value => some (String.ofList value)
        r.long (String.ofList name) value
      | '-' :: c :: cs => r.letters (c :: cs)
      | _ => r.nameOrOperand argument

/-- What complete arguments ask for. A count of rows belongs to every check of a
formula, and help can be asked for without a command to explain. -/
def finish (r : Reading) : Invocation :=
  let format := (r.own.format.or r.shared.format).getD .pretty
  match r.pending, r.verb, r.operand, r.own.rows with
  | none, some .build, some path, _ => .run (.build path) format
  | none, some .validate, some text, some rows => .run (.validate text rows) format
  | none, some .operators, some typeName, _ => .run (.operators typeName) format
  | none, some .fields, some path, _ => .run (.fields path) format
  | none, some .help, _, _ => .help
  | _, _, _, _ => .misuse

end Reading

/-- What a list of arguments asks for. -/
def ofArguments (arguments : List String) : Invocation :=
  match arguments.foldlM Reading.next .start with
  | .ok reading => reading.finish
  | .error stop => stop

end Invocation
end QueryFilter
