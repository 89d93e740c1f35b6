import TypedQuery.Check

/-!
# The command line

The words after the name of the program: a command, a query and options. Options may
stand anywhere after the command.
-/

namespace TypedQuery

/-- What to check, and whether the result is printed with indentation. -/
structure CommandLine where
  options : CheckOptions
  pretty : Bool

/-- Why the words make no command line. -/
inductive CommandLineFault
  | noCommand
  | unknownCommand (word : String)
  | unknownOption (word : String)
  | noQuery
  | extraWord (word : String)
deriving DecidableEq

/-- The wording of a fault. -/
def CommandLineFault.message : CommandLineFault → String
  | noCommand => "Usage: check QUERY [--input JSON] [--vars JSON] [--pretty] [--syntax-only]"
  | unknownCommand word => "Unknown command '" ++ word ++ "'"
  | unknownOption word => "Unknown option '" ++ word ++ "'"
  | noQuery => "No query is given"
  | extraWord word => "Unexpected argument '" ++ word ++ "'"

namespace CommandLine

/-- The options and the query that words add to those there are. -/
def readWords : List String → Option String → CommandLine →
    Except CommandLineFault CommandLine
  | [], none, _ => .error .noQuery
  | [], some query, line => .ok { line with options.query := query }
  | "--input" :: json :: rest, query?, line =>
    readWords rest query? { line with options.input? := some json }
  | "-i" :: json :: rest, query?, line =>
    readWords rest query? { line with options.input? := some json }
  | "--vars" :: json :: rest, query?, line =>
    readWords rest query? { line with options.vars? := some json }
  | "--pretty" :: rest, query?, line => readWords rest query? { line with pretty := true }
  | "-p" :: rest, query?, line => readWords rest query? { line with pretty := true }
  | "--syntax-only" :: rest, query?, line =>
    readWords rest query? { line with options.syntaxOnly := true }
  | word :: rest, query?, line =>
    if word.startsWith "-" then .error (.unknownOption word)
    else if query?.isSome then .error (.extraWord word)
    else readWords rest (some word) line

/-- Reads the words of a command line. -/
def read : List String → Except CommandLineFault CommandLine
  | [] => .error .noCommand
  | "check" :: words => readWords words none ⟨⟨"", none, none, false⟩, false⟩
  | command :: _ => .error (.unknownCommand command)

/-- The input has to come from elsewhere. -/
def needsInput (line : CommandLine) : Bool :=
  line.options.input?.isNone && !line.options.syntaxOnly

/-- The same command line with an input. -/
def withInput (line : CommandLine) (json : String) : CommandLine :=
  { line with options.input? := some json }

/-- What is printed for a result. -/
def output (line : CommandLine) : CheckResult → String
  | .valid => "Syntax is valid"
  | .output json => if line.pretty then json.pretty else json.compact

/-- Carries out a command line: the text that is printed, or the text of a failure. -/
def run (line : CommandLine) : Except String String :=
  match (check line.options).run ⟨.null, .process⟩ with
  | .ok result _ => .ok (line.output result)
  | .error (.fault fault) world => .error (fault.message world.register)
  | .error .depth _ => .error "Fields refer to each other too deeply"

end CommandLine

end TypedQuery
