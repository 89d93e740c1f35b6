import TypedQuery.CommandLine

/-!
# The program

Reads the command line, and the input from the standard input if it is not given as an
option. Results go to the standard output, failures to the standard error.
-/

open TypedQuery

/-- Runs the program with the words of its command line. -/
def main (words : List String) : IO UInt32 := do
  match CommandLine.read words with
  | .error fault =>
    IO.eprintln fault.message
    return 2
  | .ok line =>
    let input ← IO.getStdin
    let line ←
      if line.needsInput && !(← input.isTty) then line.withInput <$> input.readToEnd
      else pure line
    match line.run with
    | .ok text =>
      IO.println text
      return 0
    | .error message =>
      IO.eprintln message
      return 1
