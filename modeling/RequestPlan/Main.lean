import RequestPlan.Command

/-!
# The program

`main` reads the schema file that the arguments name and prints the plan for the request, or
the error on the error stream.
-/

open RequestPlan

/-- How the program is called. -/
def usage : String :=
  "usage: requestplan SCHEMA [ENTITY] [-q QUERY] [--json PARAMS] [--format table|json|sql] " ++
    "[--page-size N] [--max-page-size N] [--depth N] [--strict]"

/-- Prints an error and answers the exit code. -/
def failWith (code : UInt32) (message : String) : IO UInt32 := do
  IO.eprintln message
  return code

/-- Runs the command that the arguments spell. -/
def main (args : List String) : IO UInt32 := do
  match Command.parse? args with
  | none => failWith 2 usage
  | some (file, command) =>
    try
      match command.run (← IO.FS.readFile file) with
      | .ok output =>
        IO.println output
        return 0
      | .error e => failWith 1 ("Error: " ++ e.message)
    catch e => failWith 1 ("Error: " ++ toString e)
