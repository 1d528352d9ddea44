import SchemaTypes.CommandLine.Parsing

/-!
# The program

What the program does with its arguments: it carries out a command, shows help or
its version, or tells what is wrong with the arguments.
-/

set_option autoImplicit false

namespace SchemaTypes.Program

variable {m : Type → Type} [Monad m] [Host m]

/-- The exit code of a run without a command. It does not tell whether help could be shown. -/
def stop : CommandLine.Stop → m Nat
  | .help topic long => do
    let _ ← Host.print (CommandLine.Help.page topic long)
    return 0
  | .version => do
    let _ ← Host.print
      (CommandLine.Help.programName ++ " " ++ CommandLine.Help.programVersion ++ "\n")
    return 0
  | .usage e => do
    Host.report ("error: " ++ e.message)
    return 2

/-- Shows help where there are no arguments. The line end after it must be put out, or the
program breaks off. -/
def greet : m Nat := do
  let _ ← Host.print (CommandLine.Help.page .program false)
  match ← Host.print "\n" with
  | .ok () => return 0
  | .error fault =>
    Host.report ("failed printing to stdout: " ++ fault.message)
    return 101

/-- Runs the program and gives its exit code. -/
def run (args : List String) : m Nat := do
  match CommandLine.parse args (← Host.token) with
  | .error s => stop s
  | .ok (some c) => c.run
  | .ok none => greet

end SchemaTypes.Program
