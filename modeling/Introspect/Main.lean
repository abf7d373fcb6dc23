import Introspect.Tool

/-!
# Command-line entry point

Runs `Tool.respond` on the arguments and writes its response. Each name is written and flushed on
its own line, so that a refused write stops the run with status 1.
-/

set_option autoImplicit false
set_option relaxedAutoImplicit false

open Introspect

/-- Writes the names one per line; `false` when standard output refuses a write. -/
def writeNames (names : List String) : IO Bool := do
  let out ← IO.getStdout
  try
    for n in names do
      out.putStr (n ++ "\n")
      out.flush
    pure true
  catch _ =>
    pure false

def main (args : List String) : IO UInt32 := do
  match Tool.respond args with
  | .usage =>
    IO.eprint Tool.usageText
    pure 2
  | .failure message =>
    IO.eprint (Tool.failureText message)
    pure 1
  | .names ns =>
    if ← writeNames ns then pure 0 else pure 1
