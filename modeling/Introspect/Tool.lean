import Introspect.Signature.Basic

/-!
# The command line

The command takes a routine signature as its first argument and prints the canonical names of
its parameter types, one per line, resolved against the built-in catalog. Without an argument it
prints its usage and exits with status 2; when the signature is malformed or names an unknown
type it prints the error and exits with status 1. Arguments after the first are ignored.

`respond` decides what to say, `Outcome` is what a run shows: its status and its two output
streams. A run cannot start at all when an argument holds a NUL character (`run`). Standard output may refuse writes; then a run that has names to print stops at the first
one with status 1 and says nothing more, while a run with no names succeeds.
-/

set_option autoImplicit false
set_option relaxedAutoImplicit false

namespace Introspect.Tool

/-- What a run has to say. -/
inductive Response where
  | usage
  | failure (message : String)
  | names (names : List String)
deriving DecidableEq, Repr

/-- The usage line. -/
def usageText : String := "usage: ddlcheck '<NAME(TYPES) RETURN TYPE>'\n"

/-- The error line for a message. -/
def failureText (message : String) : String := "ddlcheck: " ++ message ++ "\n"

/-- The response to the command-line arguments. -/
def respond : List String → Response
  | [] => .usage
  | signature :: _ =>
    match Signature.parameterTypes signature Catalog.builtin with
    | .error e => .failure e.message
    | .ok types => .names (types.map BaseType.name)

/-- The exit status and the texts written to standard output and standard error. -/
structure Outcome where
  status : Nat
  stdout : String
  stderr : String
deriving DecidableEq, Repr

/-- Why the command cannot be started. -/
inductive LaunchError where
  /-- An argument holds a NUL character, which no program argument can carry. -/
  | nulInArgument
deriving DecidableEq, Repr

/-- The words for a launch error. -/
def LaunchError.message : LaunchError → String
  | .nulInArgument => "nul byte found in provided data"

/-- What a run shows, given whether standard output takes writes. -/
def Response.outcome (r : Response) (outputWritable : Bool) : Outcome :=
  match r with
  | .usage => ⟨2, "", usageText⟩
  | .failure message => ⟨1, "", failureText message⟩
  | .names ns =>
    if outputWritable || ns.isEmpty then ⟨0, String.join (ns.map (· ++ "\n")), ""⟩
    else ⟨1, "", ""⟩

/-- Starts the command with these arguments and reports what the run shows. -/
def run (args : List String) (outputWritable : Bool) : Except LaunchError Outcome :=
  if args.any (fun a => a.toList.contains '\x00') then .error .nulInArgument
  else .ok ((respond args).outcome outputWritable)

end Introspect.Tool
