/-
Stockroom.Main — the command line of the worker.

The settings come from the environment. The first argument names a file with the rules of
the server that the worker talks to, and the second one is the time by which it works.
Without a server nothing can be connected to. The log goes to standard output, line by
line, and the reason why the worker cannot start to standard error.
-/
import Stockroom.Engine.Worker
import Stockroom.Wire.Sql

namespace Stockroom

/-- The rules of the server that a file describes. -/
def readServer (path : String) : IO (Option Sql.Server) := do
  let content ← IO.FS.readFile path
  let rules : Reading (List Sql.Rule) := do
    match Json.read? content with
    | some (.array items) => items.mapM Wire.serverRule
    | _ => throw .malformed
  match rules with
  | .ok rules => pure (some (.ofRules rules))
  | .error _ => pure none

/-- The variables of the environment that are settings. -/
def readVariables : IO (List (String × String)) := do
  let found ← Config.variableNames.mapM fun name => do
    pure ((← IO.getEnv name).map (fun value => (name, value)))
  pure (found.filterMap (fun v => v))

/-- Runs the worker, and prints its log. -/
def runWorker (server : Option Sql.Server) (now : Instant) : IO UInt32 := do
  let found ← readVariables
  let report := Worker.run (fun name => found.lookup name) (fun _ => server)
    (fun _ _ => false) 1000 1000 now
  for line in report.log do
    IO.println line.toJson.text
  match report.error with
  | none => pure ()
  | some e => IO.eprintln e.text
  pure report.exitCode.toUInt32

end Stockroom

/-- Runs the worker against the server that the arguments describe. -/
def main (arguments : List String) : IO UInt32 := do
  let server ←
    match arguments.head? with
    | some path => Stockroom.readServer path
    | none => pure none
  let now := (arguments[1]?.bind Stockroom.Instant.read?).getD .epoch
  Stockroom.runWorker server now
