/-
Stockroom.Engine.Log — what is told to the people who watch the program.
-/
import Stockroom.Error
import Stockroom.Json.Value

namespace Stockroom

/-- How urgent a line is. -/
inductive LogLevel where
  | info | warn | error
  deriving DecidableEq, Repr

/-- The written name. -/
def LogLevel.text : LogLevel → String
  | info => "INFO"
  | warn => "WARN"
  | error => "ERROR"

/-- A line of the log: named values. -/
structure LogLine where
  level : LogLevel
  fields : List (String × Json)

namespace LogLine

/-- A line with a message and further values. -/
def saying (level : LogLevel) (message : String) (fields : List (String × Json)) : LogLine :=
  ⟨level, ("message", .string message) :: fields⟩

/-- The line that a watched operation leaves when it fails. -/
def ofFailure (e : StoreError) : LogLine := ⟨.error, [("error", .string e.message)]⟩

/-- The JSON form of a line. -/
def toJson (l : LogLine) : Json :=
  .object [("level", .string l.level.text), ("fields", .object l.fields)]

end LogLine

end Stockroom
