/-
Stockroom.Wire.Sql — JSON forms of statements, parameters and replies.

In a scripted reply the name of a column tells the type of a text in it: names that end in
"_date" hold dates, names that end in "_at" hold instants, "id" holds an identifier.
-/
import Stockroom.Sql.Script
import Stockroom.Wire.Request

namespace Stockroom

namespace Wire

/-! ## Statements -/

/-- The first instant of 2000, from which the server counts microseconds. -/
def serverEpoch : Int := 946684800000000000

/-- An instant as the server keeps it: in whole microseconds, cut off towards its epoch. It knows
no leap seconds. -/
def serverInstant (t : Instant) : Instant :=
  (Instant.ofNanos? (serverEpoch + (t.sinceEpoch - serverEpoch).tdiv 1000 * 1000)).getD t

/-- The written form of a parameter. -/
def ofParameter : Sql.Value → Json
  | .null => .null
  | .integer n => .integer n
  | .text s => .string s
  | .date d => toJson d
  | .instant t => toJson (serverInstant t)
  | .uuid u => toJson u
  | .integers ns => .array (ns.map .integer)
  | .texts ss => .array (ss.map .string)

/-- The written form of a statement: its text and then its parameters. -/
def ofStatement (q : Sql.Statement) : Json :=
  .array (.string q.text :: q.parameters.map ofParameter)

/-! ## Replies -/

/-- Whether a text ends in another one. -/
def endsIn (ending s : String) : Bool := ending.toList.isSuffixOf s.toList

/-- The value of a column. -/
def cell? (column : String) : Json → Option Sql.Value
  | .null => some .null
  | .integer n => some (.integer n)
  | .string s =>
    if endsIn "_date" column then (Date.read? s).map .date
    else if endsIn "_at" column then (Instant.read? s).map (.instant ∘ serverInstant)
    else if column = "id" then (Uuid.read? s).map .uuid
    else some (.text s)
  | _ => none

/-- A row with the given columns; a missing value is null. -/
def row? (columns : List String) : Json → Option Sql.Row
  | .object ms => columns.mapM fun c => do pure (c, ← cell? c ((Members.find? ms c).getD .null))
  | _ => none

/-- The columns of a row. -/
def columnsOf : Json → List String
  | .object ms => ms.map (·.1)
  | _ => []

/-- A reply: an error, or rows with the columns of the first one. -/
def reply (j : Json) : Reading Sql.Reply := do
  match Request.field? j "error" with
  | some e => do pure (.error ⟨← Request.text e "code", ← Request.text e "message"⟩)
  | none => do
    let items ← Request.items j "rows"
    let columns := (items.head?.map columnsOf).getD []
    pure (.rows (← Request.orMalformed (items.mapM (row? columns))))

/-- How the statements around a transaction are answered. -/
def control (j : Json) : Reading Sql.Control := do
  match Request.field? j "control" with
  | none => pure {}
  | some c => do
    let replyTo (name : String) : Reading Sql.Reply :=
      ((Request.field? c name).map reply).getD (pure .nothing)
    pure { begin := ← replyTo "BEGIN", commit := ← replyTo "COMMIT" }

/-- A rule of a scripted server. -/
def serverRule (j : Json) : Reading Sql.Rule := do
  pure ⟨← Request.text j "match", ← reply j⟩

end Wire

end Stockroom
