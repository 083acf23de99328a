/-
Stockroom.Sql.Value — values, rows and replies of a database server.

A reply is either rows or an error with its five-character state. Some states mean that
another writer was first; all others that the backend has failed.
-/
import Stockroom.Calendar.Instant
import Stockroom.Error
import Stockroom.Identity.Uuid

namespace Stockroom

namespace Sql

/-! ## Values -/

/-- A value in a row, or a parameter of a statement. -/
inductive Value where
  | null
  | integer (n : Int)
  | text (s : String)
  | date (d : Date)
  | instant (t : Instant)
  | uuid (u : Uuid)
  | integers (ns : List Int)
  | texts (ss : List String)
  deriving DecidableEq

/-- An optional text. -/
def Value.ofText? (s : Option String) : Value := (s.map text).getD null

/-- An optional date. -/
def Value.ofDate? (d : Option Date) : Value := (d.map date).getD null

/-- A row: values by the names of their columns. -/
abbrev Row := List (String × Value)

/-! ## Replies -/

/-- An error that the server reports. -/
structure ServerError where
  /-- The five-character state that tells the kind of error. -/
  state : String
  message : String
  deriving DecidableEq, Repr

namespace ServerError

/-- Whether a row with the same unique key exists. -/
def isUniqueViolation (e : ServerError) : Bool := e.state == "23505"

/-- Whether another writer was first: a unique key, a serialization failure, a deadlock. -/
def isConcurrency (e : ServerError) : Bool :=
  e.isUniqueViolation || e.state == "40001" || e.state == "40P01"

/-- The failure of an operation on the server's error. -/
def toStoreError (operation : String) (e : ServerError) : StoreError :=
  let detail := "database error in " ++ operation ++ ": " ++ e.message
  if e.isConcurrency then .concurrency detail else .storage detail

end ServerError

/-- The answer to a statement. -/
inductive Reply where
  | rows (rs : List Row)
  | error (e : ServerError)
  deriving DecidableEq

end Sql

end Stockroom
