/-
Stockroom.Sql.Session — talking to a database server.

A session keeps every statement sent and its reply. The server is a function of what was
said before, so whatever a server may do is covered. `transaction` begins, runs a body,
and then commits or rolls back: it rolls back after a failure, after a failing commit, and
when the body has found nothing to do.
-/
import Stockroom.Sql.Statement
import Stockroom.Stock.Store

namespace Stockroom

namespace Sql

/-- A statement and the reply to it. -/
structure Exchange where
  statement : Statement
  reply : Reply
  deriving DecidableEq

/-- What a server answers to a statement, after what was said before. -/
abbrev Server := List Exchange → Statement → Reply

/-- A session with a server. -/
structure Session where
  server : Server
  /-- What was said, the oldest first. -/
  history : List Exchange
  /-- Whether connections are still given out. -/
  isOpen : Bool

/-- A step of a session. -/
abbrev SqlM := StoreM Session

/-- The session with the given server, before anything was said. -/
def Session.start (server : Server) : Session := ⟨server, [], true⟩

/-! ## Statements -/

/-- Sends a statement. -/
def send (q : Statement) : SqlM Reply := do
  let s ← get
  let reply := s.server s.history q
  set { s with history := s.history ++ [Exchange.mk q reply] }
  pure reply

/-- Fails if no connection is given out any more. -/
def connect (operation : String) : SqlM Unit := do
  if (← get).isOpen then pure ()
  else throw (.storage ("connection pool closed in " ++ operation))

/-- The rows that a statement finds. -/
def rows (operation : String) (q : Statement) : SqlM (List Row) := do
  match ← send q with
  | .rows rs => pure rs
  | .error e => throw (e.toStoreError operation)

/-- The first row that a statement finds. -/
def row? (operation : String) (q : Statement) : SqlM (Option Row) := do
  pure (← rows operation q).head?

/-- The first row of a statement that has to find one. -/
def row (operation : String) (q : Statement) : SqlM Row := do
  match ← row? operation q with
  | some r => pure r
  | none => throw (.storage ("unexpected row not found in " ++ operation))

/-- Carries a statement out. -/
def execute (operation : String) (q : Statement) : SqlM Unit := do
  let _ ← rows operation q

/-- The rows that a statement finds outside of any transaction. -/
def rowsAlone (operation : String) (q : Statement) : SqlM (List Row) := do
  connect operation
  rows operation q

/-- Creates the tables. -/
def migrate : SqlM Unit := do
  let _ ← rowsAlone "migrate" .createTables

/-! ## Transactions -/

/-- How the body of a transaction ends. -/
inductive Ending (α : Type) where
  /-- What was written is to be kept. -/
  | keep (a : α)
  /-- There was nothing to write. -/
  | leave (a : α)

/-- Runs a body between the beginning and the end of a transaction. -/
def transaction {α : Type} (body : SqlM (Ending α)) : SqlM α := do
  connect "begin_transaction"
  execute "begin_transaction" .begin
  match ← StoreM.attempt body with
  | .error e => do
    let _ ← send .rollback
    throw e
  | .ok (.leave a) => do
    let _ ← send .rollback
    pure a
  | .ok (.keep a) => do
    match ← send .commit with
    | .rows _ => pure a
    | .error e => do
      let _ ← send .rollback
      throw (e.toStoreError "commit_transaction")

end Sql

end Stockroom
