/-
Stockroom.Stock.CommitCheck — has a write left its keys consistent?

A write is expected to have left one ledger row per effect, with the effect's change, and
each touched slot at its ledger total. What is missing or different is an issue.
-/
import Stockroom.Data.OrderedMap
import Stockroom.Stock.Movement

namespace Stockroom

/-- A change that a write was to make. -/
structure CommitEffect where
  key : StockKey
  line : Int
  delta : Int
  deriving DecidableEq, Repr

/-- The change an entry records. -/
def LedgerEntry.effect (e : LedgerEntry) : CommitEffect := ⟨e.key, e.line, e.delta⟩

/-- The ledger total and the slot quantity of one key, read together. -/
structure KeyBalance where
  key : StockKey
  ledger : Int
  stock : Int
  deriving DecidableEq, Repr

/-- What a write has left inconsistent. -/
inductive CommitIssue where
  /-- An effect has no ledger row. -/
  | missingLedger (key : StockKey) (line : Int)
  /-- The ledger row of an effect records another change. -/
  | deltaMismatch (key : StockKey) (line expected recorded : Int)
  /-- A touched slot is not at its ledger total. -/
  | stockDrift (key : StockKey) (ledger stock : Int)
  deriving DecidableEq, Repr

/-- The result of a check. -/
structure CommitCheck where
  reference : String
  touched : Nat
  issues : List CommitIssue
  deriving DecidableEq, Repr

/-- Whether nothing is inconsistent. -/
def CommitCheck.isConsistent (c : CommitCheck) : Bool := c.issues.isEmpty

/-- The keys that effects touch, each once, ascending. -/
def touchedKeys (effects : List CommitEffect) : List StockKey :=
  (OrderedMap.ofList (effects.map (fun e => (e.key, ())))).keys

/-- What the ledger rows have against an effect; the first row of its line and key counts. -/
def ledgerIssue? (recorded : List LedgerEntry) (effect : CommitEffect) : Option CommitIssue :=
  match recorded.find? (fun e => e.line == effect.line && e.key == effect.key) with
  | none => some (.missingLedger effect.key effect.line)
  | some e =>
    if e.delta = effect.delta then none
    else some (.deltaMismatch effect.key effect.line effect.delta e.delta)

/-- What the balances have against a key; the first balance of the key counts, and a key
without a balance is fine. -/
def driftIssue? (balances : List KeyBalance) (key : StockKey) : Option CommitIssue :=
  match balances.find? (fun b => b.key == key) with
  | none => none
  | some b => if b.ledger = b.stock then none else some (.stockDrift key b.ledger b.stock)

/-- Checks one write: first its effects in their order, then its keys in theirs. -/
def checkCommit (reference : String) (effects : List CommitEffect) (recorded : List LedgerEntry)
    (balances : List KeyBalance) : CommitCheck :=
  let keys := touchedKeys effects
  { reference
    touched := keys.length
    issues := effects.filterMap (ledgerIssue? recorded) ++ keys.filterMap (driftIssue? balances) }

end Stockroom
