/-
Stockroom.Stock.Diagnostics — ledger activity of a period, grouped three ways.

The entries between two instants, both included, are counted and added up by movement
family, by reference, and by trace.
-/
import Stockroom.Data.OrderedMap
import Stockroom.Stock.Movement

namespace Stockroom

/-- How many entries, and what they come to. -/
structure DeltaSummary where
  count : Nat
  total : Int
  deriving DecidableEq, Repr

namespace DeltaSummary

/-- No entries. -/
def zero : DeltaSummary := ⟨0, 0⟩

/-- One entry more. -/
def add (s : DeltaSummary) (delta : Int) : DeltaSummary := ⟨s.count + 1, s.total + delta⟩

end DeltaSummary

/-- The activity of a period. -/
structure LedgerDiagnostics where
  since : Instant
  upTo : Instant
  byClass : OrderedMap MovementClass DeltaSummary
  byReference : OrderedMap String DeltaSummary
  byTrace : OrderedMap String DeltaSummary
  deriving DecidableEq

/-- Summaries of the entries of each group. -/
def groupBy {κ : Type} [Ord κ] [Std.TransOrd κ] (group : LedgerEntry → κ)
    (entries : List LedgerEntry) : OrderedMap κ DeltaSummary :=
  entries.foldl
    (fun m e => m.alter (group e) (fun s => some ((s.getD .zero).add e.delta))) .empty

/-- Whether an entry occurred between two instants, both included. -/
def LedgerEntry.isWithin (since upTo : Instant) (e : LedgerEntry) : Bool :=
  decide (since ≤ e.occurredAt) && decide (e.occurredAt ≤ upTo)

/-- The activity between two instants; other entries are skipped. -/
def diagnose (entries : List LedgerEntry) (since upTo : Instant) : LedgerDiagnostics :=
  let inside := entries.filter (LedgerEntry.isWithin since upTo)
  { since, upTo
    byClass := groupBy (·.reason.movementClass) inside
    byReference := groupBy (·.reference) inside
    byTrace := groupBy (·.trace.val) inside }

end Stockroom
