/-
Stockroom.Engine.Jobs — the work that is done at intervals.

The pipeline rebuilds the snapshot of the day, the guard compares the three
representations and raises an alert when they disagree, and the sweeper ends reservations
past their time to live.
-/
import Stockroom.Engine.Basic

namespace Stockroom

/-- A unit of work that is done at intervals. -/
inductive Job where
  | snapshotPipeline | reconciliationGuard | ttlSweeper
  deriving DecidableEq, Repr

namespace Job

/-- The name under which the job is reported. -/
def text : Job → String
  | snapshotPipeline => "snapshot-pipeline"
  | reconciliationGuard => "reconciliation-guard"
  | ttlSweeper => "ttl-sweeper"

/-- Every job, in the order in which they are started. -/
def all : List Job := [snapshotPipeline, reconciliationGuard, ttlSweeper]

/-- The interval of a job, in seconds. -/
def interval (c : Config) : Job → Nat
  | snapshotPipeline => c.snapshotInterval
  | reconciliationGuard => c.guardInterval
  | ttlSweeper => c.sweepInterval

variable {σ τ : Type}

/-- Rebuilds the snapshot of the day. -/
def rebuildToday (engine : Engine σ τ) (now : Instant) : EngineM σ τ Unit := do
  let summary ← engine.rebuildSnapshot now.date
  EngineM.log (.saying .info "snapshot rebuilt"
    [("slots", .integer summary.slots), ("total_qty", .integer summary.quantity)])

/-- The numbers of mismatches of an alert, as named values. -/
def mismatchFields (a : ReconciliationAlert) : List (String × Json) :=
  [("ledger_vs_stock", .integer a.ledgerVsStock),
   ("ledger_vs_snapshot", .integer a.ledgerVsSnapshot),
   ("stock_vs_snapshot", .integer a.stockVsSnapshot)]

/-- Compares the representations, and raises an alert when they disagree. -/
def guardStock (engine : Engine σ τ) (now : Instant) : EngineM σ τ Unit := EngineM.watched do
  let report ← engine.detect now
  modify fun s => { s with metrics := s.metrics.ofReport report }
  if report.isClean then
    EngineM.log (.saying .info "reconciliation clean" [("stock_keys", .integer report.stockKeys)])
  else
    let alert := ReconciliationAlert.ofReport report
    EngineM.log (.saying .warn "reconciliation mismatch" (mismatchFields alert))
    modify fun s => { s with alerts := s.alerts ++ [alert] }

/-- Does the work of a job once. -/
def runOnce (engine : Engine σ τ) (rounds : Nat) (now : Instant) : Job → EngineM σ τ Unit
  | snapshotPipeline => rebuildToday engine now
  | reconciliationGuard => guardStock engine now
  | ttlSweeper => do
    let _ ← engine.sweepExpired rounds now

end Job

end Stockroom
