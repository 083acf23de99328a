/-
Stockroom.Stock.Insights — dashboard scores from counts.

The scores are shares of counts, computed in binary floating point and rounded to four
decimal places, a half going away from zero.
-/
import Stockroom.Data.Sum
import Stockroom.Stock.Batch

namespace Stockroom

/-- The counts the scores are computed from. -/
structure InsightCounts where
  ledgerRows : Nat := 0
  stockRows : Nat := 0
  /-- Slots whose quantity is the ledger total of their key. -/
  stockMatching : Nat := 0
  /-- Rows of today's snapshot. -/
  snapshotRows : Nat := 0
  /-- Snapshot rows whose quantity is the ledger total of their key. -/
  snapshotMatching : Nat := 0
  recentLedgerRows : Nat := 0
  outboundLedgerRows : Nat := 0
  batchesWithExpiry : Nat := 0
  /-- The weights of the risk levels of all batches, added up. -/
  riskPoints : Nat := 0
  deriving DecidableEq, Repr

/-- The points that a number of days left adds to the risk score. -/
def RiskLevel.pointsOf (daysLeft : Int) : Nat :=
  ((RiskLevel.ofDaysLeft daysLeft).map RiskLevel.weight).getD 0

/-- Sets the two counts that come from the batches. -/
def InsightCounts.withBatchRisk (c : InsightCounts) (batches : List Batch) (today : Date) :
    InsightCounts :=
  let daysLeft := batches.filterMap (fun b => b.daysLeft today)
  { c with
    batchesWithExpiry := daysLeft.length
    riskPoints := natSumOf RiskLevel.pointsOf daysLeft }

/-- The scores. -/
structure Insights where
  health : Float
  accuracy : Float
  snapshotAccuracy : Float
  activity : Nat
  batchRisk : Float
  efficiency : Float

namespace Insights

/-- A share; nothing counts as one in the denominator. -/
def ratio (num den : Nat) : Float := num.toUInt64.toFloat / (max den 1).toUInt64.toFloat

/-- Four decimal places, a half going away from zero. -/
def round4 (x : Float) : Float := (x * 10000.0).round / 10000.0

/-- The nearest value from 0 to 1. -/
def clamp (x : Float) : Float := if x < 0.0 then 0.0 else if 1.0 < x then 1.0 else x

/-- Computes the scores. Without ledger rows stock is healthy, and without dated batches
there is no risk. -/
def compute (c : InsightCounts) : Insights where
  health := round4 (clamp (if c.ledgerRows = 0 then 1.0 else ratio c.stockRows c.ledgerRows))
  accuracy := round4 (clamp (ratio c.stockMatching c.stockRows))
  snapshotAccuracy := round4 (clamp (ratio c.snapshotMatching c.snapshotRows))
  activity := c.recentLedgerRows
  batchRisk :=
    round4 (if c.batchesWithExpiry = 0 then 0.0 else ratio c.riskPoints (c.batchesWithExpiry * 3))
  efficiency := round4 (ratio c.outboundLedgerRows c.ledgerRows)

end Insights

end Stockroom
