/-
Stockroom.Wire.Engine — JSON forms of what the engine and its jobs report.
-/
import Stockroom.Engine.Jobs
import Stockroom.Wire.Reports

namespace Stockroom

open Wire

instance : JsonForm SweepFailure where
  toJson f := .object [("id", toJson f.id), ("error", .string f.error)]
  ofJson? j := do
    let ms ← record? ["id", "error"] j
    pure ⟨← ms.get "id", ← ms.get "error"⟩

instance : JsonForm SweepReport where
  toJson r := .object
    [("batches", ofCount r.batches), ("expired", toJson r.expired), ("noops", ofCount r.noops),
     ("failed", toJson r.failed)]
  ofJson? j := do
    let ms ← record? ["batches", "expired", "noops", "failed"] j
    pure
      { batches := ← ms.required "batches" count?
        expired := ← ms.get "expired"
        noops := ← ms.required "noops" count?
        failed := ← ms.get "failed" }

instance : JsonForm ReconciliationAlert where
  toJson a := .object
    [("cut", toJson a.cut), ("ledger_vs_stock", ofCount a.ledgerVsStock),
     ("ledger_vs_snapshot", ofCount a.ledgerVsSnapshot),
     ("stock_vs_snapshot", ofCount a.stockVsSnapshot), ("report", toJson a.report)]
  ofJson? j := do
    let ms ← record? ["cut", "ledger_vs_stock", "ledger_vs_snapshot", "stock_vs_snapshot",
      "report"] j
    pure
      { cut := ← ms.get "cut"
        ledgerVsStock := ← ms.required "ledger_vs_stock" count?
        ledgerVsSnapshot := ← ms.required "ledger_vs_snapshot" count?
        stockVsSnapshot := ← ms.required "stock_vs_snapshot" count?
        report := ← ms.get "report" }

/-- Slots are no names of members: totals have a JSON form only where there are none. -/
def noTotals? : Json → Option Totals
  | .object [] => some .empty
  | _ => none

instance : JsonForm SnapshotCut where
  toJson c := .object
    [("at", toJson c.at), ("totals", ofMap StockKey.text .integer c.totals),
     ("summary", toJson c.summary)]
  ofJson? j := do
    let ms ← record? ["at", "totals", "summary"] j
    pure
      { «at» := ← ms.get "at"
        totals := ← ms.required "totals" noTotals?
        summary := ← ms.get "summary" }

end Stockroom
