/-
Stockroom.Wire.Reports — JSON forms of snapshots, comparisons, checks and counts.
-/
import Stockroom.Stock.Diagnostics
import Stockroom.Stock.Insights
import Stockroom.Stock.Reconciliation
import Stockroom.Wire.Stock

namespace Stockroom

open Wire

/-! ## Snapshots -/

/-- A cut is an object with one member, named for whether the bound itself counts. -/
instance : JsonForm LedgerCut where
  toJson
    | .atOrBefore t => .object [("AtOrBefore", toJson t)]
    | .before t => .object [("Before", toJson t)]
  ofJson?
    | .object [("AtOrBefore", j)] => (ofJson? j).map .atOrBefore
    | .object [("Before", j)] => (ofJson? j).map .before
    | _ => none

instance : JsonForm SnapshotRow where
  toJson r := .object
    [("snapshot_date", toJson r.date), ("key", toJson r.key), ("qty_on_hand", .integer r.onHand),
     ("qty_available", .integer r.available), ("qty_allocated", .integer r.allocated)]
  ofJson? j := do
    let ms ← record? ["snapshot_date", "key", "qty_on_hand", "qty_available",
      "qty_allocated"] j
    pure
      { date := ← ms.get "snapshot_date"
        key := ← ms.get "key"
        onHand := ← ms.required "qty_on_hand" int64?
        available := ← ms.required "qty_available" int64?
        allocated := ← ms.required "qty_allocated" int64? }

instance : JsonForm SnapshotSummary where
  toJson s := .object
    [("snapshot_date", toJson s.date), ("slot_count", ofCount s.slots),
     ("total_qty", .integer s.quantity)]
  ofJson? j := do
    let ms ← record? ["snapshot_date", "slot_count", "total_qty"] j
    pure
      { date := ← ms.get? "snapshot_date"
        slots := ← ms.required "slot_count" count?
        quantity := ← ms.required "total_qty" int64? }

/-! ## Comparisons -/

instance : JsonForm MismatchKind where
  toJson k := .string k.text
  ofJson? j := (name? j).bind MismatchKind.ofText?

instance : JsonForm HealDirection where
  toJson d := .string d.text
  ofJson? j := (name? j).bind HealDirection.ofText?

instance : JsonForm Mismatch where
  toJson m := .object
    [("kind", toJson m.kind), ("key", toJson m.key), ("left_qty", .integer m.left),
     ("right_qty", .integer m.right), ("diff", .integer m.diff)]
  ofJson? j := do
    let ms ← record? ["kind", "key", "left_qty", "right_qty", "diff"] j
    pure
      { kind := ← ms.get "kind"
        key := ← ms.get "key"
        left := ← ms.required "left_qty" int64?
        right := ← ms.required "right_qty" int64?
        diff := ← ms.required "diff" int64? }

instance : JsonForm ReconciliationReport where
  toJson r := .object
    [("cut", toJson r.cut), ("total_stock_keys", ofCount r.stockKeys),
     ("matching_stock_keys", ofCount r.matchingStockKeys),
     ("ledger_vs_stock", toJson r.ledgerVsStock),
     ("ledger_vs_snapshot", toJson r.ledgerVsSnapshot),
     ("stock_vs_snapshot", toJson r.stockVsSnapshot)]
  ofJson? j := do
    let ms ← record? ["cut", "total_stock_keys", "matching_stock_keys", "ledger_vs_stock",
      "ledger_vs_snapshot", "stock_vs_snapshot"] j
    pure
      { cut := ← ms.get "cut"
        stockKeys := ← ms.required "total_stock_keys" count?
        matchingStockKeys := ← ms.required "matching_stock_keys" count?
        ledgerVsStock := ← ms.get "ledger_vs_stock"
        ledgerVsSnapshot := ← ms.get "ledger_vs_snapshot"
        stockVsSnapshot := ← ms.get "stock_vs_snapshot" }

instance : JsonForm HealSuggestion where
  toJson h := .object
    [("key", toJson h.key), ("ledger_qty", .integer h.ledger), ("stock_qty", .integer h.stock),
     ("adjust_delta", .integer h.adjustment), ("direction", toJson h.direction)]
  ofJson? j := do
    let ms ← record? ["key", "ledger_qty", "stock_qty", "adjust_delta", "direction"] j
    pure
      { key := ← ms.get "key"
        ledger := ← ms.required "ledger_qty" int64?
        stock := ← ms.required "stock_qty" int64?
        adjustment := ← ms.required "adjust_delta" int64?
        direction := ← ms.get "direction" }

/-! ## Diagnostics -/

instance : JsonForm DeltaSummary where
  toJson s := .object [("count", ofCount s.count), ("total_delta", .integer s.total)]
  ofJson? j := do
    let ms ← record? ["count", "total_delta"] j
    pure ⟨← ms.required "count" count?, ← ms.required "total_delta" int64?⟩

instance : JsonForm LedgerDiagnostics where
  toJson d := .object
    [("from", toJson d.since), ("to", toJson d.upTo),
     ("by_movement_type", ofMap MovementClass.text toJson d.byClass),
     ("by_ref", ofMap id toJson d.byReference), ("by_trace", ofMap id toJson d.byTrace)]
  ofJson? j := do
    let ms ← record? ["from", "to", "by_movement_type", "by_ref", "by_trace"] j
    pure
      { since := ← ms.get "from"
        upTo := ← ms.get "to"
        byClass := ← ms.required "by_movement_type" (mapOf? MovementClass.ofText? ofJson?)
        byReference := ← ms.required "by_ref" (mapOf? some ofJson?)
        byTrace := ← ms.required "by_trace" (mapOf? some ofJson?) }

/-! ## Commit checks -/

instance : JsonForm CommitEffect where
  toJson e := .object
    [("key", toJson e.key), ("ref_line", .integer e.line), ("delta", .integer e.delta)]
  ofJson? j := do
    let ms ← record? ["key", "ref_line", "delta"] j
    pure
      { key := ← ms.get "key"
        line := ← ms.required "ref_line" int32?
        delta := ← ms.required "delta" int64? }

instance : JsonForm KeyBalance where
  toJson b := .object
    [("key", toJson b.key), ("ledger_qty", .integer b.ledger), ("stock_qty", .integer b.stock)]
  ofJson? j := do
    let ms ← record? ["key", "ledger_qty", "stock_qty"] j
    pure
      { key := ← ms.get "key"
        ledger := ← ms.required "ledger_qty" int64?
        stock := ← ms.required "stock_qty" int64? }

instance : JsonForm CommitIssue where
  toJson
    | .missingLedger key line =>
      tagged "issue" "missing_ledger" [("key", toJson key), ("ref_line", .integer line)]
    | .deltaMismatch key line expected recorded =>
      tagged "issue" "delta_mismatch"
        [("key", toJson key), ("ref_line", .integer line), ("expected", .integer expected),
         ("recorded", .integer recorded)]
    | .stockDrift key ledger stock =>
      tagged "issue" "stock_drift"
        [("key", toJson key), ("ledger_qty", .integer ledger), ("stock_qty", .integer stock)]
  ofJson? j := do
    let (name, j) ← tagged? "issue" j
    match name with
    | "missing_ledger" => do
      let ms ← record? ["key", "ref_line"] j
      pure (.missingLedger (← ms.get "key") (← ms.required "ref_line" int32?))
    | "delta_mismatch" => do
      let ms ← record? ["key", "ref_line", "expected", "recorded"] j
      pure (.deltaMismatch (← ms.get "key") (← ms.required "ref_line" int32?)
        (← ms.required "expected" int64?) (← ms.required "recorded" int64?))
    | "stock_drift" => do
      let ms ← record? ["key", "ledger_qty", "stock_qty"] j
      pure (.stockDrift (← ms.get "key") (← ms.required "ledger_qty" int64?)
        (← ms.required "stock_qty" int64?))
    | _ => none

instance : JsonForm CommitCheck where
  toJson c := .object
    [("reference", .string c.reference), ("touched_keys", ofCount c.touched),
     ("issues", toJson c.issues)]
  ofJson? j := do
    let ms ← record? ["reference", "touched_keys", "issues"] j
    pure ⟨← ms.get "reference", ← ms.required "touched_keys" count?, ← ms.get "issues"⟩

/-! ## Counts -/

instance : JsonForm LedgerStats where
  toJson s := .object
    [("ledger_rows", ofCount s.rows), ("outbound_rows", ofCount s.outbound),
     ("rows_since", ofCount s.since)]
  ofJson? j := do
    let ms ← record? ["ledger_rows", "outbound_rows", "rows_since"] j
    pure
      { rows := ← ms.required "ledger_rows" count?
        outbound := ← ms.required "outbound_rows" count?
        since := ← ms.required "rows_since" count? }

instance : JsonForm InsightCounts where
  toJson c := .object
    [("ledger_rows", ofCount c.ledgerRows), ("stock_rows", ofCount c.stockRows),
     ("stock_keys_matching_ledger", ofCount c.stockMatching),
     ("snapshot_rows", ofCount c.snapshotRows),
     ("snapshot_keys_matching_ledger", ofCount c.snapshotMatching),
     ("ledger_rows_30d", ofCount c.recentLedgerRows),
     ("outbound_ledger_rows", ofCount c.outboundLedgerRows),
     ("batches_with_expiry", ofCount c.batchesWithExpiry),
     ("risk_points", ofCount c.riskPoints)]
  ofJson? j := do
    let ms ← record? ["ledger_rows", "stock_rows", "stock_keys_matching_ledger",
      "snapshot_rows", "snapshot_keys_matching_ledger", "ledger_rows_30d",
      "outbound_ledger_rows", "batches_with_expiry", "risk_points"] j
    pure
      { ledgerRows := ← ms.required "ledger_rows" count?
        stockRows := ← ms.required "stock_rows" count?
        stockMatching := ← ms.required "stock_keys_matching_ledger" count?
        snapshotRows := ← ms.required "snapshot_rows" count?
        snapshotMatching := ← ms.required "snapshot_keys_matching_ledger" count?
        recentLedgerRows := ← ms.required "ledger_rows_30d" count?
        outboundLedgerRows := ← ms.required "outbound_ledger_rows" count?
        batchesWithExpiry := ← ms.required "batches_with_expiry" count?
        riskPoints := ← ms.required "risk_points" count? }

/-- Reads scores. -/
def Insights.ofJson? (j : Json) : Option Insights := do
  let ms ← record? ["inventory_health_score", "inventory_accuracy_score",
    "snapshot_accuracy_score", "batch_activity_30d", "batch_risk_score",
    "warehouse_efficiency"] j
  pure
    { health := ← ms.required "inventory_health_score" float?
      accuracy := ← ms.required "inventory_accuracy_score" float?
      snapshotAccuracy := ← ms.required "snapshot_accuracy_score" float?
      activity := ← ms.required "batch_activity_30d" count?
      batchRisk := ← ms.required "batch_risk_score" float?
      efficiency := ← ms.required "warehouse_efficiency" float? }

end Stockroom
