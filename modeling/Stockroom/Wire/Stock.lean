/-
Stockroom.Wire.Stock — JSON forms of identifiers, movements, batches and allocations.

Identifiers and batch keys are written bare and read without checking; dates, instants
and 128-bit identifiers are written as text.
-/
import Stockroom.Calendar.Reading
import Stockroom.Stock.Store
import Stockroom.Wire.Record

namespace Stockroom

open Wire

/-! ## Identifiers and times -/

instance : JsonForm WarehouseId where
  toJson w := .integer w.val
  ofJson? j := (int64? j).map .mk

instance : JsonForm ItemId where
  toJson i := .integer i.val
  ofJson? j := (int64? j).map .mk

instance : JsonForm TraceId where
  toJson t := .string t.val
  ofJson? j := (ofJson? j).map TraceId.mk

instance : JsonForm BatchKey where
  toJson b := .string b.key
  ofJson? j := (ofJson? j).map BatchKey.mk

instance : JsonForm Uuid where
  toJson u := .string u.text
  ofJson? j := (ofJson? j).bind Uuid.read?

instance : JsonForm Date where
  toJson d := .string d.text
  ofJson? j := (ofJson? j).bind Date.read?

instance : JsonForm Instant where
  toJson t := .string t.text
  ofJson? j := (ofJson? j).bind Instant.read?

/-! ## Names -/

instance : JsonForm Reason where
  toJson r := .string r.text
  ofJson? j := (name? j).bind Reason.ofText?

instance : JsonForm MovementClass where
  toJson c := .string c.text
  ofJson? j := (name? j).bind MovementClass.ofText?

instance : JsonForm RiskLevel where
  toJson r := .string r.text
  ofJson? j := (name? j).bind RiskLevel.ofText?

/-! ## Slots and movements -/

instance : JsonForm StockKey where
  toJson k := .object
    [("warehouse_id", toJson k.warehouse), ("item_id", toJson k.item), ("batch", toJson k.batch)]
  ofJson? j := do
    let ms ← record? ["warehouse_id", "item_id", "batch"] j
    pure ⟨← ms.get "warehouse_id", ← ms.get "item_id", ← ms.get "batch"⟩

instance : JsonForm StockSlot where
  toJson s := .object [("key", toJson s.key), ("qty", .integer s.quantity)]
  ofJson? j := do
    let ms ← record? ["key", "qty"] j
    pure ⟨← ms.get "key", ← ms.required "qty" int64?⟩

instance : JsonForm DocumentLine where
  toJson l := .object [("reference", .string l.reference), ("ref_line", .integer l.line)]
  ofJson? j := do
    let ms ← record? ["reference", "ref_line"] j
    pure ⟨← ms.get "reference", ← ms.required "ref_line" int32?⟩

instance : JsonForm Movement where
  toJson m := .object
    [("key", toJson m.key), ("delta", .integer m.delta), ("reason", toJson m.reason),
     ("reference", .string m.reference), ("ref_line", .integer m.line),
     ("occurred_at", toJson m.occurredAt), ("trace_id", toJson m.trace),
     ("production_date", toJson m.production), ("expiry_date", toJson m.expiry),
     ("allow_negative", .bool m.allowNegative)]
  ofJson? j := do
    let ms ← record? ["key", "delta", "reason", "reference", "ref_line", "occurred_at",
      "trace_id", "production_date", "expiry_date", "allow_negative"] j
    pure
      { key := ← ms.get "key"
        delta := ← ms.required "delta" int64?
        reason := ← ms.get "reason"
        reference := ← ms.get "reference"
        line := ← ms.required "ref_line" int32?
        occurredAt := ← ms.get "occurred_at"
        trace := ← ms.get? "trace_id"
        production := ← ms.get? "production_date"
        expiry := ← ms.get? "expiry_date"
        allowNegative := ← ms.get "allow_negative" }

instance : JsonForm LedgerEntry where
  toJson e := .object
    [("id", .integer e.id), ("key", toJson e.key), ("delta", .integer e.delta),
     ("reason", toJson e.reason), ("reference", .string e.reference),
     ("ref_line", .integer e.line), ("after_qty", .integer e.after),
     ("occurred_at", toJson e.occurredAt), ("trace_id", toJson e.trace)]
  ofJson? j := do
    let ms ← record? ["id", "key", "delta", "reason", "reference", "ref_line", "after_qty",
      "occurred_at", "trace_id"] j
    pure
      { id := ← ms.required "id" int64?
        key := ← ms.get "key"
        delta := ← ms.required "delta" int64?
        reason := ← ms.get "reason"
        reference := ← ms.get "reference"
        line := ← ms.required "ref_line" int32?
        after := ← ms.required "after_qty" int64?
        occurredAt := ← ms.get "occurred_at"
        trace := ← ms.get "trace_id" }

instance : JsonForm Outcome where
  toJson o := .object
    [("key", toJson o.key), ("before", .integer o.before), ("delta", .integer o.delta),
     ("after", .integer o.after), ("applied", .bool o.applied),
     ("ledger_id", (o.ledgerId.map Json.integer).getD .null)]
  ofJson? j := do
    let ms ← record? ["key", "before", "delta", "after", "applied", "ledger_id"] j
    pure
      { key := ← ms.get "key"
        before := ← ms.required "before" int64?
        delta := ← ms.required "delta" int64?
        after := ← ms.required "after" int64?
        applied := ← ms.get "applied"
        ledgerId := ← ms.optional "ledger_id" int64? }

/-! ## Batches -/

/-- The members of a batch without the time of its creation. -/
def Batch.members (b : Batch) : Members :=
  [("id", .integer b.id), ("item_id", toJson b.item), ("warehouse_id", toJson b.warehouse),
   ("batch_code", .string b.code), ("production_date", toJson b.production),
   ("expiry_date", toJson b.expiry)]

instance : JsonForm Batch where
  toJson b := .object (b.members ++ [("created_at", toJson b.createdAt)])
  ofJson? j := do
    let ms ← record? ["id", "item_id", "warehouse_id", "batch_code", "production_date",
      "expiry_date", "created_at"] j
    pure
      { id := ← ms.required "id" int64?
        item := ← ms.get "item_id"
        warehouse := ← ms.get "warehouse_id"
        code := ← ms.get "batch_code"
        production := ← ms.get? "production_date"
        expiry := ← ms.get? "expiry_date"
        createdAt := ← ms.get "created_at" }

instance : JsonForm BatchAgeing where
  toJson a := .object
    [("item_id", toJson a.item), ("warehouse_id", toJson a.warehouse),
     ("batch_code", .string a.code), ("expiry_date", toJson a.expiry),
     ("days_left", .integer a.daysLeft), ("risk", toJson a.risk)]
  ofJson? j := do
    let ms ← record? ["item_id", "warehouse_id", "batch_code", "expiry_date", "days_left",
      "risk"] j
    pure
      { item := ← ms.get "item_id"
        warehouse := ← ms.get "warehouse_id"
        code := ← ms.get "batch_code"
        expiry := ← ms.get "expiry_date"
        daysLeft := ← ms.required "days_left" int64?
        risk := ← ms.get "risk" }

/-! ## Allocations -/

instance : JsonForm Candidate where
  toJson c := .object
    [("key", toJson c.key), ("qty", .integer c.quantity), ("expiry_date", toJson c.expiry),
     ("slot_seq", .integer c.sequence)]
  ofJson? j := do
    let ms ← record? ["key", "qty", "expiry_date", "slot_seq"] j
    pure
      { key := ← ms.get "key"
        quantity := ← ms.required "qty" int64?
        expiry := ← ms.get? "expiry_date"
        sequence := ← ms.required "slot_seq" int64? }

instance : JsonForm PlanOptions where
  toJson o := .object
    [("on_date", toJson o.onDate), ("allow_expired", .bool o.allowExpired),
     ("preferred_batch", toJson o.preferred)]
  ofJson? j := do
    let ms ← record? ["on_date", "allow_expired", "preferred_batch"] j
    pure
      { onDate := ← ms.get "on_date"
        allowExpired := ← ms.get "allow_expired"
        preferred := ← ms.get? "preferred_batch" }

instance : JsonForm AllocationLeg where
  toJson l := .object
    [("key", toJson l.key), ("qty", .integer l.quantity), ("expiry_date", toJson l.expiry)]
  ofJson? j := do
    let ms ← record? ["key", "qty", "expiry_date"] j
    pure
      { key := ← ms.get "key"
        quantity := ← ms.required "qty" int64?
        expiry := ← ms.get? "expiry_date" }

instance : JsonForm FefoOutcome where
  toJson
    | .strict => tagged "outcome" "strict" []
    | .fallback used head =>
      tagged "outcome" "fallback" [("used", toJson used), ("fefo_head", toJson head)]
  ofJson? j := do
    let (name, j) ← tagged? "outcome" j
    match name with
    | "strict" => do
      let _ ← record? [] j
      pure .strict
    | "fallback" => do
      let ms ← record? ["used", "fefo_head"] j
      pure (.fallback (← ms.get "used") (← ms.get "fefo_head"))
    | _ => none

instance : JsonForm AllocationPlan where
  toJson p := .object
    [("item_id", toJson p.item), ("warehouse_id", toJson p.warehouse),
     ("requested", .integer p.requested), ("legs", toJson p.legs), ("outcome", toJson p.outcome)]
  ofJson? j := do
    let ms ← record? ["item_id", "warehouse_id", "requested", "legs", "outcome"] j
    pure
      { item := ← ms.get "item_id"
        warehouse := ← ms.get "warehouse_id"
        requested := ← ms.required "requested" int64?
        legs := ← ms.get "legs"
        outcome := ← ms.get "outcome" }

instance : JsonForm FefoStats where
  toJson s := .object [("hits", ofCount s.hits), ("fallbacks", ofCount s.fallbacks)]
  ofJson? j := do
    let ms ← record? ["hits", "fallbacks"] j
    pure ⟨← ms.required "hits" count?, ← ms.required "fallbacks" count?⟩

instance : JsonForm AllocationRequest where
  toJson r := .object
    [("item_id", toJson r.item), ("warehouse_id", toJson r.warehouse),
     ("qty", .integer r.quantity), ("reason", toJson r.reason),
     ("reference", .string r.reference), ("start_ref_line", .integer r.startLine),
     ("occurred_at", toJson r.occurredAt), ("trace_id", toJson r.trace),
     ("allow_expired", .bool r.allowExpired), ("preferred_batch", toJson r.preferred)]
  ofJson? j := do
    let ms ← record? ["item_id", "warehouse_id", "qty", "reason", "reference",
      "start_ref_line", "occurred_at", "trace_id", "allow_expired", "preferred_batch"] j
    pure
      { item := ← ms.get "item_id"
        warehouse := ← ms.get "warehouse_id"
        quantity := ← ms.required "qty" int64?
        reason := ← ms.get "reason"
        reference := ← ms.get "reference"
        startLine := ← ms.required "start_ref_line" int32?
        occurredAt := ← ms.get "occurred_at"
        trace := ← ms.get? "trace_id"
        allowExpired := ← ms.get "allow_expired"
        preferred := ← ms.get? "preferred_batch" }

instance : JsonForm AllocationResult where
  toJson r := .object
    [("plan", toJson r.plan), ("entries", toJson r.entries), ("replayed", .bool r.replayed)]
  ofJson? j := do
    let ms ← record? ["plan", "entries", "replayed"] j
    pure ⟨← ms.get "plan", ← ms.get "entries", ← ms.get "replayed"⟩

end Stockroom
