/-
Stockroom.Sql.Statement — everything that is ever asked of the server.

A statement is what it is for, with the values it carries; `Statement.text` and
`Statement.parameters` say how it is put to the server.
-/
import Stockroom.Reservation.Basic
import Stockroom.Sql.Schema
import Stockroom.Sql.Value
import Stockroom.Stock.Batch
import Stockroom.Stock.Movement
import Stockroom.Stock.Snapshot

namespace Stockroom

namespace Sql

/-- A statement. A lock holds until the transaction ends. -/
inductive Statement where
  | begin
  | commit
  | rollback
  | createTables
  /-- The ledger row of a document line. -/
  | selectEntry (line : DocumentLine)
  /-- The ledger rows of a reference, by line. -/
  | selectEntries (reference : String)
  /-- The ledger rows between two instants, both included. -/
  | selectEntriesBetween (since upTo : Instant)
  /-- The totals of the ledger inside a cut. -/
  | selectTotals (cut : LedgerCut)
  /-- Row counts of the ledger. -/
  | selectLedgerStats (since : Instant)
  | insertEntry (m : Movement) (after : Int)
  | selectBatch (identity : BatchIdentity) (lock : Bool)
  | selectBatches
  | insertBatch (identity : BatchIdentity) (production expiry : Option Date)
  | updateExpiry (batch : Int) (expiry : Option Date)
  /-- Creates an empty slot, unless it exists. -/
  | insertSlot (key : StockKey)
  /-- Locks a slot, and reads its row number and quantity. -/
  | lockSlot (key : StockKey)
  | selectQuantity (key : StockKey)
  | selectSlots
  /-- The slots of an item in a warehouse that hold something, with expiry dates. -/
  | selectCandidates (item : ItemId) (warehouse : WarehouseId) (lock : Bool)
  | updateQuantity (slot quantity : Int)
  /-- The ledger totals and quantities of keys. -/
  | selectBalances (keys : List StockKey)
  | selectSnapshot (day : Date)
  | deleteSnapshot (day : Date)
  | insertSnapshot (day : Date)
  | selectSnapshotSummary (day : Date)
  /-- Waits for the other writers that use the same text. -/
  | advisoryLock (text : String)
  | selectReservation (id : Uuid) (lock : Bool)
  | selectReservationByKey (key : ReservationKey) (lock : Bool)
  /-- The business key of a reservation. -/
  | selectReservationKey (id : Uuid)
  | selectLines (id : Uuid)
  | upsertReservation (r : Reservation)
  | upsertLine (id : Uuid) (line : ReservationLine)
  /-- Open reservations past their time to live, the oldest first. -/
  | selectExpired (now : Instant) (limit : Int)
  deriving DecidableEq

namespace Statement

/-! ## Columns -/

/-- The columns of a ledger row. -/
def entryColumns : String :=
  "id, warehouse_id, item_id, batch_code_key, delta, reason, ref, " ++
    "ref_line, after_qty, occurred_at, trace_id"

/-- The columns of a batch. -/
def batchColumns : String :=
  "id, item_id, warehouse_id, batch_code, production_date, expiry_date, created_at"

/-- The columns of a reservation. -/
def reservationColumns : String :=
  "id, platform, shop_id, warehouse_id, ref, status, trace_id, created_at, updated_at, expire_at"

/-- The end of a statement that locks the rows it finds. -/
def forUpdate (lock : Bool) : String := if lock then " FOR UPDATE" else ""

/-- The comparison that a cut asks for. -/
def comparison : LedgerCut → String
  | .atOrBefore _ => "<="
  | .before _ => "<"

/-! ## Text -/

/-- The text that the server is sent, with places for the parameters. -/
def text : Statement → String
  | begin => "BEGIN"
  | commit => "COMMIT"
  | rollback => "ROLLBACK"
  | createTables => schema
  | selectEntry _ =>
    "SELECT " ++ entryColumns ++ " FROM stock_ledger WHERE ref = $1 AND ref_line = $2"
  | selectEntries _ =>
    "SELECT " ++ entryColumns ++ " FROM stock_ledger WHERE ref = $1 ORDER BY ref_line"
  | selectEntriesBetween _ _ =>
    "SELECT " ++ entryColumns ++
      " FROM stock_ledger WHERE occurred_at >= $1 AND occurred_at <= $2 ORDER BY occurred_at, id"
  | selectTotals cut =>
    "SELECT warehouse_id, item_id, batch_code_key, SUM(delta)::BIGINT AS qty " ++
      "FROM stock_ledger WHERE occurred_at " ++ comparison cut ++ " $1 " ++
      "GROUP BY warehouse_id, item_id, batch_code_key HAVING SUM(delta) <> 0"
  | selectLedgerStats _ =>
    "SELECT COUNT(*) AS ledger_rows, COUNT(*) FILTER (WHERE delta < 0) AS outbound_rows, " ++
      "COUNT(*) FILTER (WHERE occurred_at >= $1) AS rows_since FROM stock_ledger"
  | insertEntry _ _ =>
    "INSERT INTO stock_ledger ( warehouse_id, item_id, batch_code, delta, reason, " ++
      "ref, ref_line, after_qty, occurred_at, trace_id ) " ++
      "VALUES ($1, $2, $3, $4, $5, $6, $7, $8, $9, $10) RETURNING id"
  | selectBatch _ lock =>
    "SELECT " ++ batchColumns ++ " FROM batches " ++
      "WHERE item_id = $1 AND warehouse_id = $2 AND batch_code = $3" ++ forUpdate lock
  | selectBatches => "SELECT " ++ batchColumns ++ " FROM batches ORDER BY id"
  | insertBatch _ _ _ =>
    "INSERT INTO batches (item_id, warehouse_id, batch_code, production_date, expiry_date) " ++
      "VALUES ($1, $2, $3, $4, $5) " ++
      "ON CONFLICT (item_id, warehouse_id, batch_code) DO NOTHING RETURNING " ++ batchColumns
  | updateExpiry _ _ => "UPDATE batches SET expiry_date = $2 WHERE id = $1"
  | insertSlot _ =>
    "INSERT INTO stocks (warehouse_id, item_id, batch_code, qty) VALUES ($1, $2, $3, 0) " ++
      "ON CONFLICT (warehouse_id, item_id, batch_code_key) DO NOTHING"
  | lockSlot _ =>
    "SELECT id, qty FROM stocks " ++
      "WHERE warehouse_id = $1 AND item_id = $2 AND batch_code_key = $3 FOR UPDATE"
  | selectQuantity _ =>
    "SELECT qty FROM stocks WHERE warehouse_id = $1 AND item_id = $2 AND batch_code_key = $3"
  | selectSlots =>
    "SELECT warehouse_id, item_id, batch_code_key, qty FROM stocks " ++
      "ORDER BY warehouse_id, item_id, batch_code_key"
  | selectCandidates _ _ lock =>
    "SELECT s.id, s.warehouse_id, s.item_id, s.batch_code_key, s.qty, b.expiry_date " ++
      "FROM stocks s LEFT JOIN batches b ON b.item_id = s.item_id " ++
      "AND b.warehouse_id = s.warehouse_id AND b.batch_code = s.batch_code " ++
      "WHERE s.item_id = $1 AND s.warehouse_id = $2 AND s.qty > 0 ORDER BY s.id" ++
      (if lock then " FOR UPDATE OF s" else "")
  | updateQuantity _ _ => "UPDATE stocks SET qty = $2, updated_at = NOW() WHERE id = $1"
  | selectBalances _ =>
    "SELECT k.warehouse_id, k.item_id, k.batch_code_key, COALESCE(( " ++
      "SELECT SUM(l.delta) FROM stock_ledger l WHERE l.warehouse_id = k.warehouse_id " ++
      "AND l.item_id = k.item_id AND l.batch_code_key = k.batch_code_key ), 0)::BIGINT " ++
      "AS ledger_qty, COALESCE(s.qty, 0)::BIGINT AS stock_qty " ++
      "FROM UNNEST($1::BIGINT[], $2::BIGINT[], $3::TEXT[]) " ++
      "AS k(warehouse_id, item_id, batch_code_key) " ++
      "LEFT JOIN stocks s ON s.warehouse_id = k.warehouse_id AND s.item_id = k.item_id " ++
      "AND s.batch_code_key = k.batch_code_key"
  | selectSnapshot _ =>
    "SELECT snapshot_date, warehouse_id, item_id, batch_code_key, " ++
      "qty_on_hand, qty_available, qty_allocated FROM stock_snapshots " ++
      "WHERE snapshot_date = $1 ORDER BY warehouse_id, item_id, batch_code_key"
  | deleteSnapshot _ => "DELETE FROM stock_snapshots WHERE snapshot_date = $1"
  | insertSnapshot _ =>
    "INSERT INTO stock_snapshots ( snapshot_date, warehouse_id, item_id, batch_code, " ++
      "qty_on_hand, qty_available, qty_allocated ) " ++
      "SELECT $1, warehouse_id, item_id, NULLIF(batch_code_key, '__NULL_BATCH__'), " ++
      "SUM(delta)::BIGINT, SUM(delta)::BIGINT, 0 FROM stock_ledger WHERE occurred_at < $2 " ++
      "GROUP BY warehouse_id, item_id, batch_code_key HAVING SUM(delta) <> 0"
  | selectSnapshotSummary _ =>
    "SELECT COUNT(*) AS slot_count, COALESCE(SUM(qty_on_hand), 0)::BIGINT AS total_qty " ++
      "FROM stock_snapshots WHERE snapshot_date = $1"
  | advisoryLock _ => "SELECT pg_advisory_xact_lock(hashtext($1))"
  | selectReservation _ lock =>
    "SELECT " ++ reservationColumns ++ " FROM reservations WHERE id = $1" ++ forUpdate lock
  | selectReservationByKey _ lock =>
    "SELECT " ++ reservationColumns ++ " FROM reservations " ++
      "WHERE platform = $1 AND shop_id = $2 AND warehouse_id = $3 AND ref = $4" ++ forUpdate lock
  | selectReservationKey _ =>
    "SELECT platform, shop_id, warehouse_id, ref FROM reservations WHERE id = $1"
  | selectLines _ =>
    "SELECT ref_line, item_id, qty, consumed_qty FROM reservation_lines " ++
      "WHERE reservation_id = $1 ORDER BY ref_line"
  | upsertReservation _ =>
    "INSERT INTO reservations ( id, platform, shop_id, warehouse_id, ref, status, " ++
      "trace_id, created_at, updated_at, expire_at ) " ++
      "VALUES ($1, $2, $3, $4, $5, $6, $7, $8, $9, $10) ON CONFLICT (id) DO UPDATE SET " ++
      "status = EXCLUDED.status, trace_id = EXCLUDED.trace_id, " ++
      "updated_at = EXCLUDED.updated_at, expire_at = EXCLUDED.expire_at"
  | upsertLine _ _ =>
    "INSERT INTO reservation_lines (reservation_id, ref_line, item_id, qty, consumed_qty) " ++
      "VALUES ($1, $2, $3, $4, $5) ON CONFLICT (reservation_id, ref_line) DO UPDATE SET " ++
      "item_id = EXCLUDED.item_id, qty = EXCLUDED.qty, consumed_qty = EXCLUDED.consumed_qty"
  | selectExpired _ _ =>
    "SELECT id FROM reservations WHERE status = 'open' AND expire_at < $1 " ++
      "ORDER BY expire_at, id LIMIT $2"

/-! ## Parameters -/

/-- The parts of a slot's key that a row is found by. -/
def keyParameters (k : StockKey) : List Value :=
  [.integer k.warehouse.val, .integer k.item.val, .text k.batch.key]

/-- The parts of a slot's key that a row is written with: no batch is no code. -/
def codeParameters (k : StockKey) : List Value :=
  [.integer k.warehouse.val, .integer k.item.val, .ofText? k.batch.code?]

/-- The identity of a batch. -/
def batchParameters (b : BatchIdentity) : List Value :=
  [.integer b.item.val, .integer b.warehouse.val, .text b.code]

/-- The business key of a reservation. -/
def reservationKeyParameters (k : ReservationKey) : List Value :=
  [.text k.platform, .text k.shop, .integer k.warehouse.val, .text k.reference]

/-- The values that the server is sent with the text. -/
def parameters : Statement → List Value
  | begin | commit | rollback | createTables | selectBatches | selectSlots => []
  | selectEntry l => [.text l.reference, .integer l.line]
  | selectEntries reference => [.text reference]
  | selectEntriesBetween since upTo => [.instant since, .instant upTo]
  | selectTotals cut => [.instant cut.instant]
  | selectLedgerStats since => [.instant since]
  | insertEntry m after =>
    codeParameters m.key ++
      [.integer m.delta, .text m.reason.text, .text m.reference, .integer m.line,
       .integer after, .instant m.occurredAt, .text m.effectiveTrace.val]
  | selectBatch identity _ => batchParameters identity
  | insertBatch identity production expiry =>
    batchParameters identity ++ [.ofDate? production, .ofDate? expiry]
  | updateExpiry batch expiry => [.integer batch, .ofDate? expiry]
  | insertSlot k => codeParameters k
  | lockSlot k => keyParameters k
  | selectQuantity k => keyParameters k
  | selectCandidates item warehouse _ => [.integer item.val, .integer warehouse.val]
  | updateQuantity slot quantity => [.integer slot, .integer quantity]
  | selectBalances ks =>
    [.integers (ks.map (·.warehouse.val)), .integers (ks.map (·.item.val)),
     .texts (ks.map (·.batch.key))]
  | selectSnapshot d => [.date d]
  | deleteSnapshot d => [.date d]
  | insertSnapshot d => [.date d, .instant (LedgerCut.endOfDay d)]
  | selectSnapshotSummary d => [.date d]
  | advisoryLock s => [.text s]
  | selectReservation id _ => [.uuid id]
  | selectReservationByKey k _ => reservationKeyParameters k
  | selectReservationKey id => [.uuid id]
  | selectLines id => [.uuid id]
  | upsertReservation r =>
    .uuid r.id :: reservationKeyParameters r.key ++
      [.text r.status.text, .text r.trace.val, .instant r.createdAt, .instant r.updatedAt,
       .instant r.expireAt]
  | upsertLine id l =>
    [.uuid id, .integer l.line, .integer l.item.val, .integer l.quantity, .integer l.consumed]
  | selectExpired now limit => [.instant now, .integer limit]

/-! ## Kinds -/

/-- Whether the statement begins or ends a transaction. -/
def isControl : Statement → Bool
  | begin | commit | rollback => true
  | _ => false

/-- Whether the statement writes to a table. -/
def isWrite : Statement → Bool
  | insertEntry _ _ | insertBatch _ _ _ | updateExpiry _ _ | insertSlot _ | updateQuantity _ _
  | deleteSnapshot _ | insertSnapshot _ | upsertReservation _ | upsertLine _ _ => true
  | _ => false

end Statement

end Sql

end Stockroom
