/-
Stockroom.Sql.Schema — the tables.

Every statement of the schema leaves alone what exists, so that applying it again is safe.
-/
namespace Stockroom

namespace Sql

/-- The lines of the statements that create the tables. -/
def schemaLines : List String := [
  "-- Inventory consistency core: ledger, current stock, snapshots, batches,",
  "-- soft reservations.",
  "--",
  "-- \"No batch\" is stored as NULL batch_code; every batch-bearing table exposes a",
  "-- generated batch_code_key so unique keys and joins never compare NULLs.",
  "CREATE TABLE IF NOT EXISTS batches (",
  "id BIGSERIAL PRIMARY KEY,",
  "item_id BIGINT NOT NULL,",
  "warehouse_id BIGINT NOT NULL,",
  "batch_code TEXT NOT NULL,",
  "production_date DATE,",
  "expiry_date DATE,",
  "created_at TIMESTAMPTZ NOT NULL DEFAULT NOW(),",
  "CONSTRAINT uq_batches_item_wh_code UNIQUE (item_id, warehouse_id, batch_code),",
  "CONSTRAINT ck_batches_dates CHECK (",
  "expiry_date IS NULL OR production_date IS NULL OR expiry_date >= production_date",
  ")",
  ");",
  "CREATE INDEX IF NOT EXISTS ix_batches_expiry ON batches (expiry_date)",
  "WHERE expiry_date IS NOT NULL;",
  "CREATE TABLE IF NOT EXISTS stocks (",
  "id BIGSERIAL PRIMARY KEY,",
  "warehouse_id BIGINT NOT NULL,",
  "item_id BIGINT NOT NULL,",
  "batch_code TEXT,",
  "batch_code_key TEXT GENERATED ALWAYS AS (COALESCE(batch_code, '__NULL_BATCH__')) STORED,",
  "qty BIGINT NOT NULL DEFAULT 0,",
  "updated_at TIMESTAMPTZ NOT NULL DEFAULT NOW(),",
  "CONSTRAINT uq_stocks_slot UNIQUE (warehouse_id, item_id, batch_code_key)",
  ");",
  "CREATE TABLE IF NOT EXISTS stock_ledger (",
  "id BIGSERIAL PRIMARY KEY,",
  "warehouse_id BIGINT NOT NULL,",
  "item_id BIGINT NOT NULL,",
  "batch_code TEXT,",
  "batch_code_key TEXT GENERATED ALWAYS AS (COALESCE(batch_code, '__NULL_BATCH__')) STORED,",
  "delta BIGINT NOT NULL,",
  "reason TEXT NOT NULL,",
  "ref TEXT NOT NULL,",
  "ref_line INTEGER NOT NULL CHECK (ref_line >= 1),",
  "after_qty BIGINT NOT NULL,",
  "occurred_at TIMESTAMPTZ NOT NULL,",
  "trace_id TEXT NOT NULL,",
  "created_at TIMESTAMPTZ NOT NULL DEFAULT NOW(),",
  "CONSTRAINT uq_ledger_ref_line UNIQUE (ref, ref_line)",
  ");",
  "CREATE INDEX IF NOT EXISTS ix_ledger_occurred_at ON stock_ledger (occurred_at);",
  "CREATE INDEX IF NOT EXISTS ix_ledger_slot ON stock_ledger",
  "(warehouse_id, item_id, batch_code_key);",
  "CREATE TABLE IF NOT EXISTS stock_snapshots (",
  "snapshot_date DATE NOT NULL,",
  "warehouse_id BIGINT NOT NULL,",
  "item_id BIGINT NOT NULL,",
  "batch_code TEXT,",
  "batch_code_key TEXT GENERATED ALWAYS AS (COALESCE(batch_code, '__NULL_BATCH__')) STORED,",
  "qty_on_hand BIGINT NOT NULL,",
  "qty_available BIGINT NOT NULL,",
  "qty_allocated BIGINT NOT NULL DEFAULT 0,",
  "created_at TIMESTAMPTZ NOT NULL DEFAULT NOW(),",
  "CONSTRAINT uq_snapshot_slot UNIQUE (snapshot_date, warehouse_id, item_id, batch_code_key)",
  ");",
  "CREATE TABLE IF NOT EXISTS reservations (",
  "id UUID PRIMARY KEY,",
  "platform TEXT NOT NULL,",
  "shop_id TEXT NOT NULL,",
  "warehouse_id BIGINT NOT NULL,",
  "ref TEXT NOT NULL,",
  "status TEXT NOT NULL CHECK (status IN ('open', 'consumed', 'expired', 'cancelled')),",
  "trace_id TEXT NOT NULL,",
  "created_at TIMESTAMPTZ NOT NULL,",
  "updated_at TIMESTAMPTZ NOT NULL,",
  "expire_at TIMESTAMPTZ NOT NULL,",
  "CONSTRAINT uq_reservations_business_key UNIQUE (platform, shop_id, warehouse_id, ref)",
  ");",
  "CREATE INDEX IF NOT EXISTS ix_reservations_open_expiry",
  "ON reservations (expire_at, id) WHERE status = 'open';",
  "CREATE TABLE IF NOT EXISTS reservation_lines (",
  "reservation_id UUID NOT NULL REFERENCES reservations (id),",
  "ref_line INTEGER NOT NULL CHECK (ref_line >= 1),",
  "item_id BIGINT NOT NULL,",
  "qty BIGINT NOT NULL CHECK (qty > 0),",
  "consumed_qty BIGINT NOT NULL DEFAULT 0,",
  "PRIMARY KEY (reservation_id, ref_line),",
  "CONSTRAINT ck_reservation_lines_consumed CHECK (consumed_qty >= 0 AND consumed_qty <= qty)",
  ");"]

/-- The statements that create the tables. -/
def schema : String := " ".intercalate schemaLines

end Sql

end Stockroom
