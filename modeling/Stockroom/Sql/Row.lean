/-
Stockroom.Sql.Row — domain values out of rows.

A row is read column by column; the first column that cannot be read is the failure.
Stored values are checked again, and one that breaks a rule is a failure of the backend,
not of the caller.
-/
import Stockroom.Sql.Session

namespace Stockroom

namespace Sql

/-! ## Columns -/

/-- What is said of a null where a value is needed. -/
def unexpectedNull : String := "unexpected null; try decoding as an \x60Option\x60"

namespace Row

/-- A failure to read a column. -/
def failure (column detail : String) : StoreError :=
  .storage ("failed to read column " ++ column ++ ": " ++ detail)

/-- A value of a column, null allowed. -/
def read? {α : Type} (kind : Value → Option α) (row : Row) (column : String) :
    Except StoreError (Option α) :=
  match row.lookup column with
  | none => .error (failure column ("no column found for name: " ++ column))
  | some .null => .ok none
  | some v =>
    match kind v with
    | some a => .ok (some a)
    | none => .error (failure column "value of another type")

/-- A value of a column. -/
def read {α : Type} (kind : Value → Option α) (row : Row) (column : String) :
    Except StoreError α := do
  match ← read? kind row column with
  | some a => pure a
  | none =>
    .error (failure column
      ("error occurred while decoding column \"" ++ column ++ "\": " ++ unexpectedNull))

/-- An integer. -/
def integer : Row → String → Except StoreError Int :=
  read fun v => match v with | .integer n => some n | _ => none

/-- A text. -/
def text : Row → String → Except StoreError String :=
  read fun v => match v with | .text s => some s | _ => none

/-- A date. -/
def date : Row → String → Except StoreError Date :=
  read fun v => match v with | .date d => some d | _ => none

/-- A date that may be missing. -/
def date? : Row → String → Except StoreError (Option Date) :=
  read? fun v => match v with | .date d => some d | _ => none

/-- An instant. -/
def instant : Row → String → Except StoreError Instant :=
  read fun v => match v with | .instant t => some t | _ => none

/-- A 128-bit identifier. -/
def uuid : Row → String → Except StoreError Uuid :=
  read fun v => match v with | .uuid u => some u | _ => none

/-- A count, which the server keeps in 64 bits with a sign. -/
def count (row : Row) (column : String) : Except StoreError Nat := do
  let n ← integer row column
  pure (n % 18446744073709551616).toNat

/-- The value of a row that has one column. -/
def only {α : Type} (operation : String) (kind : Value → Option α) (row : Row) :
    Except StoreError α :=
  let failure (detail : String) : StoreError :=
    .storage ("sqlx error in " ++ operation ++ ": " ++ detail)
  match row with
  | [] => .error (failure "column index out of bounds: the len is 0, but the index is 0")
  | (_, .null) :: _ =>
    .error (failure ("error occurred while decoding column 0: " ++ unexpectedNull))
  | (_, v) :: _ =>
    match kind v with
    | some a => .ok a
    | none => .error (failure "value of another type")

/-! ## Domain values -/

/-- A stored value that breaks a rule. -/
def stored {α : Type} (x : Except DomainError α) : Except StoreError α :=
  x.mapError (fun e => .storage ("invalid stored value: " ++ e.message))

/-- The warehouse of a row. -/
def warehouse (row : Row) : Except StoreError WarehouseId := do
  stored (WarehouseId.ofInt (← row.integer "warehouse_id"))

/-- The item of a row. -/
def item (row : Row) : Except StoreError ItemId := do
  stored (ItemId.ofInt (← row.integer "item_id"))

/-- The slot of a row. -/
def slotKey (row : Row) : Except StoreError StockKey := do
  pure ⟨← row.warehouse, ← row.item, ⟨← row.text "batch_code_key"⟩⟩

/-- The business key of a row. -/
def reservationKey (row : Row) : Except StoreError ReservationKey := do
  let platform ← row.text "platform"
  let shop ← row.text "shop_id"
  let warehouse ← row.warehouse
  let reference ← row.text "ref"
  pure { platform, shop, warehouse, reference }

/-- The ledger entry of a row. -/
def entry (row : Row) : Except StoreError LedgerEntry := do
  let reason ← row.text "reason"
  let trace ← row.text "trace_id"
  pure
    { id := ← row.integer "id"
      key := ← row.slotKey
      delta := ← row.integer "delta"
      reason := ← stored (Reason.read reason)
      reference := ← row.text "ref"
      line := ← row.integer "ref_line"
      after := ← row.integer "after_qty"
      occurredAt := ← row.instant "occurred_at"
      trace := ⟨trace⟩ }

/-- The batch of a row. -/
def batch (row : Row) : Except StoreError Batch := do
  pure
    { id := ← row.integer "id"
      item := ← row.item
      warehouse := ← row.warehouse
      code := ← row.text "batch_code"
      production := ← row.date? "production_date"
      expiry := ← row.date? "expiry_date"
      createdAt := ← row.instant "created_at" }

/-- The slot of a row that may feed an allocation; its row number says when it was created. -/
def candidate (row : Row) : Except StoreError Candidate := do
  let id ← row.integer "id"
  pure
    { key := ← row.slotKey
      quantity := ← row.integer "qty"
      expiry := ← row.date? "expiry_date"
      sequence := id }

/-- The slot of a row, with its quantity. -/
def slot (row : Row) : Except StoreError StockSlot := do
  pure ⟨← row.slotKey, ← row.integer "qty"⟩

/-- The balance of a row. -/
def balance (row : Row) : Except StoreError KeyBalance := do
  pure ⟨← row.slotKey, ← row.integer "ledger_qty", ← row.integer "stock_qty"⟩

/-- The snapshot row of a row. -/
def snapshotRow (row : Row) : Except StoreError SnapshotRow := do
  pure
    { date := ← row.date "snapshot_date"
      key := ← row.slotKey
      onHand := ← row.integer "qty_on_hand"
      available := ← row.integer "qty_available"
      allocated := ← row.integer "qty_allocated" }

/-- The reserved line of a row. -/
def reservationLine (row : Row) : Except StoreError ReservationLine := do
  pure
    { line := ← row.integer "ref_line"
      item := ← row.item
      quantity := ← row.integer "qty"
      consumed := ← row.integer "consumed_qty" }

end Row

/-- The values of rows. -/
def decode {α : Type} (read : Row → Except StoreError α) (rs : List Row) : SqlM (List α) :=
  StoreM.ofResult (rs.mapM read)

end Sql

end Stockroom
