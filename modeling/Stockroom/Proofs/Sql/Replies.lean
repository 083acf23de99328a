/-
Stockroom.Proofs.Sql.Replies — replies that have the form of their statement, and replies that a
call fails on.

* `Statement.columns` lists the columns that a statement asks for, with their types.
  `Server.WellTyped` says of a server that whatever it answers has them all, with values of their
  types; which values, and how many rows, is left open.
* `Exchange.Fails` says that a call cannot go on with a reply: it is an error, a row is missing
  that has to be there, or a value in a row breaks a rule of the domain (`Statement.Reads`).
-/
import Stockroom.Proofs.Sql.Calls

namespace Stockroom

namespace Sql

/-! ## Types of columns -/

/-- The type of a column. -/
inductive ColumnType where
  | integer | text | date | instant | uuid

/-- A column; some may hold no value. -/
structure Column where
  name : String
  type : ColumnType
  nullable : Bool := false

/-- Whether a value may stand in the column. -/
def Column.Admits (c : Column) : Value → Prop
  | .null => c.nullable = true
  | .integer _ => c.type = .integer
  | .text _ => c.type = .text
  | .date _ => c.type = .date
  | .instant _ => c.type = .instant
  | .uuid _ => c.type = .uuid
  | .integers _ | .texts _ => False

/-- The columns of a slot's key. -/
def slotColumns : List Column :=
  [⟨"warehouse_id", .integer, false⟩, ⟨"item_id", .integer, false⟩,
   ⟨"batch_code_key", .text, false⟩]

/-- The columns of a business key. -/
def reservationKeyColumns : List Column :=
  [⟨"platform", .text, false⟩, ⟨"shop_id", .text, false⟩, ⟨"warehouse_id", .integer, false⟩,
   ⟨"ref", .text, false⟩]

/-- The columns of a reservation without its lines. -/
def reservationHeadColumns : List Column :=
  ⟨"id", .uuid, false⟩ :: reservationKeyColumns ++
    [⟨"status", .text, false⟩, ⟨"trace_id", .text, false⟩, ⟨"created_at", .instant, false⟩,
     ⟨"updated_at", .instant, false⟩, ⟨"expire_at", .instant, false⟩]

/-- The columns that a statement asks for. -/
def Statement.columns : Statement → List Column
  | selectEntry _ | selectEntries _ | selectEntriesBetween _ _ =>
    ⟨"id", .integer, false⟩ :: slotColumns ++
      [⟨"delta", .integer, false⟩, ⟨"reason", .text, false⟩, ⟨"ref", .text, false⟩,
       ⟨"ref_line", .integer, false⟩, ⟨"after_qty", .integer, false⟩,
       ⟨"occurred_at", .instant, false⟩, ⟨"trace_id", .text, false⟩]
  | selectTotals _ => slotColumns ++ [⟨"qty", .integer, false⟩]
  | selectLedgerStats _ =>
    [⟨"ledger_rows", .integer, false⟩, ⟨"outbound_rows", .integer, false⟩,
     ⟨"rows_since", .integer, false⟩]
  | insertEntry _ _ => [⟨"id", .integer, false⟩]
  | selectBatch _ _ | selectBatches | insertBatch _ _ _ =>
    [⟨"id", .integer, false⟩, ⟨"item_id", .integer, false⟩, ⟨"warehouse_id", .integer, false⟩,
     ⟨"batch_code", .text, false⟩, ⟨"production_date", .date, true⟩,
     ⟨"expiry_date", .date, true⟩, ⟨"created_at", .instant, false⟩]
  | lockSlot _ => [⟨"id", .integer, false⟩, ⟨"qty", .integer, false⟩]
  | selectQuantity _ => [⟨"qty", .integer, false⟩]
  | selectSlots => slotColumns ++ [⟨"qty", .integer, false⟩]
  | selectCandidates _ _ _ =>
    ⟨"id", .integer, false⟩ :: slotColumns ++
      [⟨"qty", .integer, false⟩, ⟨"expiry_date", .date, true⟩]
  | selectBalances _ =>
    slotColumns ++ [⟨"ledger_qty", .integer, false⟩, ⟨"stock_qty", .integer, false⟩]
  | selectSnapshot _ =>
    ⟨"snapshot_date", .date, false⟩ :: slotColumns ++
      [⟨"qty_on_hand", .integer, false⟩, ⟨"qty_available", .integer, false⟩,
       ⟨"qty_allocated", .integer, false⟩]
  | selectSnapshotSummary _ => [⟨"slot_count", .integer, false⟩, ⟨"total_qty", .integer, false⟩]
  | selectReservation _ _ | selectReservationByKey _ _ => reservationHeadColumns
  | selectReservationKey _ => reservationKeyColumns
  | selectLines _ =>
    [⟨"ref_line", .integer, false⟩, ⟨"item_id", .integer, false⟩, ⟨"qty", .integer, false⟩,
     ⟨"consumed_qty", .integer, false⟩]
  | selectExpired _ _ => [⟨"id", .uuid, false⟩]
  | _ => []

/-- Whether a row has the columns, with values of their types. -/
def Row.HasColumns (row : Row) (columns : List Column) : Prop :=
  ∀ c ∈ columns, ∃ v, row.lookup c.name = some v ∧ c.Admits v

/-- Whether every row that the server may ever find has the columns that were asked for. -/
def Server.WellTyped (server : Server) : Prop :=
  ∀ past q rs, server past q = .rows rs → ∀ row ∈ rs, row.HasColumns q.columns

section Columns

variable {row : Row} {columns : List Column}

theorem Row.HasColumns.integer (h : row.HasColumns columns) {name : String}
    (hc : ⟨name, .integer, false⟩ ∈ columns) : ∃ n, row.integer name = .ok n := by
  obtain ⟨v, hv, hadmits⟩ := h _ hc
  cases v <;> simp [Column.Admits] at hadmits
  exact ⟨_, by simp [Row.integer, Row.read, Row.read?, hv]; rfl⟩

theorem Row.HasColumns.instant (h : row.HasColumns columns) {name : String}
    (hc : ⟨name, .instant, false⟩ ∈ columns) : ∃ t, row.instant name = .ok t := by
  obtain ⟨v, hv, hadmits⟩ := h _ hc
  cases v <;> simp [Column.Admits] at hadmits
  exact ⟨_, by simp [Row.instant, Row.read, Row.read?, hv]; rfl⟩

end Columns

/-! ## Failing replies -/

/-- Whether a reader makes something of a row. -/
def Row.Readable {α : Type} (read : Row → Except StoreError α) (row : Row) : Prop :=
  ∃ a, read row = .ok a

/-- Whether a row can be read as a reservation without its lines. -/
structure Row.ReadsReservation (row : Row) : Prop where
  id : row.Readable (Row.uuid · "id")
  key : row.Readable Row.reservationKey
  status : row.Readable fun r => do Row.stored (ReservationStatus.read (← r.text "status"))
  trace : row.Readable (Row.text · "trace_id")
  created : row.Readable (Row.instant · "created_at")
  updated : row.Readable (Row.instant · "updated_at")
  expires : row.Readable (Row.instant · "expire_at")

/-- Whether the rows found by a statement of a call that may write can be read as what it asks
for: all of them, or the first one where only that counts. -/
def Statement.Reads : Statement → List Row → Prop
  | selectEntry _, rs => ∀ row ∈ rs.head?, row.Readable Row.entry
  | selectEntries _, rs => ∀ row ∈ rs, row.Readable Row.entry
  | insertEntry _ _, rs => ∃ row ∈ rs.head?, row.Readable (Row.integer · "id")
  | selectBatch _ _, rs | insertBatch _ _ _, rs => ∀ row ∈ rs.head?, row.Readable Row.batch
  | lockSlot _, rs => ∃ row ∈ rs.head?, row.Readable Stock.readSlot
  | selectQuantity _, rs => ∀ row ∈ rs.head?, row.Readable Stock.readQuantity
  | selectCandidates _ _ _, rs => ∀ row ∈ rs, row.Readable Row.candidate
  | selectSnapshotSummary _, rs =>
    ∃ row ∈ rs.head?, row.Readable (Row.count · "slot_count") ∧
      row.Readable (Row.integer · "total_qty")
  | selectReservation _ _, rs | selectReservationByKey _ _, rs =>
    ∀ row ∈ rs.head?, row.ReadsReservation
  | selectReservationKey _, rs => ∀ row ∈ rs.head?, row.Readable Row.reservationKey
  | selectLines _, rs => ∀ row ∈ rs, row.Readable Row.reservationLine
  | _, _ => True

/-- Whether a call cannot go on with the reply: it is an error, or cannot be read. -/
def Exchange.Fails (x : Exchange) : Prop :=
  match x.reply with
  | .error _ => True
  | .rows rs => ¬ x.statement.Reads rs

namespace Reply

variable {α : Type} {operation : String} {read : Row → Except StoreError α} {r : Reply}

theorem found_eq_ok_iff {rs : List Row} : r.found operation = .ok rs ↔ r = .rows rs := by
  cases r <;> simp [found]

theorem all_eq_ok {as : List α} (h : r.all operation read = .ok as) :
    ∃ rs, r = .rows rs ∧ rs.mapM read = .ok as := by
  cases r with
  | rows rs => exact ⟨rs, rfl, h⟩
  | error e => cases h

/-- Only readable rows can all be read. -/
theorem readable_of_mapM_eq_ok {rs : List Row} {as : List α} (h : rs.mapM read = .ok as) :
    ∀ row ∈ rs, row.Readable read := by
  induction rs generalizing as with
  | nil => simp
  | cons row rest ih =>
    rw [List.mapM_cons] at h
    obtain ⟨b, hb, h⟩ := bind_eq_ok_iff.mp h
    obtain ⟨bs, hbs, -⟩ := bind_eq_ok_iff.mp h
    simpa using ⟨⟨b, hb⟩, ih hbs⟩

/-- Whatever was read was read out of one of the rows. -/
theorem exists_of_mapM_eq_ok {rs : List Row} {as : List α} (h : rs.mapM read = .ok as) :
    ∀ a ∈ as, ∃ row ∈ rs, read row = .ok a := by
  induction rs generalizing as with
  | nil =>
    cases h
    simp
  | cons row rest ih =>
    rw [List.mapM_cons] at h
    obtain ⟨b, hb, h⟩ := bind_eq_ok_iff.mp h
    obtain ⟨bs, hbs, h⟩ := bind_eq_ok_iff.mp h
    cases h
    simpa [hb] using fun a ha => .inr (ih hbs a ha)

theorem first?_eq_ok {a : Option α} (h : r.first? operation read = .ok a) :
    ∃ rs, r = .rows rs ∧ (rs.head? = none ∧ a = none ∨
      ∃ row b, rs.head? = some row ∧ read row = .ok b ∧ a = some b) := by
  cases r with
  | error e => cases h
  | rows rs =>
    refine ⟨rs, rfl, ?_⟩
    cases rs with
    | nil =>
      cases h
      exact .inl ⟨rfl, rfl⟩
    | cons row rest =>
      cases hb : read row with
      | error e =>
        simp only [first?, found, List.head?_cons, bind, Except.bind, hb] at h
        cases h
      | ok b =>
        simp only [first?, found, List.head?_cons, bind, Except.bind, hb] at h
        cases h
        exact .inr ⟨row, b, rfl, hb, rfl⟩

theorem first_eq_ok {a : α} (h : r.first operation read = .ok a) :
    ∃ rs row, r = .rows rs ∧ rs.head? = some row ∧ read row = .ok a := by
  cases r with
  | error e => cases h
  | rows rs =>
    cases rs with
    | nil => cases h
    | cons row rest => exact ⟨_, row, rfl, rfl, h⟩

/-! Whatever a reply can be read as, it does not fail. -/

theorem readable_of_first? {a : Option α} (h : r.first? operation read = .ok a) :
    ∃ rs, r = .rows rs ∧ ∀ row ∈ rs.head?, row.Readable read := by
  obtain ⟨rs, rfl, ⟨hnone, -⟩ | ⟨row, b, hsome, hread, -⟩⟩ := first?_eq_ok h
  · exact ⟨rs, rfl, by simp [hnone]⟩
  · exact ⟨rs, rfl, by simpa [hsome] using ⟨b, hread⟩⟩

theorem readable_of_first {a : α} (h : r.first operation read = .ok a) :
    ∃ rs, r = .rows rs ∧ ∃ row ∈ rs.head?, row.Readable read := by
  obtain ⟨rs, row, rfl, hsome, hread⟩ := first_eq_ok h
  exact ⟨rs, rfl, row, hsome, a, hread⟩

theorem readable_of_all {as : List α} (h : r.all operation read = .ok as) :
    ∃ rs, r = .rows rs ∧ ∀ row ∈ rs, row.Readable read := by
  obtain ⟨rs, rfl, hread⟩ := all_eq_ok h
  exact ⟨rs, rfl, readable_of_mapM_eq_ok hread⟩

end Reply

end Sql

end Stockroom
