/-
Stockroom.Proofs.Sql.Storage — rows are read back as what was written.

* `Statement.inserted` lists the columns that an INSERT names, and `Statement.bound` pairs them with
  its parameters; both are as its text has them (`text_of_inserted`). A stored row has what was
  bound, and what the server adds of its own (`storedEntry`, `storedBatch`).
* `Row.Shows` says that a row shows a stored one, in the columns that a statement asks for. Readers
  look at nothing else (the `…_congr` theorems), so that each of them is followed on one row only.
* `StorageOnly` says of a result that it is a failure of the backend, if it is a failure. Every
  reader keeps to that, whatever the row.
-/
import Mathlib.Data.List.Forall2
import Stockroom.Proofs.Sql.Replies
import Stockroom.Proofs.Sql.Reservations
import Stockroom.Proofs.Stock.History

namespace Stockroom

/-- Whether a reservation comes back as it was stored: its warehouse and its items are numbered from
one on, and its lines are in the order of their numbers. -/
structure Reservation.Storable (r : Reservation) : Prop where
  warehouse : 0 < r.key.warehouse.val
  items : ∀ l ∈ r.lines, 0 < l.item.val
  sorted : r.lines.Pairwise (fun a b => a.line ≤ b.line)

namespace Sql

open StoreM

/-! ## What is bound -/

namespace Statement

/-- The columns to which an INSERT binds its parameters. -/
def inserted : Statement → List String
  | insertEntry _ _ =>
    ["warehouse_id", "item_id", "batch_code", "delta", "reason", "ref", "ref_line", "after_qty",
      "occurred_at", "trace_id"]
  | insertBatch _ _ _ =>
    ["item_id", "warehouse_id", "batch_code", "production_date", "expiry_date"]
  | upsertReservation _ =>
    ["id", "platform", "shop_id", "warehouse_id", "ref", "status", "trace_id", "created_at",
      "updated_at", "expire_at"]
  | upsertLine _ _ => ["reservation_id", "ref_line", "item_id", "qty", "consumed_qty"]
  | _ => []

/-- The values that an INSERT binds, by their columns. -/
def bound (q : Statement) : Row := q.inserted.zip q.parameters

/-- The text of an INSERT up to the end of its values, which are its parameters in their order. -/
def insertText (table space : String) (columns : List String) : String :=
  "INSERT INTO " ++ table ++ " (" ++ space ++ ", ".intercalate columns ++ space ++ ") VALUES (" ++
    ", ".intercalate ((List.range columns.length).map fun i => "$" ++ toString (i + 1)) ++ ")"

/-- The columns are those of the text, and there is one of them for each parameter. -/
theorem text_of_inserted (q : Statement) (h : q.inserted ≠ []) :
    q.inserted.length = q.parameters.length ∧
      ∃ table space rest, q.text = insertText table space q.inserted ++ rest := by
  cases q with
  | insertEntry m after =>
    refine ⟨rfl, "stock_ledger", " ", " RETURNING id", ?_⟩
    show (_ ++ _ : String) = insertText _ _ (_ :: _) ++ _
    decide +kernel
  | insertBatch i production expiry =>
    refine ⟨rfl, "batches", "", " ON CONFLICT (item_id, warehouse_id, batch_code) DO NOTHING " ++
      "RETURNING " ++ batchColumns, ?_⟩
    show (_ ++ _ : String) = insertText _ _ (_ :: _) ++ _
    decide +kernel
  | upsertReservation r =>
    refine ⟨rfl, "reservations", " ", " ON CONFLICT (id) DO UPDATE SET " ++
      "status = EXCLUDED.status, trace_id = EXCLUDED.trace_id, " ++
      "updated_at = EXCLUDED.updated_at, expire_at = EXCLUDED.expire_at", ?_⟩
    show (_ ++ _ : String) = insertText _ _ (_ :: _) ++ _
    decide +kernel
  | upsertLine id l =>
    refine ⟨rfl, "reservation_lines", "", " ON CONFLICT (reservation_id, ref_line) DO UPDATE " ++
      "SET item_id = EXCLUDED.item_id, qty = EXCLUDED.qty, consumed_qty = EXCLUDED.consumed_qty",
      ?_⟩
    show (_ ++ _ : String) = insertText _ _ (_ :: _) ++ _
    decide +kernel
  | _ => exact absurd rfl h

end Statement

/-! ## Stored rows -/

/-- A value, or the reserved code in place of a null. -/
def Value.orReserved : Value → Value
  | .null => .text BatchKey.reserved
  | v => v

/-- The ledger row that an INSERT leaves: the server numbers it, and generates the column that
stands for its batch. -/
def storedEntry (id : Int) (m : Movement) (after : Int) : Row :=
  let bound := (Statement.insertEntry m after).bound
  ("id", .integer id) ::
    ("batch_code_key", ((bound.lookup "batch_code").getD .null).orReserved) :: bound

/-- The row that the INSERT of a batch leaves: the server numbers it, and stamps it. -/
def storedBatch (b : Batch) : Row :=
  ("id", .integer b.id) :: ("created_at", .instant b.createdAt) ::
    (Statement.insertBatch b.identity b.production b.expiry).bound

/-- Whether a row shows a stored one, in the columns that a statement asks for. -/
def Row.Shows (row stored : Row) (q : Statement) : Prop :=
  ∀ c ∈ q.columns, row.lookup c.name = stored.lookup c.name

theorem orReserved_ofText?_code? (b : BatchKey) :
    (Value.ofText? b.code?).orReserved = .text b.key := by
  unfold BatchKey.code? BatchKey.isNone
  split
  · rename_i hreserved
    rw [eq_of_beq hreserved]
    rfl
  · rfl

namespace Row

variable {row row' : Row}

theorem entry_congr {l : DocumentLine} (h : row.Shows row' (.selectEntry l)) :
    row.entry = row'.entry := by
  simp only [Shows, Statement.columns, slotColumns, List.cons_append, List.nil_append,
    List.forall_mem_cons] at h
  simp only [entry, slotKey, warehouse, item, integer, text, instant, read, read?, h]

theorem batch_congr {i : BatchIdentity} {lock : Bool} (h : row.Shows row' (.selectBatch i lock)) :
    row.batch = row'.batch := by
  simp only [Shows, Statement.columns, List.forall_mem_cons] at h
  simp only [batch, warehouse, item, integer, text, date?, instant, read, read?, h]

theorem reservationLine_congr {id : Uuid} (h : row.Shows row' (.selectLines id)) :
    row.reservationLine = row'.reservationLine := by
  simp only [Shows, Statement.columns, List.forall_mem_cons] at h
  simp only [reservationLine, item, integer, read, read?, h]

theorem ofRow_congr {id : Uuid} {lock : Bool} (h : row.Shows row' (.selectReservation id lock)) :
    Reservations.ofRow row = Reservations.ofRow row' := by
  simp only [Shows, Statement.columns, reservationHeadColumns, reservationKeyColumns,
    List.cons_append, List.nil_append, List.forall_mem_cons] at h
  simp only [Reservations.ofRow, reservationKey, warehouse, integer, text, instant, uuid, read,
    read?, h]

/-! ### What they are read as -/

/-- A stored ledger row shows the entry that the movement was written down as. -/
theorem shows_storedEntry (id : Int) (m : Movement) (after : Int) (l : DocumentLine) :
    (storedEntry id m after).Shows (ofEntry (m.toEntry id after)) (.selectEntry l) := by
  simp only [Shows, Statement.columns, slotColumns, List.cons_append, List.nil_append,
    List.forall_mem_cons]
  refine ⟨rfl, rfl, rfl, congrArg some (orReserved_ofText?_code? m.key.batch), ?_⟩
  exact ⟨rfl, rfl, rfl, rfl, rfl, rfl, rfl, nofun⟩

theorem entry_of_shows {id after : Int} {m : Movement} {l : DocumentLine} (hm : m.key.Storable)
    (h : row.Shows (storedEntry id m after) (.selectEntry l)) :
    row.entry = .ok (m.toEntry id after) := by
  have hentry : row.Shows (ofEntry (m.toEntry id after)) (.selectEntry l) :=
    fun c hc => (h c hc).trans (shows_storedEntry id m after l c hc)
  rw [entry_congr hentry]
  exact entry_ofEntry hm

theorem shows_storedBatch (b : Batch) (i : BatchIdentity) (lock : Bool) :
    (storedBatch b).Shows (ofBatch b) (.selectBatch i lock) := by
  simp only [Shows, Statement.columns, List.forall_mem_cons]
  exact ⟨rfl, rfl, rfl, rfl, rfl, rfl, rfl, nofun⟩

theorem batch_of_shows {b : Batch} {i : BatchIdentity} {lock : Bool} (hw : 0 < b.warehouse.val)
    (hi : 0 < b.item.val) (h : row.Shows (storedBatch b) (.selectBatch i lock)) :
    row.batch = .ok b := by
  have hbatch : row.Shows (ofBatch b) (.selectBatch i lock) :=
    fun c hc => (h c hc).trans (shows_storedBatch b i lock c hc)
  rw [batch_congr hbatch]
  exact batch_ofBatch hw hi

/-- The rows that the lines of a reservation have left are read as the lines. -/
theorem mapM_reservationLine_of_shows {id : Uuid} {rows : List Row} {ls : List ReservationLine}
    (hitems : ∀ l ∈ ls, 0 < l.item.val)
    (h : List.Forall₂ (fun row l => row.Shows (Statement.upsertLine id l).bound (.selectLines id))
      rows ls) : rows.mapM reservationLine = .ok ls := by
  induction h with
  | nil => rfl
  | @cons row l rows ls hrow _ ih =>
    obtain ⟨hl, hls⟩ := List.forall_mem_cons.mp hitems
    have hline : row.reservationLine = .ok l := by
      have hstored : (Statement.upsertLine id l).bound.Shows (ofReservationLine l)
          (.selectLines id) := by
        simp only [Shows, Statement.columns, List.forall_mem_cons]
        exact ⟨rfl, rfl, rfl, rfl, nofun⟩
      rw [reservationLine_congr fun c hc => (hrow c hc).trans (hstored c hc)]
      exact reservationLine_ofReservationLine hl
    rw [List.mapM_cons]
    exact bind_eq_ok_iff.mpr ⟨l, hline, bind_eq_ok_iff.mpr ⟨ls, ih hls, rfl⟩⟩

end Row

/-! ## What is written -/

section Writers

variable {u : Session}

/-- To write a movement is to set the slot and then to insert the row that it leaves. -/
theorem says_writeMovement_ok (slot : Int) (m : Movement) (after : Int) :
    Says u (Stock.writeMovement slot m after) fun xs out => ∀ e, out = .ok e →
      xs.map (·.statement) = [.updateQuantity slot after, .insertEntry m after] ∧
      e = m.toEntry e.id after := by
  refine (asks_execute _ _).bind_talk (fun _ _ _ _ h => nomatch h) fun past _ _ => ?_
  refine (Stock.asks_insertEntry m after).bind_talk (fun _ _ _ _ h => nomatch h) fun past id _ => ?_
  refine says_pure fun e he => ?_
  cases he
  exact ⟨rfl, rfl⟩

/-- Whether every row that is written is that of the batch asked for, with the dates of one first
met on the day, and the answer is what comes back of it. -/
def InsertsBatch (i : BatchIdentity) (production expiry : Option Date) (on : Date) : Talk Batch :=
  fun xs out => ∀ x ∈ xs, x.statement.isWrite = true →
    ∃ p e, inboundDates production expiry on = .ok (p, e) ∧ x.statement = .insertBatch i p e ∧
      ∀ row rest, x.reply = .rows (row :: rest) → out = row.batch

section Batches

variable {i : BatchIdentity} {production expiry p e : Option Date} {on : Date}
  {xs : List Exchange} {r : Reply} {out : Except StoreError Batch}

theorem insertsBatch_nil : InsertsBatch i production expiry on [] out := List.forall_mem_nil _

/-- To look for the batch writes nothing. -/
theorem InsertsBatch.found (h : InsertsBatch i production expiry on xs out) :
    InsertsBatch i production expiry on (⟨.selectBatch i false, r⟩ :: xs) out :=
  List.forall_mem_cons.mpr ⟨fun hwrite => (Bool.false_ne_true hwrite).elim, h⟩

theorem InsertsBatch.inserted (hdates : inboundDates production expiry on = .ok (p, e))
    (hout : ∀ row rest, r = .rows (row :: rest) → out = row.batch)
    (h : InsertsBatch i production expiry on xs out) :
    InsertsBatch i production expiry on (⟨.insertBatch i p e, r⟩ :: xs) out :=
  List.forall_mem_cons.mpr ⟨fun _ => ⟨p, e, hdates, rfl, hout⟩, h⟩

theorem inserts_ensureBatch (i : BatchIdentity) (production expiry : Option Date) (on : Date) :
    Says u (Stock.ensureBatch i production expiry on) (InsertsBatch i production expiry on) := by
  refine (Stock.asks_findBatch i false).bind_talk (fun _ _ _ => insertsBatch_nil.found)
    fun past found _ => ?_
  cases found with
  | some b => exact says_pure insertsBatch_nil.found
  | none =>
    refine says_ofRule_bind (fun _ _ => insertsBatch_nil.found) fun dates hdates => ?_
    refine (asks_row? _ _).bind_talk (fun past e h => ?_) fun past found h => ?_
    · refine (insertsBatch_nil.inserted hdates fun row rest hr => ?_).found
      rw [hr] at h
      cases h
    · obtain ⟨rs, hr, ⟨hnone, rfl⟩ | ⟨row, _, hsome, hread, rfl⟩⟩ := Reply.first?_eq_ok h
      · -- someone else was first, whose row is looked for
        have hempty : ∀ out : Except StoreError Batch, ∀ row rest,
            u.server past (.insertBatch i dates.1 dates.2) = .rows (row :: rest) →
              out = row.batch := by
          intro out row rest hr'
          obtain rfl := Reply.rows.inj (hr.symm.trans hr')
          cases hnone
        refine (Stock.asks_findBatch i false).bind_talk
          (fun _ _ _ => (insertsBatch_nil.found.inserted hdates (hempty _)).found)
          fun past' found _ => ?_
        cases found with
        | some b => exact says_pure (insertsBatch_nil.found.inserted hdates (hempty _)).found
        | none => exact says_throw (insertsBatch_nil.found.inserted hdates (hempty _)).found
      · cases hread
        refine says_of_silent (fun s => runFrom_ofResult row.batch s)
          (insertsBatch_nil.inserted hdates fun row' rest hr' => ?_).found
        obtain rfl := Reply.rows.inj (hr.symm.trans hr')
        cases hsome
        rfl

end Batches

theorem says_save_written (r : Reservation) :
    Says u (Reservations.save r) fun xs out => out = .ok () →
      xs.map (·.statement) = saveWrites r := by
  have hlines (ls : List ReservationLine) :
      Says u (Reservations.saveLines r.id ls) fun xs out => out = .ok () →
        xs.map (·.statement) = ls.map (.upsertLine r.id) := by
    induction ls with
    | nil => exact says_pure fun _ => rfl
    | cons l rest ih =>
      refine (asks_execute _ _).bind_talk (fun _ _ _ h => nomatch h) fun past _ _ =>
        ih.imp fun xs out h hout => ?_
      rw [List.map_cons, List.map_cons, h hout]
  refine (asks_execute _ _).bind_talk (fun _ _ _ h => nomatch h) fun past _ _ =>
    (hlines r.lines).imp fun xs out h hout => ?_
  rw [List.map_cons, h hout]
  rfl

end Writers

/-! ## How reading fails -/

/-- Whether a result is a failure of the backend, if it is a failure. -/
def StorageOnly {α : Type} (x : Except StoreError α) : Prop :=
  ∀ e, x = .error e → ∃ detail, e = .storage detail

section Failures

variable {α β : Type}

theorem storageOnly_ok (a : α) : StorageOnly (.ok a) := nofun

theorem storageOnly_error (detail : String) :
    StorageOnly (.error (.storage detail) : Except StoreError α) := by
  rintro _ ⟨⟩
  exact ⟨detail, rfl⟩

theorem StorageOnly.bind {x : Except StoreError α} {f : α → Except StoreError β}
    (hx : StorageOnly x) (hf : ∀ a, StorageOnly (f a)) : StorageOnly (x >>= f) := by
  cases x with
  | error e =>
    rintro _ ⟨⟩
    exact hx e rfl
  | ok a => exact hf a

namespace Row

variable (row : Row) (column : String)

theorem storageOnly_read? (kind : Value → Option α) : StorageOnly (read? kind row column) := by
  unfold read?
  split
  · exact storageOnly_error _
  · exact storageOnly_ok _
  · split
    · exact storageOnly_ok _
    · exact storageOnly_error _

theorem storageOnly_read (kind : Value → Option α) : StorageOnly (read kind row column) := by
  refine (storageOnly_read? row column kind).bind fun found => ?_
  cases found with
  | none => exact storageOnly_error _
  | some a => exact storageOnly_ok a

/-- A stored value that breaks a rule is a failure of the backend. -/
theorem storageOnly_stored (x : Except DomainError α) : StorageOnly (stored x) := by
  cases x with
  | error e => exact storageOnly_error _
  | ok a => exact storageOnly_ok a

theorem storageOnly_warehouse : StorageOnly row.warehouse :=
  (storageOnly_read _ _ _).bind fun _ => storageOnly_stored _

theorem storageOnly_item : StorageOnly row.item :=
  (storageOnly_read _ _ _).bind fun _ => storageOnly_stored _

theorem storageOnly_slotKey : StorageOnly row.slotKey :=
  (storageOnly_warehouse row).bind fun _ => (storageOnly_item row).bind fun _ =>
    (storageOnly_read _ _ _).bind fun _ => storageOnly_ok _

theorem storageOnly_reservationKey : StorageOnly row.reservationKey :=
  (storageOnly_read _ _ _).bind fun _ => (storageOnly_read _ _ _).bind fun _ =>
    (storageOnly_warehouse row).bind fun _ => (storageOnly_read _ _ _).bind fun _ =>
      storageOnly_ok _

theorem storageOnly_entry : StorageOnly row.entry :=
  (storageOnly_read _ _ _).bind fun _ => (storageOnly_read _ _ _).bind fun _ =>
    (storageOnly_read _ _ _).bind fun _ => (storageOnly_slotKey row).bind fun _ =>
      (storageOnly_read _ _ _).bind fun _ => (storageOnly_stored _).bind fun _ =>
        (storageOnly_read _ _ _).bind fun _ => (storageOnly_read _ _ _).bind fun _ =>
          (storageOnly_read _ _ _).bind fun _ => (storageOnly_read _ _ _).bind fun _ =>
            storageOnly_ok _

theorem storageOnly_batch : StorageOnly row.batch :=
  (storageOnly_read _ _ _).bind fun _ => (storageOnly_item row).bind fun _ =>
    (storageOnly_warehouse row).bind fun _ => (storageOnly_read _ _ _).bind fun _ =>
      (storageOnly_read? _ _ _).bind fun _ => (storageOnly_read? _ _ _).bind fun _ =>
        (storageOnly_read _ _ _).bind fun _ => storageOnly_ok _

theorem storageOnly_reservationLine : StorageOnly row.reservationLine :=
  (storageOnly_read _ _ _).bind fun _ => (storageOnly_item row).bind fun _ =>
    (storageOnly_read _ _ _).bind fun _ => (storageOnly_read _ _ _).bind fun _ =>
      storageOnly_ok _

theorem storageOnly_mapM {read : Row → Except StoreError α} (h : ∀ row, StorageOnly (read row))
    (rows : List Row) : StorageOnly (rows.mapM read) := by
  induction rows with
  | nil => exact storageOnly_ok _
  | cons row rest ih =>
    rw [List.mapM_cons]
    exact (h row).bind fun _ => ih.bind fun _ => storageOnly_ok _

end Row

/-- To read a reservation fails as the backend does, or as the server does where it is asked for the
lines. -/
theorem says_ofRow_failure (u : Session) (row : Row) :
    Says u (Reservations.ofRow row) fun xs out => ∀ e, out = .error e →
      (∃ detail, e = .storage detail) ∨
        ∃ x ∈ xs, ∃ err, x.reply = .error err ∧ e = err.toStoreError "load_lines" := by
  refine says_ofResult_bind (fun e he => ?_) fun head _ => ?_
  · have hhead : StorageOnly (do
        pure (← row.uuid "id", ← row.text "status", ← row.text "trace_id") :
          Except StoreError (Uuid × String × String)) :=
      (Row.storageOnly_read _ _ _).bind fun _ => (Row.storageOnly_read _ _ _).bind fun _ =>
        (Row.storageOnly_read _ _ _).bind fun _ => storageOnly_ok _
    rintro _ ⟨⟩
    exact .inl (hhead e he)
  refine says_ofResult_bind (fun e he => ?_) fun keyed _ => ?_
  · have hkeyed : StorageOnly (do
        pure (← row.reservationKey, ← Row.stored (ReservationStatus.read head.2.1)) :
          Except StoreError (ReservationKey × ReservationStatus)) :=
      (Row.storageOnly_reservationKey row).bind fun _ => (Row.storageOnly_stored _).bind fun _ =>
        storageOnly_ok _
    rintro _ ⟨⟩
    exact .inl (hkeyed e he)
  refine (Reservations.asks_linesOf head.1).bind_talk (fun past e he => ?_) fun past ls _ => ?_
  · rintro _ ⟨⟩
    cases hreply : u.server past (.selectLines head.1) with
    | error err =>
      rw [hreply] at he
      cases he
      exact .inr ⟨_, List.mem_cons_self, err, rfl, rfl⟩
    | rows rs =>
      rw [hreply] at he
      exact .inl (Row.storageOnly_mapM Row.storageOnly_reservationLine rs e he)
  · refine says_of_silent (fun s => runFrom_ofResult _ s) fun e he => .inl ?_
    have htimes : StorageOnly (do
        pure
          { id := head.1
            key := keyed.1
            status := keyed.2
            trace := ⟨head.2.2⟩
            lines := ls
            createdAt := ← row.instant "created_at"
            updatedAt := ← row.instant "updated_at"
            expireAt := ← row.instant "expire_at" } : Except StoreError Reservation) :=
      (Row.storageOnly_read _ _ _).bind fun _ => (Row.storageOnly_read _ _ _).bind fun _ =>
        (Row.storageOnly_read _ _ _).bind fun _ => storageOnly_ok _
    exact htimes e he

end Failures

theorem toStoreError_ne_domain (e : ServerError) (operation : String) (d : DomainError) :
    e.toStoreError operation ≠ .domain d := by
  unfold ServerError.toStoreError
  dsimp only
  split <;> exact nofun

/-! ## Written and read -/

/-- Whether a server finds the rows that the lines of a reservation have left, by their numbers. -/
def Server.FindsLines (server : Server) (r : Reservation) : Prop :=
  ∀ past, ∃ rows, server past (.selectLines r.id) = .rows rows ∧
    List.Forall₂ (fun row l => row.Shows (Statement.upsertLine r.id l).bound (.selectLines r.id))
      rows (sortOn (·.line) r.lines)

/-- The rows that a reservation has left are read as the reservation. -/
theorem asked_ofRow_of_shows {u : Session} {r : Reservation} {row : Row} {lock : Bool}
    (hr : r.Storable) (hserver : u.server.FindsLines r)
    (hrow : row.Shows (Statement.upsertReservation r).bound (.selectReservation r.id lock)) :
    Says u (Reservations.ofRow row) (Asked [.selectLines r.id] (· = .ok r)) := by
  have hhead : row.Shows (Row.ofReservation r) (.selectReservation r.id lock) := hrow
  rw [Row.ofRow_congr hhead]
  refine asked_ofRow_of_lines hr.warehouse fun past => ?_
  obtain ⟨rows, hrows, hshows⟩ := hserver past
  have hsorted : sortOn (·.line) r.lines = r.lines :=
    sortBy_of_pairwise (hr.sorted.imp fun h => Int.isLE_compare.mpr h)
  rw [hsorted] at hshows
  rw [hrows]
  exact Row.mapM_reservationLine_of_shows hr.items hshows

/-- What is written to the server is read back as it was. A movement, a batch and a reservation are
written by one INSERT for each row; any row that shows what the INSERT has bound is read as the
entry, the batch or the reservation, whatever its batch, reason, status or trace. To read any row
at all never fails as a broken rule does: it fails as the backend does, or, where the lines of a
reservation are asked for, as the server does. -/
theorem stored_rows_read_back (u : Session) :
    ((∀ e : LedgerEntry, ∃ m : Movement, m.toEntry e.id e.after = e) ∧
      ∀ (slot : Int) (m : Movement) (after : Int),
        (Says u (Stock.writeMovement slot m after) fun xs out => ∀ e, out = .ok e →
          xs.map (·.statement) = [.updateQuantity slot after, .insertEntry m after] ∧
          e = m.toEntry e.id after) ∧
        (m.key.Storable → ∀ id l (row : Row), row.Shows (storedEntry id m after) (.selectEntry l) →
          row.entry = .ok (m.toEntry id after))) ∧
    ((∀ i production expiry on,
        Says u (Stock.ensureBatch i production expiry on) (InsertsBatch i production expiry on)) ∧
      ∀ b : Batch, 0 < b.warehouse.val → 0 < b.item.val →
        ∀ i lock (row : Row), row.Shows (storedBatch b) (.selectBatch i lock) → row.batch = .ok b) ∧
    (∀ r : Reservation,
      (Says u (Reservations.save r) fun xs out => out = .ok () →
        xs.map (·.statement) = saveWrites r) ∧
      (r.Storable → u.server.FindsLines r → ∀ lock (row : Row),
        row.Shows (Statement.upsertReservation r).bound (.selectReservation r.id lock) →
        Says u (Reservations.ofRow row) (Asked [.selectLines r.id] (· = .ok r)))) ∧
    ∀ row : Row, StorageOnly row.slotKey ∧ StorageOnly row.reservationKey ∧
      StorageOnly row.entry ∧ StorageOnly row.batch ∧ StorageOnly row.reservationLine ∧
      Says u (Reservations.ofRow row) fun xs out =>
        (∀ d, out ≠ .error (.domain d)) ∧
        ((∀ x ∈ xs, ∃ rs, x.reply = .rows rs) → StorageOnly out) := by
  refine ⟨⟨fun e => ?_, fun slot m after => ?_⟩,
    ⟨inserts_ensureBatch, fun b hw hi i lock row => ?_⟩,
    fun r => ⟨says_save_written r, fun hr hserver lock row => asked_ofRow_of_shows hr hserver⟩,
    fun row => ?_⟩
  · let m : Movement :=
      { key := e.key, delta := e.delta, reason := e.reason, reference := e.reference, line := e.line
        occurredAt := e.occurredAt, trace := some e.trace, production := none, expiry := none
        allowNegative := false }
    exact ⟨m, rfl⟩
  · exact ⟨says_writeMovement_ok slot m after, fun hm id l row => Row.entry_of_shows hm⟩
  · exact Row.batch_of_shows hw hi
  · refine ⟨Row.storageOnly_slotKey row, Row.storageOnly_reservationKey row,
      Row.storageOnly_entry row, Row.storageOnly_batch row, Row.storageOnly_reservationLine row,
      (says_ofRow_failure u row).imp fun xs out h => ⟨fun d hd => ?_, fun hfound e he => ?_⟩⟩
    · rcases h _ hd with ⟨detail, hdetail⟩ | ⟨x, -, err, -, hserver⟩
      · cases hdetail
      · exact toStoreError_ne_domain err _ d hserver.symm
    · rcases h e he with hdetail | ⟨x, hx, err, hreply, -⟩
      · exact hdetail
      · obtain ⟨rs, hrs⟩ := hfound x hx
        cases hreply.symm.trans hrs

/-- The server that has the lines of one reservation, and nothing else. -/
def Server.keepingLines (r : Reservation) : Server := fun _ q =>
  .rows <| match q with
    | .selectLines _ => (sortOn (·.line) r.lines).map fun l => (Statement.upsertLine r.id l).bound
    | _ => []

theorem findsLines_keepingLines (r : Reservation) : (Server.keepingLines r).FindsLines r := by
  refine fun _ => ⟨_, rfl, List.forall₂_map_left_iff.mpr ?_⟩
  exact List.forall₂_same.mpr fun l _ c _ => rfl

end Sql

namespace Sample

/-- Two pieces that belong to no batch are picked. -/
def loosePick : Movement := { latePick with key := ⟨⟨1⟩, ⟨10⟩, .noBatch⟩ }

/-- Batch A, which expires as it was delivered. -/
def batchA : Batch := ⟨3, ⟨10⟩, ⟨1⟩, "A", none, (delivery "A" 1 5).expiry, .epoch⟩

end Sample

namespace Sql

open Stockroom.Sample in
/-- A pick from no batch, a batch and a promise that was cancelled are read back. -/
theorem stored_rows_read_back_withdrawn :
    loosePick.key.Storable ∧ (storedEntry 7 loosePick 3).entry = .ok (loosePick.toEntry 7 3) ∧
    (storedBatch batchA).batch = .ok batchA ∧
    withdrawn.Storable ∧ (Server.keepingLines withdrawn).FindsLines withdrawn ∧
    Says (.start (.keepingLines withdrawn))
      (Reservations.ofRow (Statement.upsertReservation withdrawn).bound)
      (Asked [.selectLines withdrawn.id] (· = .ok withdrawn)) := by
  have hpick : loosePick.key.Storable := by decide
  have hlines : (Server.keepingLines withdrawn).FindsLines withdrawn := findsLines_keepingLines _
  have hwithdrawn : withdrawn.Storable := ⟨by decide, by decide, by decide⟩
  obtain ⟨⟨-, hentries⟩, ⟨-, hbatches⟩, hreservations, -⟩ :=
    stored_rows_read_back (.start (.keepingLines withdrawn))
  refine ⟨hpick, ?_, ?_, hwithdrawn, hlines, ?_⟩
  · exact (hentries 1 loosePick 3).2 hpick 7 loosePick.documentLine _ fun _ _ => rfl
  · exact hbatches batchA (by decide) (by decide) batchA.identity false _ fun _ _ => rfl
  · exact (hreservations withdrawn).2 hwithdrawn hlines false _ fun _ _ => rfl

end Sql

end Stockroom
