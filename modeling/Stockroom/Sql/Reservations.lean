/-
Stockroom.Sql.Reservations — reservations kept by a database server.

Whoever changes a reservation first takes the lock of its business key and then the lock
of its row, so that everyone takes the two in the same order.
-/
import Stockroom.Reservation.Store
import Stockroom.Sql.Row

namespace Stockroom

namespace Sql

namespace Reservations

/-! ## Rows -/

/-- The lines of a reservation. -/
def linesOf (id : Uuid) : SqlM (List ReservationLine) := do
  let rs ← rows "load_lines" (.selectLines id)
  decode Row.reservationLine rs

/-- The reservation of a row, whose lines are asked for between its columns. -/
def ofRow (r : Row) : SqlM Reservation := do
  let (id, status, trace) ← StoreM.ofResult do
    pure (← r.uuid "id", ← r.text "status", ← r.text "trace_id")
  let (key, status) ← StoreM.ofResult do
    pure (← r.reservationKey, ← Row.stored (ReservationStatus.read status))
  let lines ← linesOf id
  StoreM.ofResult do
    pure
      { id, key, status
        trace := ⟨trace⟩
        lines
        createdAt := ← r.instant "created_at"
        updatedAt := ← r.instant "updated_at"
        expireAt := ← r.instant "expire_at" }

/-- The reservation of a row, if there is a row. -/
def ofRow? : Option Row → SqlM (Option Reservation)
  | none => pure none
  | some r => do pure (some (← ofRow r))

/-- The reservation with an identifier. -/
def load (id : Uuid) (lock : Bool) : SqlM (Option Reservation) := do
  ofRow? (← row? "load_reservation" (.selectReservation id lock))

/-- The reservation of a business key. -/
def loadByKey (key : ReservationKey) (lock : Bool) : SqlM (Option Reservation) := do
  ofRow? (← row? "find_reservation_by_key" (.selectReservationByKey key lock))

/-! ## Locks -/

/-- Waits for the other writers of a business key. -/
def lockKey (key : ReservationKey) : SqlM Unit :=
  execute "advisory_lock" (.advisoryLock key.lockText)

/-- Takes the locks of a reservation, and loads it. -/
def lockReservation (id : Uuid) : SqlM (Option Reservation) := do
  match ← row? "reservation_key" (.selectReservationKey id) with
  | none => pure none
  | some r => do
    let key ← StoreM.ofResult r.reservationKey
    lockKey key
    load id true

/-- Takes the locks of a reservation, which must exist. -/
def lockExisting (id : Uuid) : SqlM Reservation := do
  match ← lockReservation id with
  | some r => pure r
  | none => throw (.domain (.notFound s!"reservation {id}"))

/-! ## Writing -/

/-- Writes lines one after another. -/
def saveLines (id : Uuid) : List ReservationLine → SqlM Unit
  | [] => pure ()
  | l :: rest => do
    execute "save_reservation_line" (.upsertLine id l)
    saveLines id rest

/-- Writes a reservation and its lines. -/
def save (r : Reservation) : SqlM Unit := do
  execute "save_reservation" (.upsertReservation r)
  saveLines r.id r.lines

/-! ## Operations -/

/-- Opens a reservation under a fresh identifier, or refreshes the one of the same key. -/
def create (fresh : Uuid) (n : NewReservation) (now : Instant) : SqlM CreatedReservation := do
  StoreM.ofRule n.check
  transaction do
    lockKey n.key
    match ← loadByKey n.key true with
    | some r => do
      let r ← StoreM.ofRule (r.refresh n now)
      save r
      pure (.keep ⟨r, false⟩)
    | none => do
      let r ← StoreM.ofRule (Reservation.start fresh n now)
      save r
      pure (.keep ⟨r, true⟩)

/-- Consumes a reservation. -/
def consume (id : Uuid) (now : Instant) : SqlM (Reservation × ConsumeOutcome) :=
  transaction do
    let r ← lockExisting id
    let (r, outcome) ← StoreM.ofRule (r.consume now)
    if outcome = .consumed then save r
    pure (.keep (r, outcome))

/-- Cancels a reservation. -/
def cancel (id : Uuid) (now : Instant) : SqlM Reservation :=
  transaction do
    let r ← lockExisting id
    let r ← StoreM.ofRule (r.cancel now)
    save r
    pure (.keep r)

/-- Ends an open reservation. -/
def release (id : Uuid) (now : Instant) : SqlM ReleaseOutcome :=
  transaction do
    match ← lockReservation id with
    | none => pure (.leave (.noop none))
    | some r => do
      let (r, outcome) := r.expire now
      if outcome.isExpired then save r
      pure (.keep outcome)

/-- The greatest number of rows that can be asked for. -/
def greatestLimit : Nat := 9223372036854775807

/-- At most so many open reservations past their time to live, the oldest first. -/
def findExpired (now : Instant) (limit : Nat) : SqlM (List Uuid) := do
  let rs ← rowsAlone "find_expired" (.selectExpired now (min limit greatestLimit : Nat))
  let id : Row → Except StoreError Uuid :=
    Row.only "find_expired" fun v => match v with | .uuid u => some u | _ => none
  decode id rs

/-! ## The store -/

/-- Reservations kept by a database server, as a store. -/
def store : ReservationStore SqlM where
  create := create
  get id := do
    connect "acquire"
    load id false
  findByKey key := do
    connect "acquire"
    loadByKey key false
  consume := consume
  cancel := cancel
  findExpired := findExpired
  release := release

end Reservations

end Sql

end Stockroom
