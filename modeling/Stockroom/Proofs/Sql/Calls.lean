/-
Stockroom.Proofs.Sql.Calls — the calls that may write, and the questions that they are made of.

* `Call` lists the calls of the two stores that may write, with their answers (`Call.Answer`) and
  what they do (`Call.step`).
* The `asks_…` theorems say of each part of a store that reads something which statement it sends
  and how it reads the reply. No later proof opens these parts.
-/
import Stockroom.Proofs.Sql.Talk
import Stockroom.Sql.Reservations
import Stockroom.Sql.Stock

namespace Stockroom

namespace Sql

open StoreM

/-! ## Calls -/

/-- A call that may write. -/
inductive Call where
  | apply (m : Movement)
  | allocate (r : AllocationRequest)
  | correctExpiry (item : ItemId) (warehouse : WarehouseId) (code : String)
      (expiry : Option Date)
  | rebuildSnapshot (d : Date)
  | create (fresh : Uuid) (n : NewReservation) (now : Instant)
  | consume (id : Uuid) (now : Instant)
  | cancel (id : Uuid) (now : Instant)
  | release (id : Uuid) (now : Instant)

/-- What a call answers. -/
def Call.Answer : Call → Type
  | apply _ => Outcome
  | allocate _ => AllocationResult
  | correctExpiry _ _ _ _ => Batch
  | rebuildSnapshot _ => SnapshotSummary
  | create _ _ _ => CreatedReservation
  | consume _ _ => Reservation × ConsumeOutcome
  | cancel _ _ => Reservation
  | release _ _ => ReleaseOutcome

/-- What a call does. -/
def Call.step : (c : Call) → SqlM c.Answer
  | apply m => Stock.store.apply m
  | allocate r => Stock.store.allocate r
  | correctExpiry item warehouse code expiry =>
    Stock.store.correctExpiry item warehouse code expiry
  | rebuildSnapshot d => Stock.store.rebuildSnapshot d
  | create fresh n now => Reservations.store.create fresh n now
  | consume id now => Reservations.store.consume id now
  | cancel id now => Reservations.store.cancel id now
  | release id now => Reservations.store.release id now

/-! ## Reading rows -/

section Reading

variable {α : Type}

/-- To read the first row that was found is a question of its own. -/
theorem asks_row?_read (operation : String) (q : Statement) (read : Row → Except StoreError α) :
    Asks (do
      match ← row? operation q with
      | none => pure none
      | some r => do pure (some (← StoreM.ofResult (read r)))) q (Reply.first? operation read) := by
  intro s
  rw [runFrom_bind, asks_row?]
  unfold Reply.first?
  cases (s.reply q).found operation with
  | error e => rfl
  | ok rs =>
    cases rs with
    | nil => rfl
    | cons r rest =>
      show (StoreM.ofResult (read r) >>= fun a => pure (some a) : SqlM _).runFrom _ = _
      simp only [List.head?_cons, bind, Except.bind]
      cases read r <;> rfl

theorem asks_row_read (operation : String) (q : Statement) (read : Row → Except StoreError α) :
    Asks (do
      let r ← row operation q
      StoreM.ofResult (read r)) q (Reply.first operation read) := by
  intro s
  rw [runFrom_bind, asks_row]
  unfold Reply.first
  cases (s.reply q).found operation with
  | error e => rfl
  | ok rs => cases rs <;> rfl

theorem asks_rows_decode (operation : String) (q : Statement)
    (read : Row → Except StoreError α) :
    Asks (do
      let rs ← rows operation q
      decode read rs) q (Reply.all operation read) :=
  (asks_rows operation q).bind fun _ _ => rfl

end Reading

namespace Stock

/-! ## Stock -/

theorem asks_entryAt? (l : DocumentLine) :
    Asks (entryAt? l) (.selectEntry l) (Reply.first? "find_ledger_entry" Row.entry) :=
  asks_row?_read _ _ _

theorem asks_findBatch (identity : BatchIdentity) (lock : Bool) :
    Asks (findBatch identity lock) (.selectBatch identity lock)
      (Reply.first? "find_batch" Row.batch) :=
  asks_row?_read _ _ _

theorem asks_candidates (item : ItemId) (warehouse : WarehouseId) (lock : Bool) :
    Asks (candidates item warehouse lock) (.selectCandidates item warehouse lock)
      (Reply.all "load_candidates" Row.candidate) :=
  asks_rows_decode _ _ _

/-- The number and the quantity in the row of a locked slot. -/
def readSlot (r : Row) : Except StoreError (Int × Int) := do
  pure (← r.integer "id", ← r.integer "qty")

/-- A slot is created unless it exists, and its row is read then. -/
theorem lockSlot_eq (k : StockKey) :
    lockSlot k = (do
      execute "ensure_slot" (.insertSlot k)
      (do
        let r ← row "lock_slot" (.lockSlot k)
        StoreM.ofResult (readSlot r))) := rfl

/-- The quantity of an unlocked slot, out of the only column of its row. -/
def readQuantity : Row → Except StoreError Int :=
  Row.only "read_slot" fun v => match v with | .integer n => some n | _ => none

theorem asks_quantityOf (k : StockKey) :
    Asks (quantityOf k) (.selectQuantity k)
      (fun r => (r.first? "read_slot" readQuantity).map (·.getD 0)) := by
  intro s
  rw [quantityOf, runFrom_bind, asks_row?]
  unfold Reply.first?
  dsimp only
  cases (s.reply (.selectQuantity k)).found "read_slot" with
  | error e => rfl
  | ok rs =>
    cases rs with
    | nil => rfl
    | cons r rest =>
      show (StoreM.ofResult (readQuantity r) : SqlM _).runFrom _ =
        (((readQuantity r).map some).map (·.getD 0), _)
      cases readQuantity r <;> rfl

/-- The number of a ledger row that was written. -/
def readEntryNumber (m : Movement) : Reply → Except StoreError Int
  | .error e =>
    if e.isUniqueViolation then
      .error (.concurrency s!"ledger entry ({m.reference}, {m.line}) written concurrently")
    else .error (e.toStoreError "insert_ledger")
  | .rows [] => .error (.storage "unexpected row not found in insert_ledger")
  | .rows (r :: _) => r.integer "id"

theorem asks_insertEntry (m : Movement) (after : Int) :
    Asks (insertEntry m after) (.insertEntry m after) (readEntryNumber m) := by
  intro s
  rw [insertEntry, runFrom_bind, asks_send]
  unfold readEntryNumber
  dsimp only
  rcases s.reply (.insertEntry m after) with rs | e
  · cases rs <;> rfl
  · dsimp only
    split <;> rfl

/-- The answer that an earlier request has left, in what was found of the reference. -/
def readPrior (r : AllocationRequest) (reply : Reply) :
    Except StoreError (Option AllocationResult) := do
  let entries ← reply.all "allocation_replay" Row.entry
  let legs ← (priorLegs entries r).mapError .domain
  pure (legs.map (.ofPrior r))

theorem asks_priorAllocation (r : AllocationRequest) :
    Asks (priorAllocation r) (.selectEntries r.reference) (readPrior r) := by
  have h : Asks (priorAllocation r) (.selectEntries r.reference)
      (fun reply => reply.found "allocation_replay" >>= fun rs => do
        let entries ← rs.mapM Row.entry
        let legs ← (priorLegs entries r).mapError .domain
        pure (legs.map (AllocationResult.ofPrior r))) := by
    refine (asks_rows _ _).bind fun rs s => ?_
    simp only [decode, runFrom_bind, runFrom_ofResult, runFrom_ofRule]
    cases rs.mapM Row.entry with
    | error e => rfl
    | ok entries =>
      dsimp only [bind, Except.bind]
      cases (priorLegs entries r).mapError StoreError.domain <;> rfl
  have hread : readPrior r = _ := funext fun reply => bind_assoc _ _ _
  rw [hread]
  exact h

end Stock

namespace Reservations

/-! ## Reservations -/

theorem asks_linesOf (id : Uuid) :
    Asks (linesOf id) (.selectLines id) (Reply.all "load_lines" Row.reservationLine) :=
  asks_rows_decode _ _ _

theorem asks_lockKey (key : ReservationKey) :
    Asks (lockKey key) (.advisoryLock key.lockText)
      (fun r => (r.found "advisory_lock").map (fun _ => ())) :=
  asks_execute _ _

end Reservations

end Sql

end Stockroom
