/-
Stockroom.Sql.Stock — stock kept by a database server.

Every write happens inside one transaction. A slot is locked before its quantity is read,
and the ledger is asked for the document line once more after that: whoever wrote the line
while this writer was waiting is seen then, and nothing is written twice.
-/
import Stockroom.Sql.Row

namespace Stockroom

namespace Sql

namespace Stock

/-! ## Ledger and slots -/

/-- The ledger entry of a document line. -/
def entryAt? (l : DocumentLine) : SqlM (Option LedgerEntry) := do
  match ← row? "find_ledger_entry" (.selectEntry l) with
  | none => pure none
  | some r => do pure (some (← StoreM.ofResult r.entry))

/-- Creates a slot if it does not exist, locks it, and gives its row number and quantity. -/
def lockSlot (k : StockKey) : SqlM (Int × Int) := do
  execute "ensure_slot" (.insertSlot k)
  let r ← row "lock_slot" (.lockSlot k)
  StoreM.ofResult do pure (← r.integer "id", ← r.integer "qty")

/-- The quantity of a slot, which is not locked; a missing slot holds nothing. -/
def quantityOf (k : StockKey) : SqlM Int := do
  match ← row? "read_slot" (.selectQuantity k) with
  | none => pure 0
  | some r =>
    StoreM.ofResult (r.only "read_slot" fun v => match v with | .integer n => some n | _ => none)

/-- Writes a ledger row, and gives its number. -/
def insertEntry (m : Movement) (after : Int) : SqlM Int := do
  match ← send (.insertEntry m after) with
  | .error e =>
    if e.isUniqueViolation then
      throw (.concurrency s!"ledger entry ({m.reference}, {m.line}) written concurrently")
    else throw (e.toStoreError "insert_ledger")
  | .rows [] => throw (.storage "unexpected row not found in insert_ledger")
  | .rows (r :: _) => StoreM.ofResult (r.integer "id")

/-- Sets the quantity of a locked slot and writes the ledger row. -/
def writeMovement (slot : Int) (m : Movement) (after : Int) : SqlM LedgerEntry := do
  execute "update_slot" (.updateQuantity slot after)
  let id ← insertEntry m after
  pure (m.toEntry id after)

/-! ## Batches -/

/-- Finds a batch. -/
def findBatch (identity : BatchIdentity) (lock : Bool) : SqlM (Option Batch) := do
  match ← row? "find_batch" (.selectBatch identity lock) with
  | none => pure none
  | some r => do pure (some (← StoreM.ofResult r.batch))

/-- Finds a batch, or creates it with the given dates. Whoever loses the race to create it
gets the row of the winner. -/
def ensureBatch (identity : BatchIdentity) (production expiry : Option Date) (on : Date) :
    SqlM Batch := do
  match ← findBatch identity false with
  | some b => pure b
  | none => do
    let (production, expiry) ← StoreM.ofRule (inboundDates production expiry on)
    match ← row? "insert_batch" (.insertBatch identity production expiry) with
    | some r => StoreM.ofResult r.batch
    | none => do
      match ← findBatch identity false with
      | some b => pure b
      | none =>
        throw (.domain (.batchResolution
          s!"batch {identity.code} of item {identity.item} vanished after conflict"))

/-- Finds or creates the batch of a code from outside. -/
def resolveBatch (item : ItemId) (warehouse : WarehouseId) (code : String)
    (production expiry : Option Date) (on : Date) : SqlM Batch := do
  let key ← StoreM.ofRule (BatchKey.ofRequiredCode code)
  connect "acquire"
  ensureBatch ⟨item, warehouse, key.key⟩ production expiry on

/-- Replaces the expiry date of a batch. -/
def correctExpiry (item : ItemId) (warehouse : WarehouseId) (code : String)
    (expiry : Option Date) : SqlM Batch := do
  let key ← StoreM.ofRule (BatchKey.ofRequiredCode code)
  transaction do
    match ← findBatch ⟨item, warehouse, key.key⟩ true with
    | none => throw (.domain (.notFound s!"batch {key} of item {item}"))
    | some batch => do
      StoreM.ofRule (checkDates batch.production expiry)
      execute "correct_expiry" (.updateExpiry batch.id expiry)
      pure (.keep { batch with expiry })

/-! ## Movements -/

/-- Creates the batch of a movement's key, if it names one. -/
def ensureMovementBatch (m : Movement) : SqlM Unit :=
  match m.key.batch.code? with
  | none => pure ()
  | some code => do
    let _ ← ensureBatch ⟨m.key.item, m.key.warehouse, code⟩ m.production m.expiry m.occurredAt.date

/-- Writes a movement that changes its slot, once the slot is locked. -/
def applyLocked (m : Movement) : SqlM (Ending Outcome) := do
  let (slot, before) ← lockSlot m.key
  match ← entryAt? m.documentLine with
  | some e => pure (.leave (.ofReplayed e))
  | none => do
    let after ← StoreM.ofRule (quantityAfter before m)
    ensureMovementBatch m
    let e ← writeMovement slot m after
    pure (.keep (.ofApplied e))

/-- Writes one movement down. -/
def apply (m : Movement) : SqlM Outcome := do
  StoreM.ofRule m.check
  transaction do
    match ← entryAt? m.documentLine with
    | some e => pure (.leave (.ofReplayed e))
    | none =>
      if m.delta = 0 then do
        let quantity ← quantityOf m.key
        pure (.leave (.unchanged m.key quantity))
      else applyLocked m

/-! ## Allocations -/

/-- The slots that may feed an allocation, by row number. -/
def candidates (item : ItemId) (warehouse : WarehouseId) (lock : Bool) : SqlM (List Candidate) := do
  let rs ← rows "load_candidates" (.selectCandidates item warehouse lock)
  decode Row.candidate rs

/-- Plans an allocation from the slots as they are. -/
def plan (item : ItemId) (warehouse : WarehouseId) (quantity : Int) (options : PlanOptions) :
    SqlM AllocationPlan := do
  connect "acquire"
  let cs ← candidates item warehouse false
  StoreM.ofRule (planAllocation item warehouse quantity cs options)

/-- The answer that an earlier request has left. -/
def priorAllocation (r : AllocationRequest) : SqlM (Option AllocationResult) := do
  let rs ← rows "allocation_replay" (.selectEntries r.reference)
  let entries ← decode Row.entry rs
  let legs ← StoreM.ofRule (priorLegs entries r)
  pure (legs.map (.ofPrior r))

/-- Writes legs down one after another, each in its locked slot. -/
def writeLegs (locked : List Candidate) : List Movement → SqlM (List LedgerEntry)
  | [] => pure []
  | m :: rest => do
    match locked.find? (fun c => c.key == m.key) with
    | none => throw (.storage s!"planned slot {m.key} not locked")
    | some c => do
      StoreM.ofRule m.check
      let after ← StoreM.ofRule (quantityAfter c.quantity m)
      let e ← writeMovement c.sequence m after
      let es ← writeLegs locked rest
      pure (e :: es)

/-- Plans and writes an allocation, once its slots are locked. -/
def allocateLocked (r : AllocationRequest) : SqlM (Ending AllocationResult) := do
  let locked ← candidates r.item r.warehouse true
  match ← priorAllocation r with
  | some result => pure (.leave result)
  | none => do
    let plan ← StoreM.ofRule
      (planAllocation r.item r.warehouse r.quantity locked r.planOptions)
    let entries ← writeLegs locked (r.legMovements plan.legs)
    pure (.keep ⟨plan, entries, false⟩)

/-- Plans an allocation and writes its legs; a repetition gets the legs written earlier. -/
def allocate (r : AllocationRequest) : SqlM AllocationResult :=
  transaction do
    match ← priorAllocation r with
    | some result => pure (.leave result)
    | none => allocateLocked r

/-! ## Reading -/

/-- The total of each key inside a cut; of several rows for one key the last counts. -/
def totals (cut : LedgerCut) : SqlM Totals := do
  let rs ← rowsAlone "ledger_totals" (.selectTotals cut)
  let slots ← decode Row.slot rs
  pure (.ofList (slots.map (fun s => (s.key, s.quantity))))

/-- Row counts of the ledger. -/
def ledgerStats (since : Instant) : SqlM LedgerStats := do
  connect "ledger_stats"
  let r ← row "ledger_stats" (.selectLedgerStats since)
  StoreM.ofResult do
    pure ⟨← r.count "ledger_rows", ← r.count "outbound_rows", ← r.count "rows_since"⟩

/-- The balances of keys, as the server lists them. -/
def balances (keys : List StockKey) : SqlM (List KeyBalance) := do
  if keys.isEmpty then pure []
  else do
    let rs ← rowsAlone "key_balances" (.selectBalances keys)
    decode Row.balance rs

/-! ## Snapshots -/

/-- The text under which writers of a day's snapshot wait for each other. -/
def snapshotLock (d : Date) : String := "stock_snapshot:" ++ d.text

/-- Computes the snapshot of a day anew; the server's summary is read after the commit. -/
def rebuildSnapshot (d : Date) : SqlM SnapshotSummary := do
  let r ← transaction do
    execute "snapshot_lock" (.advisoryLock (snapshotLock d))
    execute "snapshot_delete" (.deleteSnapshot d)
    execute "snapshot_insert" (.insertSnapshot d)
    let r ← row "snapshot_summary" (.selectSnapshotSummary d)
    pure (.keep r)
  StoreM.ofResult do pure ⟨some d, ← r.count "slot_count", ← r.integer "total_qty"⟩

/-! ## The store -/

/-- Stock kept by a database server, as a store. -/
def store : StockStore SqlM where
  apply := apply
  resolveBatch := resolveBatch
  correctExpiry := correctExpiry
  batches := do
    let rs ← rowsAlone "batches" .selectBatches
    decode Row.batch rs
  totals := totals
  entriesOf reference := do
    let rs ← rowsAlone "ledger_entries" (.selectEntries reference)
    decode Row.entry rs
  ledgerStats := ledgerStats
  entriesBetween since upTo := do
    let rs ← rowsAlone "ledger_between" (.selectEntriesBetween since upTo)
    decode Row.entry rs
  balances := balances
  slots := do
    let rs ← rowsAlone "stock_slots" .selectSlots
    decode Row.slot rs
  snapshot d := do
    let rs ← rowsAlone "snapshot_rows" (.selectSnapshot d)
    decode Row.snapshotRow rs
  rebuildSnapshot := rebuildSnapshot
  plan := plan
  allocate := allocate

end Stock

end Sql

end Stockroom
