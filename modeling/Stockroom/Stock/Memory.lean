/-
Stockroom.Stock.Memory — stock kept in memory.

The state holds the ledger, an index from document lines to ledger positions, the slots,
the batches and the day snapshots. `apply` changes them one after another: the batch is
created first, then the slot is set, then the entry is written. `allocate` plans, checks
all its legs, and applies them in turn.
-/
import Stockroom.Data.OrderedMap
import Stockroom.Stock.Store

namespace Stockroom

/-- The quantity of a slot, and when it was created relative to the others. -/
structure Slot where
  quantity : Int
  sequence : Int
  deriving DecidableEq, Repr

/-- Stock kept in memory. -/
structure StockState where
  /-- Every entry, the oldest first. -/
  ledger : List LedgerEntry
  /-- Where in the ledger the entry of a document line stands. -/
  index : OrderedMap DocumentLine Nat
  slots : OrderedMap StockKey Slot
  batches : OrderedMap BatchIdentity Batch
  /-- The sequence number given to a slot last. -/
  lastSequence : Int
  snapshots : OrderedMap Date (List SnapshotRow)
  /-- The time that new batches are stamped with. -/
  clock : Instant
  deriving DecidableEq

namespace StockState

/-- No stock at all. -/
def empty (clock : Instant) : StockState where
  ledger := []
  index := .empty
  slots := .empty
  batches := .empty
  lastSequence := 0
  snapshots := .empty
  clock := clock

/-! ## Views -/

/-- The quantity of a slot; a missing slot holds nothing. -/
def quantity (s : StockState) (k : StockKey) : Int := ((s.slots.get? k).map (·.quantity)).getD 0

/-- The entry of a document line. -/
def entryAt? (s : StockState) (l : DocumentLine) : Option LedgerEntry :=
  (s.index.get? l).bind (fun i => s.ledger[i]?)

/-- The entries of a reference, the oldest first. -/
def entriesOf (s : StockState) (reference : String) : List LedgerEntry :=
  s.ledger.filter (fun e => e.reference == reference)

/-- The expiry date of the batch of a key. -/
def expiryOf (s : StockState) (k : StockKey) : Option Date := do
  let code ← k.batch.code?
  let batch ← s.batches.get? ⟨k.item, k.warehouse, code⟩
  batch.expiry

/-- The slots of an item in a warehouse that hold something, by key. -/
def candidates (s : StockState) (item : ItemId) (warehouse : WarehouseId) : List Candidate :=
  (s.slots.toList.filter (fun b => b.1.isOf item warehouse && decide (0 < b.2.quantity))).map
    (fun b => ⟨b.1, b.2.quantity, s.expiryOf b.1, b.2.sequence⟩)

/-- The ledger total and the slot quantity of a key. -/
def balance (s : StockState) (k : StockKey) : KeyBalance :=
  ⟨k, sumOf (·.delta) (s.ledger.filter (fun e => e.key == k)), s.quantity k⟩

/-! ## Changes -/

/-- Stores a batch under its identity. -/
def putBatch (s : StockState) (b : Batch) : StockState :=
  { s with batches := s.batches.insert b.identity b }

/-- Sets the quantity of a slot; a new slot gets the next sequence number. -/
def setQuantity (s : StockState) (k : StockKey) (quantity : Int) : StockState :=
  match s.slots.get? k with
  | some slot => { s with slots := s.slots.insert k { slot with quantity } }
  | none =>
    { s with
      slots := s.slots.insert k ⟨quantity, s.lastSequence + 1⟩
      lastSequence := s.lastSequence + 1 }

/-- Writes an entry at the end of the ledger. -/
def append (s : StockState) (e : LedgerEntry) : StockState :=
  { s with
    index := s.index.insert e.documentLine s.ledger.length
    ledger := s.ledger ++ [e] }

/-- Stores the rows of a day's snapshot in place of what was there. -/
def putSnapshot (s : StockState) (d : Date) (rows : List SnapshotRow) : StockState :=
  { s with snapshots := s.snapshots.insert d rows }

end StockState

namespace MemoryStock

/-- A step on stock kept in memory. -/
abbrev Step := StoreM StockState

/-! ## Batches -/

/-- Finds a batch, or creates it with the given dates. -/
def ensureBatch (identity : BatchIdentity) (production expiry : Option Date) (on : Date) :
    Step Batch := do
  let s ← get
  match s.batches.get? identity with
  | some batch => pure batch
  | none =>
    let (production, expiry) ← StoreM.ofRule (inboundDates production expiry on)
    let batch : Batch :=
      ⟨s.batches.size + 1, identity.item, identity.warehouse, identity.code, production, expiry,
        s.clock⟩
    set (s.putBatch batch)
    pure batch

/-- Finds or creates the batch of a code from outside. -/
def resolveBatch (item : ItemId) (warehouse : WarehouseId) (code : String)
    (production expiry : Option Date) (on : Date) : Step Batch := do
  let key ← StoreM.ofRule (BatchKey.ofRequiredCode code)
  ensureBatch ⟨item, warehouse, key.key⟩ production expiry on

/-- Replaces the expiry date of a batch. -/
def correctExpiry (item : ItemId) (warehouse : WarehouseId) (code : String)
    (expiry : Option Date) : Step Batch := do
  let key ← StoreM.ofRule (BatchKey.ofRequiredCode code)
  let s ← get
  match s.batches.get? ⟨item, warehouse, key.key⟩ with
  | none => throw (.domain (.notFound s!"batch {key} of item {item}"))
  | some batch =>
    StoreM.ofRule (checkDates batch.production expiry)
    let batch := { batch with expiry }
    set (s.putBatch batch)
    pure batch

/-! ## Movements -/

/-- Creates the batch of an inbound movement's key, if it names one. -/
def ensureMovementBatch (m : Movement) : Step Unit :=
  match m.key.batch.code? with
  | none => pure ()
  | some code => do
    let _ ← ensureBatch ⟨m.key.item, m.key.warehouse, code⟩ m.production m.expiry m.occurredAt.date

/-- Writes one movement down; gives the outcome, and the entry if one was written. -/
def write (m : Movement) : Step (Outcome × Option LedgerEntry) := do
  StoreM.ofRule m.check
  let s ← get
  match s.entryAt? m.documentLine with
  | some e => pure (.ofReplayed e, none)
  | none =>
    let before := s.quantity m.key
    if m.delta = 0 then pure (.unchanged m.key before, none)
    else
      let after ← StoreM.ofRule (quantityAfter before m)
      ensureMovementBatch m
      let e := m.toEntry (s.ledger.length + 1) after
      modify (·.setQuantity m.key after)
      modify (·.append e)
      pure (.ofApplied e, some e)

/-- Writes one movement down. -/
def apply (m : Movement) : Step Outcome := do
  let (outcome, _) ← write m
  pure outcome

/-! ## Allocations -/

/-- Plans an allocation from the slots as they are. -/
def plan (item : ItemId) (warehouse : WarehouseId) (quantity : Int) (options : PlanOptions) :
    Step AllocationPlan := do
  let s ← get
  StoreM.ofRule (planAllocation item warehouse quantity (s.candidates item warehouse) options)

/-- Refuses legs that are malformed or whose line is taken, before anything is written. -/
def checkLegs (s : StockState) : List Movement → Except DomainError Unit
  | [] => .ok ()
  | m :: rest => do
    m.check
    if s.index.contains m.documentLine then
      .error (.conflict s!"ref_line {m.line} of {m.reference} is already used")
    else checkLegs s rest

/-- Writes legs down one after another. -/
def writeLegs : List Movement → Step (List LedgerEntry)
  | [] => pure []
  | m :: rest => do
    let (_, e) ← write m
    let es ← writeLegs rest
    pure (e.toList ++ es)

/-- Plans an allocation and writes its legs; a repetition gets the legs written earlier. -/
def allocate (r : AllocationRequest) : Step AllocationResult := do
  let s ← get
  match ← StoreM.ofRule (priorLegs (s.entriesOf r.reference) r) with
  | some legs => pure (.ofPrior r legs)
  | none =>
    let plan ← plan r.item r.warehouse r.quantity r.planOptions
    let movements := r.legMovements plan.legs
    StoreM.ofRule (checkLegs s movements)
    let entries ← writeLegs movements
    pure ⟨plan, entries, false⟩

/-! ## Snapshots -/

/-- Computes the snapshot of a day from the ledger and stores it. -/
def rebuildSnapshot (d : Date) : Step SnapshotSummary := do
  let s ← get
  let rows := snapshotRows d s.ledger
  set (s.putSnapshot d rows)
  pure (.ofRows d rows)

/-! ## The store -/

/-- Stock kept in memory, as a store. -/
def store : StockStore (StoreM StockState) where
  apply := apply
  resolveBatch := resolveBatch
  correctExpiry := correctExpiry
  batches := do pure (← get).batches.values
  totals cut := do pure (totals (← get).ledger cut)
  entriesOf reference := do pure ((← get).entriesOf reference)
  ledgerStats since := do
    let ledger := (← get).ledger
    pure ⟨ledger.length, ledger.countP (·.isOutbound),
      ledger.countP (fun e => decide (since ≤ e.occurredAt))⟩
  entriesBetween since upTo := do
    pure ((← get).ledger.filter
      (fun e => decide (since ≤ e.occurredAt) && decide (e.occurredAt ≤ upTo)))
  balances keys := do
    let s ← get
    pure (keys.map s.balance)
  slots := do pure ((← get).slots.toList.map (fun b => ⟨b.1, b.2.quantity⟩))
  snapshot d := do pure ((← get).snapshots.getD d [])
  rebuildSnapshot := rebuildSnapshot
  plan := plan
  allocate := allocate

end MemoryStock

end Stockroom
