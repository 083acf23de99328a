/-
Stockroom.Stock.Store — what the engine needs from a keeper of stock.

A store is a value of operations in some kind of step `m`. A step on a state may fail after
it has changed the state: the state after a failure is part of its meaning.
-/
import Stockroom.Error
import Stockroom.Stock.Allocation
import Stockroom.Stock.Batch
import Stockroom.Stock.CommitCheck
import Stockroom.Stock.Snapshot

namespace Stockroom

/-- A step on a state of type `σ` that may fail; the state survives a failure. -/
abbrev StoreM (σ : Type) := ExceptT StoreError (StateM σ)

/-- A broken business rule as a failing step. -/
def StoreM.ofRule {σ α : Type} (x : Except DomainError α) : StoreM σ α :=
  ExceptT.mk (pure (x.mapError .domain))

/-- A result as a step that does not look at the state. -/
def StoreM.ofResult {σ α : Type} (x : Except StoreError α) : StoreM σ α := ExceptT.mk (pure x)

/-- A step whose failure is a value. -/
def StoreM.attempt {σ α : Type} (x : StoreM σ α) : StoreM σ (Except StoreError α) :=
  ExceptT.mk (do pure (.ok (← x.run)))

/-- A step on a part of a state, as a step on the whole. -/
def StoreM.onPart {σ ρ α : Type} (part : σ → ρ) (replace : σ → ρ → σ) (x : StoreM ρ α) :
    StoreM σ α :=
  ExceptT.mk do
    let s ← get
    let (r, p) := x.run.run (part s)
    set (replace s p)
    pure r

/-- How many rows the ledger has: all, outbound ones, and recent ones. -/
structure LedgerStats where
  rows : Nat
  outbound : Nat
  since : Nat
  deriving DecidableEq, Repr

/-- The operations of a keeper of ledger, slots, batches and snapshots. -/
structure StockStore (m : Type → Type) where
  /-- Writes one movement down, unless its document line was written before. -/
  apply : Movement → m Outcome
  /-- Finds or creates a batch, given the dates of a new one and the day it is met. -/
  resolveBatch : ItemId → WarehouseId → String → Option Date → Option Date → Date → m Batch
  /-- Replaces the expiry date of a batch. -/
  correctExpiry : ItemId → WarehouseId → String → Option Date → m Batch
  /-- All batches, by item, warehouse and code. -/
  batches : m (List Batch)
  /-- The total of each key inside a cut. -/
  totals : LedgerCut → m Totals
  /-- The entries of a reference. -/
  entriesOf : String → m (List LedgerEntry)
  /-- Row counts; recent means from the given instant on. -/
  ledgerStats : Instant → m LedgerStats
  /-- The entries between two instants, both included. -/
  entriesBetween : Instant → Instant → m (List LedgerEntry)
  /-- The balances of keys, in the order asked. -/
  balances : List StockKey → m (List KeyBalance)
  /-- All slots, by key. -/
  slots : m (List StockSlot)
  /-- The stored snapshot of a day. -/
  snapshot : Date → m (List SnapshotRow)
  /-- Computes the snapshot of a day anew and stores it. -/
  rebuildSnapshot : Date → m SnapshotSummary
  /-- Plans an allocation and writes nothing. -/
  plan : ItemId → WarehouseId → Int → PlanOptions → m AllocationPlan
  /-- Plans an allocation and writes its legs. -/
  allocate : AllocationRequest → m AllocationResult

/-- A store whose steps are all carried over to another kind of step. -/
def StockStore.lift {m n : Type → Type} (f : {α : Type} → m α → n α) (s : StockStore m) :
    StockStore n where
  apply movement := f (s.apply movement)
  resolveBatch item warehouse code production expiry on :=
    f (s.resolveBatch item warehouse code production expiry on)
  correctExpiry item warehouse code expiry := f (s.correctExpiry item warehouse code expiry)
  batches := f s.batches
  totals cut := f (s.totals cut)
  entriesOf reference := f (s.entriesOf reference)
  ledgerStats since := f (s.ledgerStats since)
  entriesBetween since upTo := f (s.entriesBetween since upTo)
  balances keys := f (s.balances keys)
  slots := f s.slots
  snapshot d := f (s.snapshot d)
  rebuildSnapshot d := f (s.rebuildSnapshot d)
  plan item warehouse quantity options := f (s.plan item warehouse quantity options)
  allocate r := f (s.allocate r)

end Stockroom
