/-
Stockroom.Stock.Bounded — stock kept in memory, in numbers of a fixed width.

The operations are those of `MemoryStock`, but where they add up or count, a number that
leaves its range stops the program. That happens before anything is written: what a stopped
operation leaves is what it has found.
-/
import Stockroom.Stock.Arithmetic
import Stockroom.Stock.Memory

namespace Stockroom.Bounded

/-- The totals of the ledger inside a cut. -/
def readTotals (cut : LedgerCut) : MemoryStock.Step Totals := do
  let s ← get
  StoreM.ofResult (totals s.ledger cut)

/-- Computes the snapshot of a day from the ledger and stores it; its size is known before. -/
def rebuildSnapshot (d : Date) : MemoryStock.Step SnapshotSummary := do
  let s ← get
  let rows ← StoreM.ofResult (snapshotRows d s.ledger)
  let summary ← StoreM.ofResult (summaryOfRows d rows)
  set (s.putSnapshot d rows)
  pure summary

/-- Plans an allocation from the slots as they are. -/
def plan (item : ItemId) (warehouse : WarehouseId) (quantity : Int) (options : PlanOptions) :
    MemoryStock.Step AllocationPlan := do
  let s ← get
  StoreM.ofResult (planAllocation item warehouse quantity (s.candidates item warehouse) options)

/-- Plans an allocation and writes its legs; a repetition gets the legs written earlier. -/
def allocate (r : AllocationRequest) : MemoryStock.Step AllocationResult := do
  let s ← get
  match ← StoreM.ofResult (priorLegs (s.entriesOf r.reference) r) with
  | some legs =>
    let plan ← StoreM.ofResult (planOfLegs r legs)
    pure ⟨plan, legs, true⟩
  | none =>
    let plan ← plan r.item r.warehouse r.quantity r.planOptions
    let movements ← StoreM.ofResult (legMovementsFrom r r.startLine plan.legs)
    StoreM.ofRule (MemoryStock.checkLegs s movements)
    let entries ← MemoryStock.writeLegs movements
    pure ⟨plan, entries, false⟩

/-- Stock kept in memory, as a store. The balance of a key needs no check: its entries add up
to what its slot has held in turn, and each movement has seen to it that this has room. -/
def store : StockStore (StoreM StockState) :=
  { MemoryStock.store with
    totals := readTotals
    rebuildSnapshot := rebuildSnapshot
    plan := plan
    allocate := allocate }

end Stockroom.Bounded
