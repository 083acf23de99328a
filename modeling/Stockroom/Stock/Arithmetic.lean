/-
Stockroom.Stock.Arithmetic — computing in numbers of a fixed width.

Quantities are kept in 64 bits and lines in 32. A movement makes sure that the quantity it
leaves has room there, and is refused otherwise. Nothing else does: totals, sums, differences
and lines are computed as they come, and a number that leaves its range stops the program.
Here that is the failure `StoreError.outOfRange`; apart from it, each operation is the exact
one of the same name.
-/
import Stockroom.Error
import Stockroom.Stock.Allocation
import Stockroom.Stock.Diagnostics
import Stockroom.Stock.Reconciliation
import Stockroom.Text.Integer

namespace Stockroom

open IntegerRange (signed32 signed64)

/-! ## Numbers of a range -/

namespace IntegerRange

/-- The number itself, which has to lie in the range. -/
def keep (r : IntegerRange) (n : Int) : Except StoreError Int :=
  if r.contains n then .ok n else .error .outOfRange

/-- A sum that has to lie in the range after each term, counted on from `start`. -/
def sumFrom {α : Type} (r : IntegerRange) (f : α → Int) (start : Int) :
    List α → Except StoreError Int
  | [] => .ok start
  | x :: xs => do
    let total ← r.keep (start + f x)
    r.sumFrom f total xs

/-- A sum that has to lie in the range after each term. -/
def sum {α : Type} (r : IntegerRange) (f : α → Int) (xs : List α) : Except StoreError Int :=
  r.sumFrom f 0 xs

end IntegerRange

namespace Bounded

/-! ## Totals -/

/-- Counts entries one after another, where the sum of each one's group has to have room for
its change. -/
def tally {μ κ : Type} (sum : μ → κ → Int) (group : LedgerEntry → κ) (count : μ → LedgerEntry → μ)
    (m : μ) : List LedgerEntry → Except StoreError μ
  | [] => .ok m
  | e :: rest => do
    let _ ← signed64.keep (sum m (group e) + e.delta)
    tally sum group count (count m e) rest

/-- The total of each key over the entries inside the cut; keys that come to zero are left
out. -/
def totals (entries : List LedgerEntry) (cut : LedgerCut) : Except StoreError Totals := do
  let sums ← tally Totals.quantity (·.key) (fun m e => m.add e.key e.delta) .empty
    (entries.filter (fun e => cut.includes e.occurredAt))
  pure (sums.filter (fun _ q => q != 0))

/-! ## Day snapshots -/

/-- The rows of a day's snapshot, in the order of their keys. -/
def snapshotRows (d : Date) (entries : List LedgerEntry) :
    Except StoreError (List SnapshotRow) := do
  let sums ← totals entries (.ofDay d)
  pure (sums.toList.map (fun b => ⟨d, b.1, b.2, b.2, 0⟩))

/-- The size of totals taken on the fly. -/
def summaryOfTotals (m : Totals) : Except StoreError SnapshotSummary := do
  let quantity ← signed64.sum (·.2) m.toList
  pure ⟨none, m.size, quantity⟩

/-- The size of a stored snapshot. -/
def summaryOfRows (d : Date) (rows : List SnapshotRow) : Except StoreError SnapshotSummary := do
  let quantity ← signed64.sum (·.onHand) rows
  pure ⟨some d, rows.length, quantity⟩

/-! ## Comparisons -/

/-- The keys among the given ones on which the sides differ. -/
def mismatchesAt (kind : MismatchKind) (left right : Totals) :
    List StockKey → Except StoreError (List Mismatch)
  | [] => .ok []
  | k :: rest =>
    let l := Totals.quantity left k
    let r := Totals.quantity right k
    if l = r then mismatchesAt kind left right rest
    else do
      let diff ← signed64.keep (l - r)
      let others ← mismatchesAt kind left right rest
      pure (⟨kind, k, l, r, diff⟩ :: others)

/-- The keys on which the sides differ, ascending. -/
def mismatches (kind : MismatchKind) (left right : Totals) : Except StoreError (List Mismatch) :=
  mismatchesAt kind left right (eitherKeys left right)

/-- Compares the three, key by key. -/
def reconcile (cut : Instant) (ledger stock snapshot : Totals) :
    Except StoreError ReconciliationReport := do
  let ledgerVsStock ← mismatches .ledgerVsStock ledger stock
  let ledgerVsSnapshot ← mismatches .ledgerVsSnapshot ledger snapshot
  let stockVsSnapshot ← mismatches .stockVsSnapshot stock snapshot
  pure ⟨cut, stock.size, matching ledger stock.toList, ledgerVsStock, ledgerVsSnapshot,
    stockVsSnapshot⟩

/-! ## Activity of a period -/

/-- Summaries of the entries of each group. -/
def groupBy {κ : Type} [Ord κ] [Std.TransOrd κ] (group : LedgerEntry → κ)
    (entries : List LedgerEntry) : Except StoreError (OrderedMap κ DeltaSummary) :=
  tally (fun m g => (m.getD g .zero).total) group
    (fun m e => m.alter (group e) (fun s => some ((s.getD .zero).add e.delta))) .empty entries

/-- The activity between two instants; other entries are skipped. -/
def diagnose (entries : List LedgerEntry) (since upTo : Instant) :
    Except StoreError LedgerDiagnostics := do
  let inside := entries.filter (LedgerEntry.isWithin since upTo)
  let byClass ← groupBy (·.reason.movementClass) inside
  let byReference ← groupBy (·.reference) inside
  let byTrace ← groupBy (·.trace.val) inside
  pure { since, upTo, byClass, byReference, byTrace }

/-! ## Plans -/

/-- Plans to take `quantity` of an item from a warehouse. -/
def planAllocation (item : ItemId) (warehouse : WarehouseId) (quantity : Int)
    (candidates : List Candidate) (options : PlanOptions) : Except StoreError AllocationPlan :=
  if quantity ≤ 0 then
    .error (.domain (.validation s!"allocation qty must be positive, got {quantity}"))
  else do
    let q := queue item warehouse options candidates
    let available ← signed64.sum (·.quantity) q
    if available < quantity then .error (.domain (.insufficientStock quantity available))
    else
      let (outcome, q) := prefer options.preferred q
      .ok ⟨item, warehouse, quantity, takeLegs quantity q, outcome⟩

/-! ## Lines -/

/-- The outbound movements of legs, on consecutive lines from `line` on. The line behind that
of a leg is computed with it, whether it is used or not. -/
def legMovementsFrom (r : AllocationRequest) (line : Int) :
    List AllocationLeg → Except StoreError (List Movement)
  | [] => .ok []
  | leg :: rest => do
    let next ← signed32.keep (line + 1)
    let others ← legMovementsFrom r next rest
    pure (r.legMovement leg line :: others)

/-- The entries whose lines go up by one from `line`; others are skipped. -/
def consecutiveFrom (line : Int) : List LedgerEntry → Except StoreError (List LedgerEntry)
  | [] => .ok []
  | e :: rest =>
    if e.line = line then do
      let next ← signed32.keep (line + 1)
      let others ← consecutiveFrom next rest
      pure (e :: others)
    else consecutiveFrom line rest

/-- The legs that an earlier request has left, given the entries of the reference. -/
def priorLegs (entries : List LedgerEntry) (r : AllocationRequest) :
    Except StoreError (Option (List LedgerEntry)) :=
  match entries.find? (fun e => e.line == r.startLine) with
  | none => .ok none
  | some head =>
    if r.isLeg head then do
      let legs := entries.filter (fun e => decide (r.startLine ≤ e.line) && r.isLeg e)
      let run ← consecutiveFrom r.startLine (sortOn (·.line) legs)
      pure (some run)
    else
      .error (.domain
        (.conflict s!"ref_line {r.startLine} of {r.reference} is used by another movement"))

/-- The plan that legs written earlier stand for. A leg takes stock out, so that one whose
quantity has no room leaves none for the sum. -/
def planOfLegs (r : AllocationRequest) (legs : List LedgerEntry) :
    Except StoreError AllocationPlan := do
  let requested ← signed64.sum (fun e => -e.delta) legs
  pure { Stockroom.planOfLegs r legs with requested }

end Bounded

/-! ## What an engine computes by itself -/

/-- How an engine computes with what its stores have answered. -/
structure Arithmetic where
  /-- The size of totals. -/
  summary : Totals → Except StoreError SnapshotSummary
  /-- The comparison of the totals of the ledger, the slots and a snapshot. -/
  reconcile : Instant → Totals → Totals → Totals → Except StoreError ReconciliationReport
  /-- The activity between two instants. -/
  diagnose : List LedgerEntry → Instant → Instant → Except StoreError LedgerDiagnostics

namespace Arithmetic

/-- Numbers without a limit. -/
def exact : Arithmetic where
  summary m := .ok (.ofTotals m)
  reconcile cut ledger stock snapshot := .ok (Stockroom.reconcile cut ledger stock snapshot)
  diagnose entries since upTo := .ok (Stockroom.diagnose entries since upTo)

/-- Numbers of a fixed width. -/
def bounded : Arithmetic where
  summary := Bounded.summaryOfTotals
  reconcile := Bounded.reconcile
  diagnose := Bounded.diagnose

end Arithmetic

end Stockroom
