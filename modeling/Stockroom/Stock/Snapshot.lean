/-
Stockroom.Stock.Snapshot — totals of the ledger up to a point in time.

A cut says which entries count. `totals` adds up the changes of each key inside a cut and
drops the keys that come to zero; a day's snapshot lists the totals of everything that
happened before the next midnight.
-/
import Stockroom.Data.OrderedMap
import Stockroom.Data.Sum
import Stockroom.Stock.Movement

namespace Stockroom

/-! ## Cuts -/

/-- Which ledger entries count, by the time they occurred. -/
inductive LedgerCut where
  | atOrBefore (t : Instant)
  | before (t : Instant)
  deriving DecidableEq

namespace LedgerCut

/-- Whether an entry that occurred at `t` counts. -/
def includes (cut : LedgerCut) (t : Instant) : Bool :=
  match cut with
  | atOrBefore bound => decide (t ≤ bound)
  | before bound => decide (t < bound)

/-- The bound of the cut. -/
def instant : LedgerCut → Instant
  | atOrBefore t => t
  | before t => t

/-- The first instant that a day's snapshot leaves out: the next midnight, or, on the last
representable day, that day's own. -/
def endOfDay (d : Date) : Instant := Instant.ofDate (d.next?.getD .last)

/-- The cut of a day's snapshot. -/
def ofDay (d : Date) : LedgerCut := before (endOfDay d)

end LedgerCut

/-! ## Totals -/

/-- Quantities per key. -/
abbrev Totals := OrderedMap StockKey Int

namespace Totals

/-- The quantity of a key; a missing key counts as zero. -/
def quantity (m : Totals) (k : StockKey) : Int := m.getD k 0

/-- Adds `delta` to the quantity of a key. -/
def add (m : Totals) (k : StockKey) (delta : Int) : Totals :=
  m.alter k (fun present => some (present.getD 0 + delta))

/-- The sum over all keys. -/
def sum (m : Totals) : Int := sumOf (·.2) m.toList

end Totals

/-- The total of each key over the entries inside the cut; keys that come to zero are left
out. -/
def totals (entries : List LedgerEntry) (cut : LedgerCut) : Totals :=
  ((entries.filter (fun e => cut.includes e.occurredAt)).foldl
    (fun m e => Totals.add m e.key e.delta) .empty).filter (fun _ q => q != 0)

/-! ## Day snapshots -/

/-- One key's quantity in a day's snapshot. -/
structure SnapshotRow where
  date : Date
  key : StockKey
  onHand : Int
  available : Int
  allocated : Int
  deriving DecidableEq

/-- The size of a snapshot. -/
structure SnapshotSummary where
  /-- The day of a stored snapshot; a cut taken on the fly has none. -/
  date : Option Date
  slots : Nat
  quantity : Int
  deriving DecidableEq

/-- The rows of a day's snapshot, in the order of their keys. -/
def snapshotRows (d : Date) (entries : List LedgerEntry) : List SnapshotRow :=
  (totals entries (.ofDay d)).toList.map (fun b => ⟨d, b.1, b.2, b.2, 0⟩)

namespace SnapshotSummary

/-- The size of totals taken on the fly. -/
def ofTotals (m : Totals) : SnapshotSummary := ⟨none, m.size, Totals.sum m⟩

/-- The size of a stored snapshot. -/
def ofRows (d : Date) (rows : List SnapshotRow) : SnapshotSummary :=
  ⟨some d, rows.length, sumOf (·.onHand) rows⟩

end SnapshotSummary

end Stockroom
