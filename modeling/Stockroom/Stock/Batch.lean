/-
Stockroom.Stock.Batch — production batches, their dates, and what is about to expire.

A batch is one item's production in one warehouse. At least one of its dates is set when
it is first stored (`inboundDates`), and it never expires before it was produced.
`ageing` lists the batches that are close to their expiry date.
-/
import Stockroom.Calendar.Instant
import Stockroom.Data.Sorting
import Stockroom.Identity.Number
import Stockroom.Identity.BatchKey

namespace Stockroom

/-! ## Batches -/

/-- What makes a batch the same batch. -/
@[ext] structure BatchIdentity where
  item : ItemId
  warehouse : WarehouseId
  code : String
  deriving DecidableEq, Repr

namespace BatchIdentity

/-- The order of batches: item, then warehouse, then code. -/
def order : BatchIdentity → BatchIdentity → Ordering :=
  compareLex (compareOn BatchIdentity.item)
    (compareLex (compareOn BatchIdentity.warehouse) (compareOn BatchIdentity.code))

instance : Ord BatchIdentity := ⟨order⟩
instance : Std.TransOrd BatchIdentity :=
  inferInstanceAs (Std.TransCmp (compareLex (compareOn BatchIdentity.item)
    (compareLex (compareOn BatchIdentity.warehouse) (compareOn BatchIdentity.code))))
instance : Std.LawfulEqOrd BatchIdentity where
  eq_of_compare {a b} h := by
    have h : (compare a.item b.item).then
        ((compare a.warehouse b.warehouse).then (compare a.code b.code)) = .eq := h
    rw [Ordering.then_eq_eq, Ordering.then_eq_eq] at h
    exact BatchIdentity.ext (Std.LawfulEqOrd.eq_of_compare h.1)
      (Std.LawfulEqOrd.eq_of_compare h.2.1) (Std.LawfulEqOrd.eq_of_compare h.2.2)

end BatchIdentity

/-- A production batch of one item in one warehouse. -/
structure Batch where
  id : Int
  item : ItemId
  warehouse : WarehouseId
  code : String
  production : Option Date
  expiry : Option Date
  createdAt : Instant
  deriving DecidableEq

namespace Batch

/-- What makes the batch the same batch. -/
def identity (b : Batch) : BatchIdentity := ⟨b.item, b.warehouse, b.code⟩

/-- The batch part of the keys of its slots. -/
def key (b : Batch) : BatchKey := ⟨b.code⟩

/-- Days from `today` until it expires. -/
def daysLeft (b : Batch) (today : Date) : Option Int := b.expiry.map (·.daysSince today)

end Batch

/-- Refuses an expiry date before the production date. -/
def checkDates (production expiry : Option Date) : Except DomainError Unit :=
  match production, expiry with
  | some p, some e =>
    if e < p then
      .error (.validation s!"expiry_date ({e}) is before production_date ({p})")
    else .ok ()
  | _, _ => .ok ()

/-- The dates of a batch first met on `on`: if none is known, it was produced that day. -/
def inboundDates (production expiry : Option Date) (on : Date) :
    Except DomainError (Option Date × Option Date) := do
  let production := if production.isNone && expiry.isNone then some on else production
  checkDates production expiry
  pure (production, expiry)

/-! ## Expiry risk -/

/-- How close a batch is to its expiry date. -/
inductive RiskLevel where
  | high | medium | low
  deriving DecidableEq, Repr

namespace RiskLevel

/-- The level of a number of days left; batches far from expiry have none. -/
def ofDaysLeft (days : Int) : Option RiskLevel :=
  if days ≤ 7 then some .high
  else if days ≤ 14 then some .medium
  else if days ≤ 30 then some .low
  else none

/-- The points a batch of this level adds to the risk score. -/
def weight : RiskLevel → Nat
  | high => 3
  | medium => 2
  | low => 1

/-- Every level. -/
def all : List RiskLevel := [high, medium, low]

/-- The written name. -/
def text : RiskLevel → String
  | high => "HIGH"
  | medium => "MEDIUM"
  | low => "LOW"

/-- The level with exactly this name. -/
def ofText? (s : String) : Option RiskLevel := all.find? (fun r => r.text == s)

theorem ofText?_text (r : RiskLevel) : ofText? r.text = some r := by cases r <;> decide

end RiskLevel

/-- A batch at risk. -/
structure BatchAgeing where
  item : ItemId
  warehouse : WarehouseId
  code : String
  expiry : Date
  daysLeft : Int
  risk : RiskLevel
  deriving DecidableEq

namespace BatchAgeing

/-- The report row of a batch that expires within `within` days and has a risk level. -/
def ofBatch? (today : Date) (within : Int) (b : Batch) : Option BatchAgeing := do
  let expiry ← b.expiry
  let daysLeft := expiry.daysSince today
  let risk ← RiskLevel.ofDaysLeft daysLeft
  if daysLeft ≤ within then some ⟨b.item, b.warehouse, b.code, expiry, daysLeft, risk⟩ else none

/-- The order of the report: days left, then warehouse, item and code. -/
def order : BatchAgeing → BatchAgeing → Ordering :=
  compareLex (compareOn BatchAgeing.daysLeft)
    (compareLex (compareOn BatchAgeing.warehouse)
      (compareLex (compareOn BatchAgeing.item) (compareOn BatchAgeing.code)))

end BatchAgeing

/-- The batches that expire within `within` days of `today`, the closest first. -/
def ageing (batches : List Batch) (today : Date) (within : Int) : List BatchAgeing :=
  sortBy (fun a b => (BatchAgeing.order a b).isLE)
    (batches.filterMap (BatchAgeing.ofBatch? today within))

end Stockroom
