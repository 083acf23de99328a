/-
Stockroom.Stock.Fefo — first expiry, first out.

A plan takes a quantity from the slots of one item in one warehouse, the batch that
expires first being emptied first. Stock without an expiry date goes last, and slots that
expire together go in the order in which they were created. A preferred batch may jump
the queue; the plan then says so.
-/
import Stockroom.Data.Sorting
import Stockroom.Data.Sum
import Stockroom.Stock.Key
import Stockroom.Calendar.Date

namespace Stockroom

/-! ## Candidates -/

/-- A slot that may feed an allocation. -/
structure Candidate where
  key : StockKey
  quantity : Int
  expiry : Option Date
  /-- When the slot was created, relative to the others. -/
  sequence : Int
  deriving DecidableEq

/-- What an allocation may use. -/
structure PlanOptions where
  /-- Batches that expire before this day are left alone. -/
  onDate : Date
  /-- Expired batches may be used after all. -/
  allowExpired : Bool
  /-- A batch to empty first. -/
  preferred : Option BatchKey
  deriving DecidableEq

/-- The place of an expiry date in the queue: dates first, no date last. -/
def expiryOrder : Option Date → Option Date → Ordering
  | some a, some b => compare a b
  | some _, none => .lt
  | none, some _ => .gt
  | none, none => .eq

namespace Candidate

/-- Whether the candidate may feed an allocation of the item from the warehouse. -/
def isEligible (item : ItemId) (warehouse : WarehouseId) (options : PlanOptions)
    (c : Candidate) : Bool :=
  c.key.isOf item warehouse && decide (0 < c.quantity) &&
    (options.allowExpired || c.expiry.all (fun e => decide (options.onDate ≤ e)))

/-- Whether `a` may stand before `b` in the queue. -/
def precedes (a b : Candidate) : Bool :=
  ((expiryOrder a.expiry b.expiry).then (compare a.sequence b.sequence)).isLE

end Candidate

/-- The eligible candidates in the order in which they are to be emptied. -/
def queue (item : ItemId) (warehouse : WarehouseId) (options : PlanOptions)
    (candidates : List Candidate) : List Candidate :=
  sortBy Candidate.precedes (candidates.filter (Candidate.isEligible item warehouse options))

/-- The stock that a list of candidates offers together. -/
def offered (candidates : List Candidate) : Int := sumOf (·.quantity) candidates

/-! ## Plans -/

/-- What is to be taken from one slot. -/
structure AllocationLeg where
  key : StockKey
  quantity : Int
  expiry : Option Date
  deriving DecidableEq

/-- Whether a plan kept to the queue. -/
inductive FefoOutcome where
  | strict
  /-- The batch `used` was taken before the batch `head`, which expires first. -/
  | fallback (used head : BatchKey)
  deriving DecidableEq, Repr

namespace FefoOutcome

/-- Whether the plan left the queue. -/
def isFallback : FefoOutcome → Bool
  | strict => false
  | fallback _ _ => true

/-- The written name. -/
def text : FefoOutcome → String
  | strict => "strict"
  | fallback _ _ => "fallback"

end FefoOutcome

/-- How a quantity is taken from slots. -/
structure AllocationPlan where
  item : ItemId
  warehouse : WarehouseId
  requested : Int
  legs : List AllocationLeg
  outcome : FefoOutcome
  deriving DecidableEq

/-- The quantity a plan takes. -/
def AllocationPlan.allocated (p : AllocationPlan) : Int := sumOf (·.quantity) p.legs

/-- Moves the first candidate of the preferred batch to the front of the queue. -/
def prefer (preferred : Option BatchKey) (q : List Candidate) : FefoOutcome × List Candidate :=
  match preferred, q with
  | some batch, head :: rest =>
    if head.key.batch = batch then (.strict, q)
    else
      match rest.find? (fun c => c.key.batch == batch) with
      | none => (.strict, q)
      | some chosen =>
        (.fallback batch head.key.batch,
          chosen :: head :: rest.eraseP (fun c => c.key.batch == batch))
  | _, _ => (.strict, q)

/-- Empties candidates from the front until `remaining` is covered. -/
def takeLegs (remaining : Int) : List Candidate → List AllocationLeg
  | [] => []
  | c :: rest =>
    if remaining = 0 then []
    else
      let taken := min remaining c.quantity
      ⟨c.key, taken, c.expiry⟩ :: takeLegs (remaining - taken) rest

/-- Plans to take `quantity` of an item from a warehouse. -/
def planAllocation (item : ItemId) (warehouse : WarehouseId) (quantity : Int)
    (candidates : List Candidate) (options : PlanOptions) : Except DomainError AllocationPlan :=
  if quantity ≤ 0 then
    .error (.validation s!"allocation qty must be positive, got {quantity}")
  else
    let q := queue item warehouse options candidates
    if offered q < quantity then .error (.insufficientStock quantity (offered q))
    else
      let (outcome, q) := prefer options.preferred q
      .ok ⟨item, warehouse, quantity, takeLegs quantity q, outcome⟩

/-! ## Quality of allocations -/

/-- How many plans kept to the queue, and how many left it. -/
structure FefoStats where
  hits : Nat
  fallbacks : Nat
  deriving DecidableEq, Repr

namespace FefoStats

/-- Nothing counted yet. -/
def zero : FefoStats := ⟨0, 0⟩

/-- Counts one plan. -/
def record (s : FefoStats) (o : FefoOutcome) : FefoStats :=
  if o.isFallback then { s with fallbacks := s.fallbacks + 1 } else { s with hits := s.hits + 1 }

/-- The plans counted. -/
def total (s : FefoStats) : Nat := s.hits + s.fallbacks

/-- The share of plans that kept to the queue, all of them before the first plan. -/
def hitRate (s : FefoStats) : Float :=
  if s.total = 0 then 1.0 else s.hits.toUInt64.toFloat / s.total.toUInt64.toFloat

end FefoStats

end Stockroom
