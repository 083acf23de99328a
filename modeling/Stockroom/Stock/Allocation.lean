/-
Stockroom.Stock.Allocation — requests that take stock out first-expiry-first.

A request writes one outbound movement per leg of its plan, on consecutive lines of one
document. A request that finds its first line taken by a leg of the same item and
warehouse is a repetition: `priorLegs` collects the run of legs that begins there.
-/
import Stockroom.Stock.Fefo
import Stockroom.Stock.Movement

namespace Stockroom

/-- A request to take stock out. -/
structure AllocationRequest where
  item : ItemId
  warehouse : WarehouseId
  quantity : Int
  reason : Reason
  reference : String
  /-- The line of the first leg; each further leg takes the next one. -/
  startLine : Int
  occurredAt : Instant
  trace : Option TraceId
  allowExpired : Bool
  preferred : Option BatchKey
  deriving DecidableEq

namespace AllocationRequest

/-- What the plan may use: expiry is judged on the day of the request. -/
def planOptions (r : AllocationRequest) : PlanOptions :=
  ⟨r.occurredAt.date, r.allowExpired, r.preferred⟩

/-- The outbound movement of one leg. -/
def legMovement (r : AllocationRequest) (leg : AllocationLeg) (line : Int) : Movement where
  key := leg.key
  delta := -leg.quantity
  reason := r.reason
  reference := r.reference
  line := line
  occurredAt := r.occurredAt
  trace := r.trace
  production := none
  expiry := none
  allowNegative := false

/-- The outbound movements of legs, on consecutive lines from `line` on. -/
def legMovementsFrom (r : AllocationRequest) (line : Int) : List AllocationLeg → List Movement
  | [] => []
  | leg :: rest => r.legMovement leg line :: r.legMovementsFrom (line + 1) rest

/-- The outbound movements of a plan's legs. -/
def legMovements (r : AllocationRequest) (legs : List AllocationLeg) : List Movement :=
  r.legMovementsFrom r.startLine legs

/-- Whether a ledger entry may be a leg of the request. -/
def isLeg (r : AllocationRequest) (e : LedgerEntry) : Bool :=
  e.key.isOf r.item r.warehouse && decide (e.delta < 0)

end AllocationRequest

/-- The answer to a request. -/
structure AllocationResult where
  plan : AllocationPlan
  entries : List LedgerEntry
  /-- True where the entries were written earlier. -/
  replayed : Bool
  deriving DecidableEq

/-! ## Repetitions -/

/-- The entries whose lines go up by one from `line`; others are skipped. -/
def consecutiveFrom (line : Int) : List LedgerEntry → List LedgerEntry
  | [] => []
  | e :: rest =>
    if e.line = line then e :: consecutiveFrom (line + 1) rest else consecutiveFrom line rest

/-- The legs that an earlier request has left, given the entries of the reference: none if
the first line is free, and a conflict if something else stands there. -/
def priorLegs (entries : List LedgerEntry) (r : AllocationRequest) :
    Except DomainError (Option (List LedgerEntry)) :=
  match entries.find? (fun e => e.line == r.startLine) with
  | none => .ok none
  | some head =>
    if r.isLeg head then
      let legs := entries.filter (fun e => decide (r.startLine ≤ e.line) && r.isLeg e)
      .ok (some (consecutiveFrom r.startLine (sortOn (·.line) legs)))
    else
      .error (.conflict s!"ref_line {r.startLine} of {r.reference} is used by another movement")

/-- The plan that legs written earlier stand for. -/
def planOfLegs (r : AllocationRequest) (legs : List LedgerEntry) : AllocationPlan where
  item := r.item
  warehouse := r.warehouse
  requested := sumOf (fun e => -e.delta) legs
  legs := legs.map (fun e => ⟨e.key, -e.delta, none⟩)
  outcome := .strict

/-- The answer to a repetition. -/
def AllocationResult.ofPrior (r : AllocationRequest) (legs : List LedgerEntry) :
    AllocationResult := ⟨planOfLegs r legs, legs, true⟩

end Stockroom
