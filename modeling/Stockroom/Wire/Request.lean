/-
Stockroom.Wire.Request — requests in short form.

A request is a JSON object whose members are read one after another; the first one that
cannot be read decides the answer. A member that is null counts as missing. Identifiers,
batch codes and names in a request are checked, since they come from outside.
-/
import Stockroom.Reservation.Store
import Stockroom.Wire.Stock

namespace Stockroom

open Wire

/-- Why a request cannot be read. -/
inductive RequestError where
  /-- A member is missing or of the wrong kind. -/
  | malformed
  /-- A value breaks a rule. -/
  | refused (e : DomainError)
  /-- The text of a 128-bit identifier cannot be read. -/
  | unreadableId
  deriving DecidableEq, Repr

/-- A step of reading a request. -/
abbrev Reading := Except RequestError

namespace Request

/-! ## Members -/

/-- The member of a name, unless it is null. -/
def field? (j : Json) (name : String) : Option Json :=
  match j with
  | .object ms => (Members.find? ms name).filter (· != .null)
  | _ => none

/-- What was read, or a malformed request. -/
def orMalformed {α : Type} : Option α → Reading α
  | some a => .ok a
  | none => .error .malformed

/-- A member that must be there. -/
def required {α : Type} (read : Json → Option α) (j : Json) (name : String) : Reading α :=
  orMalformed ((field? j name).bind read)

/-- A member that may be missing. -/
def optional {α : Type} (read : Json → Option α) (j : Json) (name : String) :
    Reading (Option α) :=
  match field? j name with
  | none => .ok none
  | some v => (orMalformed (read v)).map some

/-- A value that must not break a rule. -/
def rule {α : Type} (x : Except DomainError α) : Reading α := x.mapError .refused

/-- A member of a type with a JSON form. -/
def get {α : Type} [JsonForm α] (j : Json) (name : String) : Reading α := required ofJson? j name

/-- An optional member of a type with a JSON form. -/
def get? {α : Type} [JsonForm α] (j : Json) (name : String) : Reading (Option α) :=
  optional ofJson? j name

/-- A member of a type with a JSON form, or `default` if it is missing. -/
def getD {α : Type} [JsonForm α] (j : Json) (name : String) (default : α) : Reading α := do
  pure ((← get? j name).getD default)

/-- A text. -/
def text (j : Json) (name : String) : Reading String := get j name

/-- An optional text. -/
def text? (j : Json) (name : String) : Reading (Option String) := get? j name

/-- A quantity. -/
def int (j : Json) (name : String) : Reading Int := required int64? j name

/-- A quantity, or `default` if it is missing. -/
def intD (j : Json) (name : String) (default : Int) : Reading Int := do
  pure ((← optional int64? j name).getD default)

/-- A line number, which is 1 if it is missing. -/
def line (j : Json) (name : String) : Reading Int := do
  pure ((← optional int32? j name).getD 1)

/-- A count, or `default` if it is missing. -/
def countD (j : Json) (name : String) (default : Nat) : Reading Nat := do
  pure ((← optional count? j name).getD default)

/-- A truth value, false if it is missing. -/
def flag (j : Json) (name : String) : Reading Bool := getD j name false

/-- The items of a list; a missing list is empty. -/
def items (j : Json) (name : String) : Reading (List Json) := do
  let list? : Json → Option (List Json)
    | .array items => some items
    | _ => none
  pure ((← optional list? j name).getD [])

/-- The items of a list, each of them read. -/
def list {α : Type} (read : Json → Reading α) (j : Json) (name : String) : Reading (List α) := do
  (← items j name).mapM read

/-- Named texts; one that is null is missing. -/
def texts (j : Json) (name : String) : Reading (List (String × String)) := do
  match field? j name with
  | none => pure []
  | some (.object ms) =>
    (ms.filter (·.2 != .null)).mapM fun m => do pure (m.1, ← orMalformed (ofJson? m.2))
  | some _ => .error .malformed

/-! ## Stock -/

/-- The trace of a request. -/
def trace (j : Json) : Reading (Option TraceId) := get? j "trace"

/-- The warehouse of a request. -/
def warehouse (j : Json) : Reading WarehouseId := do rule (WarehouseId.ofInt (← int j "wh"))

/-- The item of a request. -/
def item (j : Json) : Reading ItemId := do rule (ItemId.ofInt (← int j "item"))

/-- A slot: a warehouse, an item, and a batch key as it is or else a batch code. -/
def slot (j : Json) : Reading StockKey := do
  let warehouse ← warehouse j
  let item ← item j
  match ← get? j "batch_key" with
  | some batch => pure ⟨warehouse, item, batch⟩
  | none => pure ⟨warehouse, item, ← rule (BatchKey.ofCode (← get? j "batch"))⟩

/-- The slot that the member `key` holds. -/
def key (j : Json) : Reading StockKey := do slot (← orMalformed (field? j "key"))

/-- A reason by its name. -/
def reason (j : Json) : Reading Reason := do rule (Reason.read (← get j "reason"))

/-- A movement. -/
def movement (j : Json) : Reading Movement := do
  pure
    { key := ← key j
      delta := ← int j "delta"
      reason := ← reason j
      reference := ← get j "ref"
      line := ← line j "line"
      occurredAt := ← get j "at"
      trace := ← trace j
      production := ← get? j "prod"
      expiry := ← get? j "exp"
      allowNegative := ← flag j "allow_negative" }

/-- A ledger entry. -/
def entry (j : Json) : Reading LedgerEntry := do
  let id ← intD j "id" 1
  let key ← key j
  let delta ← int j "delta"
  let reason ← reason j
  let reference : String ← get j "ref"
  let line ← line j "line"
  let after ← intD j "after" 0
  let occurredAt ← get j "at"
  let trace := (← trace j).getD ⟨reference⟩
  pure { id, key, delta, reason, reference, line, after, occurredAt, trace }

/-- What a write was to do to one slot. -/
def effect (j : Json) : Reading CommitEffect := do
  pure ⟨← key j, ← line j "line", ← int j "delta"⟩

/-- A balance. -/
def balance (j : Json) : Reading KeyBalance := do
  pure ⟨← key j, ← int j "ledger", ← int j "stock"⟩

/-- A batch; the time of its creation is of no interest. -/
def batch (j : Json) : Reading Batch := do
  pure
    { id := ← intD j "id" 1
      item := ← item j
      warehouse := ← warehouse j
      code := ← get j "code"
      production := ← get? j "prod"
      expiry := ← get? j "exp"
      createdAt := .epoch }

/-- Quantities by slot; of several for one slot the last counts. -/
def quantities (j : Json) (name : String) : Reading Totals := do
  pure (.ofList (← list (fun q => do pure (← key q, ← int q "qty")) j name))

/-- A cut: up to an instant with or without the instant itself, or up to the end of a day. -/
def cut (j : Json) : Reading LedgerCut := do
  match ← get? j "at_or_before" with
  | some t => pure (.atOrBefore t)
  | none =>
    match ← get? j "before" with
    | some t => pure (.before t)
    | none => pure (.ofDay (← get j "date"))

/-! ## Allocations -/

/-- A slot that may feed an allocation. -/
def candidate (j : Json) : Reading Candidate := do
  pure ⟨← key j, ← int j "qty", ← get? j "exp", ← int j "seq"⟩

/-- The batch to empty first; a blank code stands for goods without a batch. -/
def preferred (j : Json) : Reading (Option BatchKey) := do
  match ← get? j "prefer" with
  | none => pure none
  | some code => (rule (BatchKey.ofCode (some code))).map some

/-- What an allocation may use. -/
def planOptions (j : Json) : Reading PlanOptions := do
  pure ⟨← get j "on", ← flag j "allow_expired", ← preferred j⟩

/-- A request to take stock out; without a reason it is a shipment. -/
def allocation (j : Json) : Reading AllocationRequest := do
  pure
    { item := ← item j
      warehouse := ← warehouse j
      quantity := ← int j "qty"
      reference := ← get j "ref"
      occurredAt := ← get j "at"
      reason := ← rule (Reason.read (← getD j "reason" Reason.shipment.text))
      startLine := ← line j "start_line"
      trace := ← trace j
      allowExpired := ← flag j "allow_expired"
      preferred := ← preferred j }

/-! ## Reservations -/

/-- A 128-bit identifier. -/
def id (j : Json) : Reading Uuid := do
  match Uuid.read? (← get j "id") with
  | some id => pure id
  | none => .error .unreadableId

/-- What makes a reservation the same request. -/
def reservationKey (j : Json) : Reading ReservationKey := do
  let platform ← get j "platform"
  let shop ← get j "shop"
  let warehouse ← warehouse j
  let reference ← get j "ref"
  pure { platform, shop, warehouse, reference }

/-- A requested line. -/
def reservationLine (j : Json) : Reading NewReservationLine := do
  pure ⟨← line j "line", ← item j, ← int j "qty"⟩

/-- A requested reservation, which ends at `default` unless it says when. -/
def reservationD (j : Json) (default : Instant) : Reading NewReservation := do
  pure
    { key := ← reservationKey j
      lines := ← list reservationLine j "lines"
      expireAt := ← getD j "expire_at" default
      trace := ← trace j }

/-- A requested reservation, which says when it ends. -/
def reservation (j : Json) : Reading NewReservation := do
  let n ← reservationD j .epoch
  pure { n with expireAt := ← get j "expire_at" }

end Request

end Stockroom
