/-
Stockroom.Audit.Event — the events of an inventory, and their envelopes.

A written movement and every step of a reservation's life give an event. An envelope
carries an event's JSON form together with the stream it belongs to, the key that tells
what it is about, and its time.
-/
import Stockroom.Wire.Reservation

namespace Stockroom

open Wire

/-! ## Events -/

/-- Something that has happened to the stock or to a reservation. -/
inductive InventoryEvent where
  | movementApplied (ledgerId : Int) (key : StockKey) (delta after : Int) (reason : Reason)
      (reference : String) (line : Int) (occurredAt : Instant)
  | reservationCreated (id : Uuid) (reference : String) (expireAt occurredAt : Instant)
  | reservationConsumed (id : Uuid) (reference : String) (occurredAt : Instant)
  | reservationCancelled (id : Uuid) (reference : String) (occurredAt : Instant)
  | reservationExpired (id : Uuid) (reference : String) (occurredAt : Instant)
  deriving DecidableEq

namespace InventoryEvent

/-- The event of a ledger entry. -/
def ofEntry (e : LedgerEntry) : InventoryEvent :=
  .movementApplied e.id e.key e.delta e.after e.reason e.reference e.line e.occurredAt

/-- The event of a reservation that was just opened. -/
def ofCreated (r : Reservation) : InventoryEvent :=
  .reservationCreated r.id r.key.reference r.expireAt r.updatedAt

/-- The event of a reservation that was just closed; an open one has none. -/
def ofClosed? (r : Reservation) : Option InventoryEvent :=
  match r.status with
  | .open => none
  | .consumed => some (.reservationConsumed r.id r.key.reference r.updatedAt)
  | .cancelled => some (.reservationCancelled r.id r.key.reference r.updatedAt)
  | .expired => some (.reservationExpired r.id r.key.reference r.updatedAt)

/-- The family of facts an event belongs to. -/
def stream : InventoryEvent → String
  | movementApplied .. => "stock_ledger"
  | _ => "reservations"

/-- What an event is about: a slot or a reservation. -/
def streamKey : InventoryEvent → String
  | movementApplied _ key _ _ _ _ _ _ => key.text
  | reservationCreated id _ _ _ => id.text
  | reservationConsumed id _ _ => id.text
  | reservationCancelled id _ _ => id.text
  | reservationExpired id _ _ => id.text

/-- The stable name of the kind of event. -/
def eventType : InventoryEvent → String
  | movementApplied .. => "inventory.movement.applied"
  | reservationCreated .. => "inventory.reservation.created"
  | reservationConsumed .. => "inventory.reservation.consumed"
  | reservationCancelled .. => "inventory.reservation.cancelled"
  | reservationExpired .. => "inventory.reservation.expired"

/-- The version of the event's JSON form. -/
def version (_ : InventoryEvent) : Nat := 1

/-- When the event happened. -/
def occurredAt : InventoryEvent → Instant
  | movementApplied _ _ _ _ _ _ _ t => t
  | reservationCreated _ _ _ t => t
  | reservationConsumed _ _ t => t
  | reservationCancelled _ _ t => t
  | reservationExpired _ _ t => t

end InventoryEvent

/-- The JSON form of the end of a reservation. -/
def closedForm (name : String) (id : Uuid) (reference : String) (t : Instant) : Json :=
  tagged "type" name
    [("reservation_id", toJson id), ("reference", .string reference), ("occurred_at", toJson t)]

/-- Reads what `closedForm` writes after the name. -/
def closedForm? (make : Uuid → String → Instant → InventoryEvent) (j : Json) :
    Option InventoryEvent := do
  let ms ← record? ["reservation_id", "reference", "occurred_at"] j
  pure (make (← ms.get "reservation_id") (← ms.get "reference") (← ms.get "occurred_at"))

/-- A reason inside an event. -/
def reasonInTagged? (j : Json) : Option Reason := (nameInTagged? j).bind Reason.ofText?

instance : JsonForm InventoryEvent where
  toJson
    | .movementApplied ledgerId key delta after reason reference line t =>
      tagged "type" "movement_applied"
        [("ledger_id", .integer ledgerId), ("key", toJson key), ("delta", .integer delta),
         ("after_qty", .integer after), ("reason", toJson reason),
         ("reference", .string reference), ("ref_line", .integer line), ("occurred_at", toJson t)]
    | .reservationCreated id reference expireAt t =>
      tagged "type" "reservation_created"
        [("reservation_id", toJson id), ("reference", .string reference),
         ("expire_at", toJson expireAt), ("occurred_at", toJson t)]
    | .reservationConsumed id reference t => closedForm "reservation_consumed" id reference t
    | .reservationCancelled id reference t => closedForm "reservation_cancelled" id reference t
    | .reservationExpired id reference t => closedForm "reservation_expired" id reference t
  ofJson? j := do
    let (name, j) ← tagged? "type" j
    match name with
    | "movement_applied" => do
      let ms ← record? ["ledger_id", "key", "delta", "after_qty", "reason", "reference",
        "ref_line", "occurred_at"] j
      pure (.movementApplied (← ms.required "ledger_id" int64?) (← ms.get "key")
        (← ms.required "delta" int64?) (← ms.required "after_qty" int64?)
        (← ms.required "reason" reasonInTagged?) (← ms.get "reference")
        (← ms.required "ref_line" int32?) (← ms.get "occurred_at"))
    | "reservation_created" => do
      let ms ← record? ["reservation_id", "reference", "expire_at", "occurred_at"] j
      pure (.reservationCreated (← ms.get "reservation_id") (← ms.get "reference")
        (← ms.get "expire_at") (← ms.get "occurred_at"))
    | "reservation_consumed" => closedForm? .reservationConsumed j
    | "reservation_cancelled" => closedForm? .reservationCancelled j
    | "reservation_expired" => closedForm? .reservationExpired j
    | _ => none

/-! ## Envelopes -/

/-- An event on its way to whoever follows the audit. -/
structure Envelope where
  eventId : Uuid
  stream : String
  streamKey : String
  eventType : String
  version : Nat
  occurredAt : Instant
  trace : Option TraceId
  payload : Json

namespace Envelope

/-- Wraps an event; the payload has its members in order. -/
def ofEvent (eventId : Uuid) (trace : Option TraceId) (e : InventoryEvent) : Envelope where
  eventId := eventId
  stream := e.stream
  streamKey := e.streamKey
  eventType := e.eventType
  version := e.version
  occurredAt := e.occurredAt
  trace := trace
  payload := (toJson e).sorted

/-- The members of an envelope without its identifier. -/
def members (v : Envelope) : Members :=
  [("stream", .string v.stream), ("stream_key", .string v.streamKey),
   ("event_type", .string v.eventType), ("event_version", ofCount v.version),
   ("occurred_at", toJson v.occurredAt), ("trace_id", toJson v.trace), ("payload", v.payload)]

end Envelope

/-- The payload that a value stands for: any value that can be read, with its members in order. -/
def payload? (j : Json) : Option Json :=
  let payload := j.resolve
  if payload.isReadable then some payload.sorted else none

instance : JsonForm Envelope where
  toJson v := .object (("event_id", toJson v.eventId) :: v.members)
  ofJson? j := do
    let ms ← record? ["event_id", "stream", "stream_key", "event_type", "event_version",
      "occurred_at", "trace_id", "payload"] j
    pure
      { eventId := ← ms.get "event_id"
        stream := ← ms.get "stream"
        streamKey := ← ms.get "stream_key"
        eventType := ← ms.get "event_type"
        version := ← ms.required "event_version" count32?
        occurredAt := ← ms.get "occurred_at"
        trace := ← ms.get? "trace_id"
        payload := ← ms.required "payload" payload? }

end Stockroom
