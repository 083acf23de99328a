/-
Stockroom.Wire.Reservation — JSON forms of reservations and what is done with them.
-/
import Stockroom.Reservation.Store
import Stockroom.Wire.Stock

namespace Stockroom

open Wire

instance : JsonForm ReservationStatus where
  toJson s := .string s.text
  ofJson? j := (name? j).bind ReservationStatus.ofText?

instance : JsonForm ConsumeOutcome where
  toJson o := .string o.text
  ofJson? j := (name? j).bind ConsumeOutcome.ofText?

instance : JsonForm ReleaseOutcome where
  toJson
    | .expired id => tagged "outcome" "expired" [("id", toJson id)]
    | .noop id => tagged "outcome" "noop" [("id", toJson id)]
  ofJson? j := do
    let (name, j) ← tagged? "outcome" j
    let ms ← record? ["id"] j
    match name with
    | "expired" => (ms.get "id").map .expired
    | "noop" => (ms.get? "id").map .noop
    | _ => none

instance : JsonForm ReservationKey where
  toJson k := .object
    [("platform", .string k.platform), ("shop_id", .string k.shop),
     ("warehouse_id", toJson k.warehouse), ("reference", .string k.reference)]
  ofJson? j := do
    let ms ← record? ["platform", "shop_id", "warehouse_id", "reference"] j
    pure
      { platform := ← ms.get "platform"
        shop := ← ms.get "shop_id"
        warehouse := ← ms.get "warehouse_id"
        reference := ← ms.get "reference" }

instance : JsonForm NewReservationLine where
  toJson l := .object
    [("ref_line", .integer l.line), ("item_id", toJson l.item), ("qty", .integer l.quantity)]
  ofJson? j := do
    let ms ← record? ["ref_line", "item_id", "qty"] j
    pure
      { line := ← ms.required "ref_line" int32?
        item := ← ms.get "item_id"
        quantity := ← ms.required "qty" int64? }

instance : JsonForm NewReservation where
  toJson n := .object
    [("key", toJson n.key), ("lines", toJson n.lines), ("expire_at", toJson n.expireAt),
     ("trace_id", toJson n.trace)]
  ofJson? j := do
    let ms ← record? ["key", "lines", "expire_at", "trace_id"] j
    pure
      { key := ← ms.get "key"
        lines := ← ms.get "lines"
        expireAt := ← ms.get "expire_at"
        trace := ← ms.get? "trace_id" }

instance : JsonForm ReservationLine where
  toJson l := .object
    [("ref_line", .integer l.line), ("item_id", toJson l.item), ("qty", .integer l.quantity),
     ("consumed_qty", .integer l.consumed)]
  ofJson? j := do
    let ms ← record? ["ref_line", "item_id", "qty", "consumed_qty"] j
    pure
      { line := ← ms.required "ref_line" int32?
        item := ← ms.get "item_id"
        quantity := ← ms.required "qty" int64?
        consumed := ← ms.required "consumed_qty" int64? }

instance : JsonForm Reservation where
  toJson r := .object
    [("id", toJson r.id), ("key", toJson r.key), ("status", toJson r.status),
     ("trace_id", toJson r.trace), ("lines", toJson r.lines), ("created_at", toJson r.createdAt),
     ("updated_at", toJson r.updatedAt), ("expire_at", toJson r.expireAt)]
  ofJson? j := do
    let ms ← record? ["id", "key", "status", "trace_id", "lines", "created_at", "updated_at",
      "expire_at"] j
    pure
      { id := ← ms.get "id"
        key := ← ms.get "key"
        status := ← ms.get "status"
        trace := ← ms.get "trace_id"
        lines := ← ms.get "lines"
        createdAt := ← ms.get "created_at"
        updatedAt := ← ms.get "updated_at"
        expireAt := ← ms.get "expire_at" }

instance : JsonForm CreatedReservation where
  toJson c := .object
    [("reservation", toJson c.reservation), ("created", .bool c.created)]
  ofJson? j := do
    let ms ← record? ["reservation", "created"] j
    pure ⟨← ms.get "reservation", ← ms.get "created"⟩

end Stockroom
