/-
Stockroom.Reservation.Memory — reservations kept in memory.

The state holds the reservations by identifier, and an index from business keys to
identifiers.
-/
import Stockroom.Data.OrderedMap
import Stockroom.Reservation.Store

namespace Stockroom

/-- Reservations kept in memory. -/
structure ReservationState where
  byId : OrderedMap Uuid Reservation
  byKey : OrderedMap ReservationKey Uuid
  deriving DecidableEq

namespace ReservationState

/-- No reservations. -/
def empty : ReservationState := ⟨.empty, .empty⟩

/-- Stores a reservation under its identifier. -/
def put (s : ReservationState) (r : Reservation) : ReservationState :=
  { s with byId := s.byId.insert r.id r }

/-- The open reservations past their time to live, the oldest first. -/
def expired (s : ReservationState) (now : Instant) : List Reservation :=
  sortBy (fun a b => ((compare a.expireAt b.expireAt).then (compare a.id b.id)).isLE)
    (s.byId.values.filter (·.isExpiredAt now))

end ReservationState

namespace MemoryReservations

/-- A step on reservations kept in memory. -/
abbrev Step := StoreM ReservationState

/-- Opens a reservation under a fresh identifier, or refreshes the one of the same key. -/
def create (fresh : Uuid) (n : NewReservation) (now : Instant) : Step CreatedReservation := do
  StoreM.ofRule n.check
  let s ← get
  match s.byKey.get? n.key with
  | some id =>
    match s.byId.get? id with
    | none => throw (.storage s!"dangling key index for {id}")
    | some r =>
      let r ← StoreM.ofRule (r.refresh n now)
      set { s with byId := s.byId.insert id r }
      pure ⟨r, false⟩
  | none =>
    let r ← StoreM.ofRule (Reservation.start fresh n now)
    set ({ s with byKey := s.byKey.insert n.key r.id }.put r)
    pure ⟨r, true⟩

/-- The reservation with an identifier; it must exist. -/
def required (id : Uuid) : Step Reservation := do
  match (← get).byId.get? id with
  | some r => pure r
  | none => throw (.domain (.notFound s!"reservation {id}"))

/-- Consumes a reservation. -/
def consume (id : Uuid) (now : Instant) : Step (Reservation × ConsumeOutcome) := do
  let r ← required id
  let (r, outcome) ← StoreM.ofRule (r.consume now)
  modify (fun s => { s with byId := s.byId.insert id r })
  pure (r, outcome)

/-- Cancels a reservation. -/
def cancel (id : Uuid) (now : Instant) : Step Reservation := do
  let r ← required id
  let r ← StoreM.ofRule (r.cancel now)
  modify (fun s => { s with byId := s.byId.insert id r })
  pure r

/-- Ends an open reservation. -/
def release (id : Uuid) (now : Instant) : Step ReleaseOutcome := do
  match (← get).byId.get? id with
  | none => pure (.noop none)
  | some r =>
    let (r, outcome) := r.expire now
    modify (fun s => { s with byId := s.byId.insert id r })
    pure outcome

/-- Reservations kept in memory, as a store. -/
def store : ReservationStore (StoreM ReservationState) where
  create := create
  get id := do pure ((← get).byId.get? id)
  findByKey key := do
    let s ← get
    pure ((s.byKey.get? key).bind s.byId.get?)
  consume := consume
  cancel := cancel
  findExpired now limit := do pure ((((← get).expired now).take limit).map (·.id))
  release := release

end MemoryReservations

end Stockroom
