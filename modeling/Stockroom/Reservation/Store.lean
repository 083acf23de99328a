/-
Stockroom.Reservation.Store — what the engine needs from a keeper of reservations.
-/
import Stockroom.Reservation.Basic
import Stockroom.Stock.Store

namespace Stockroom

/-- The answer to a requested reservation. -/
structure CreatedReservation where
  reservation : Reservation
  /-- False where an open reservation of the same key was refreshed. -/
  created : Bool
  deriving DecidableEq

/-- The operations of a keeper of reservations. -/
structure ReservationStore (m : Type → Type) where
  /-- Opens a reservation under a fresh identifier, or refreshes the one of the same key. -/
  create : Uuid → NewReservation → Instant → m CreatedReservation
  /-- The reservation with an identifier. -/
  get : Uuid → m (Option Reservation)
  /-- The reservation of a business key. -/
  findByKey : ReservationKey → m (Option Reservation)
  /-- Consumes a reservation. -/
  consume : Uuid → Instant → m (Reservation × ConsumeOutcome)
  /-- Cancels a reservation. -/
  cancel : Uuid → Instant → m Reservation
  /-- At most so many open reservations past their time to live, the oldest first. -/
  findExpired : Instant → Nat → m (List Uuid)
  /-- Ends an open reservation. -/
  release : Uuid → Instant → m ReleaseOutcome

/-- A store whose steps are all carried over to another kind of step. -/
def ReservationStore.lift {m n : Type → Type} (f : {α : Type} → m α → n α)
    (s : ReservationStore m) : ReservationStore n where
  create fresh request now := f (s.create fresh request now)
  get id := f (s.get id)
  findByKey key := f (s.findByKey key)
  consume id now := f (s.consume id now)
  cancel id now := f (s.cancel id now)
  findExpired now limit := f (s.findExpired now limit)
  release id now := f (s.release id now)

end Stockroom
