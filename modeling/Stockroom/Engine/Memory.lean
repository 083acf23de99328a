/-
Stockroom.Engine.Memory — an engine whose stores are kept in memory.

Stock and reservations share one state, so that one engine can work on both.
-/
import Stockroom.Engine.Basic
import Stockroom.Reservation.Memory
import Stockroom.Stock.Bounded
import Stockroom.Stock.Memory

namespace Stockroom

/-- Stock and reservations kept in memory. -/
structure MemoryState where
  stock : StockState
  reservations : ReservationState
  deriving DecidableEq

namespace MemoryState

/-- No stock and no reservations. -/
def empty (clock : Instant) : MemoryState := ⟨.empty clock, .empty⟩

/-- The stock, as a store. -/
def stockStore : StockStore (StoreM MemoryState) :=
  MemoryStock.store.lift (StoreM.onPart (·.stock) (fun s stock => { s with stock }))

/-- The stock, as a store whose numbers have a fixed width. -/
def boundedStore : StockStore (StoreM MemoryState) :=
  Bounded.store.lift (StoreM.onPart (·.stock) (fun s stock => { s with stock }))

/-- The reservations, as a store. -/
def reservationStore : ReservationStore (StoreM MemoryState) :=
  MemoryReservations.store.lift
    (StoreM.onPart (·.reservations) (fun s reservations => { s with reservations }))

/-- Enough rounds for a sweep: every round but the last ends or notes a reservation. -/
def sweepRounds (s : MemoryState) : Nat := s.reservations.byId.size + 2

end MemoryState

/-- An engine over memory, whose numbers have no limit. -/
def Engine.inMemory {τ : Type} (audit : AuditSink τ) (settings : EngineSettings) :
    Engine MemoryState τ :=
  ⟨MemoryState.stockStore, MemoryState.reservationStore, audit, settings, .exact⟩

/-- The engine over the same memory whose numbers have a fixed width. -/
def Engine.bounded {τ : Type} (engine : Engine MemoryState τ) : Engine MemoryState τ :=
  { engine with stock := MemoryState.boundedStore, arithmetic := .bounded }

end Stockroom
