/-
Stockroom.Engine.Faults — stores that misbehave on demand.

To see how an engine takes failures, faults are put in front of its stores: readings of
stock that drift away from the ledger, operations that fail, and other writers that close
a reservation at the last moment. `Faulty.stock` and `Faulty.reservations` pass every
other operation on unchanged. Behind the faults of `Engine.faulty` numbers have a fixed
width.
-/
import Stockroom.Engine.Memory

namespace Stockroom

/-- What goes wrong with one reservation. -/
inductive ReservationFault where
  /-- Ending it fails at the backend. -/
  | releaseFails
  /-- Ending it is refused. -/
  | releaseConflicts
  /-- Someone else consumes it just before it is ended. -/
  | consumedFirst
  /-- Someone else cancels it just before it is ended. -/
  | cancelledFirst
  /-- Loading it fails. -/
  | getFails
  /-- Loading it finds nothing. -/
  | getFindsNothing
  deriving DecidableEq, Repr

/-- The faults that are switched on. -/
structure Faults where
  /-- What the reading of a slot is off by. -/
  drift : OrderedMap StockKey Int
  balancesFail : Bool
  slotsFail : Bool
  rebuildFails : Bool
  findExpiredFails : Bool
  reservations : OrderedMap Uuid ReservationFault

namespace Faults

/-- Nothing goes wrong. -/
def none : Faults := ⟨.empty, false, false, false, false, .empty⟩

/-- Moves the reading of a slot further off. -/
def drifted (f : Faults) (k : StockKey) (offset : Int) : Faults :=
  { f with drift := f.drift.insert k (f.drift.getD k 0 + offset) }

/-- Replaces what goes wrong with a reservation. -/
def replaced (f : Faults) (id : Uuid) (fault : Option ReservationFault) : Faults :=
  { f with reservations := f.reservations.alter id (fun _ => fault) }

/-- The reading of slots: every slot off by its drift, and drifting keys without a slot. -/
def slots (f : Faults) (slots : List StockSlot) : List StockSlot :=
  let read := OrderedMap.ofList (slots.map (fun s => (s.key, s.quantity)))
  let off := f.drift.toList.foldl (fun m b => m.insert b.1 (m.getD b.1 0 + b.2)) read
  off.toList.map (fun b => ⟨b.1, b.2⟩)

/-- The reading of a balance. -/
def balance (f : Faults) (b : KeyBalance) : KeyBalance :=
  { b with stock := b.stock + f.drift.getD b.key 0 }

end Faults

/-- A state with faults in front of it. -/
structure Faulty (σ : Type) where
  inner : σ
  faults : Faults

namespace Faulty

variable {σ : Type}

/-- A step on the state behind the faults. -/
def pass {α : Type} (x : StoreM σ α) : StoreM (Faulty σ) α :=
  StoreM.onPart (·.inner) (fun s inner => { s with inner }) x

/-- Fails if a fault is switched on. -/
def failIf (isOn : Faults → Bool) (target : String) : StoreM (Faulty σ) Unit := do
  if isOn (← get).faults then throw (.storage (target ++ " unavailable")) else pure ()

/-- What goes wrong with a reservation. -/
def faultOf (id : Uuid) : StoreM (Faulty σ) (Option ReservationFault) := do
  pure ((← get).faults.reservations.get? id)

/-- A store of stock with faults in front of it. -/
def stock (store : StockStore (StoreM σ)) : StockStore (StoreM (Faulty σ)) :=
  { store.lift pass with
    balances := fun keys => do
      failIf (·.balancesFail) "balances"
      let balances ← pass (store.balances keys)
      let s ← get
      pure (balances.map s.faults.balance)
    slots := do
      failIf (·.slotsFail) "slots"
      let slots ← pass store.slots
      let s ← get
      pure (s.faults.slots slots)
    rebuildSnapshot := fun d => do
      failIf (·.rebuildFails) "rebuild"
      pass (store.rebuildSnapshot d) }

/-- Loads a reservation. -/
def getReservation (store : ReservationStore (StoreM σ)) (id : Uuid) :
    StoreM (Faulty σ) (Option Reservation) := do
  match ← faultOf id with
  | some .getFails => throw (.concurrency "row is locked")
  | some .getFindsNothing => pure none
  | _ => pass (store.get id)

/-- Ends a reservation. -/
def release (store : ReservationStore (StoreM σ)) (id : Uuid) (now : Instant) :
    StoreM (Faulty σ) ReleaseOutcome := do
  match ← faultOf id with
  | some .releaseFails => throw (.storage "connection reset")
  | some .releaseConflicts => throw (.domain (.conflict s!"reservation {id} is busy"))
  | some .consumedFirst =>
    let _ ← pass (store.consume id now)
    pass (store.release id now)
  | some .cancelledFirst =>
    let _ ← pass (store.cancel id now)
    pass (store.release id now)
  | _ => pass (store.release id now)

/-- A store of reservations with faults in front of it. -/
def reservations (store : ReservationStore (StoreM σ)) :
    ReservationStore (StoreM (Faulty σ)) :=
  { store.lift pass with
    get := getReservation store
    release := release store
    findExpired := fun now limit => do
      if (← get).faults.findExpiredFails then throw .lockPoisoned
      else pass (store.findExpired now limit) }

end Faulty

/-- The engine over memory with faults in front of its stores. -/
def Engine.faulty {τ : Type} (engine : Engine MemoryState τ) : Engine (Faulty MemoryState) τ where
  stock := Faulty.stock engine.bounded.stock
  reservations := Faulty.reservations engine.reservations
  audit := engine.audit
  settings := engine.settings
  arithmetic := engine.bounded.arithmetic

end Stockroom
