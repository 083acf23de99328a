/-
Stockroom.Engine.State — an engine at work.

An engine is two stores over one state, a sink for events, settings, and the arithmetic in
which it works on what the stores answer. A step of an engine may fail; the state survives a
failure. Publishing, counting and logging only change their own part of the state, never an
answer.
-/
import Stockroom.Audit.Sink
import Stockroom.Engine.Config
import Stockroom.Engine.Log
import Stockroom.Engine.Metrics
import Stockroom.Reservation.Store
import Stockroom.Stock.Arithmetic

namespace Stockroom

/-- The settings an engine works by. -/
structure EngineSettings where
  /-- How long a reservation lives by default, in milliseconds. -/
  reservationTtl : Int
  sweepBatchSize : Nat
  ageingWindow : Int
  verifyCommits : Bool
  deriving DecidableEq, Repr

/-- The settings of an engine, from the settings of the program. -/
def EngineSettings.ofConfig (c : Config) : EngineSettings :=
  ⟨c.reservationTtl, c.sweepBatchSize, c.ageingWindow, c.verifyCommits⟩

/-- What the guard tells when the three representations disagree. -/
structure ReconciliationAlert where
  cut : Instant
  ledgerVsStock : Nat
  ledgerVsSnapshot : Nat
  stockVsSnapshot : Nat
  report : ReconciliationReport
  deriving DecidableEq

/-- The alert of a report. -/
def ReconciliationAlert.ofReport (r : ReconciliationReport) : ReconciliationAlert :=
  ⟨r.cut, r.ledgerVsStock.length, r.ledgerVsSnapshot.length, r.stockVsSnapshot.length, r⟩

/-- Two stores over a state `σ`, a sink over a state `τ`, settings, and an arithmetic. -/
structure Engine (σ τ : Type) where
  stock : StockStore (StoreM σ)
  reservations : ReservationStore (StoreM σ)
  audit : AuditSink τ
  settings : EngineSettings
  arithmetic : Arithmetic

/-- The state of an engine at work. -/
structure EngineState (σ τ : Type) where
  store : σ
  audit : τ
  stats : FefoStats
  metrics : Metrics
  /-- Every alert raised, the oldest first. -/
  alerts : List ReconciliationAlert
  /-- Every line logged, the oldest first. -/
  log : List LogLine

/-- The state of an engine that starts to work. -/
def EngineState.start {σ τ : Type} (store : σ) (audit : τ) : EngineState σ τ :=
  ⟨store, audit, .zero, .empty, [], []⟩

/-- Why an engine cannot answer. -/
inductive EngineError where
  /-- A store has failed. -/
  | store (e : StoreError)
  /-- A computed time or number cannot be represented: the program stops there. -/
  | outOfRange
  /-- A sweep has not ended within the rounds allowed for it. -/
  | sweepUnfinished
  deriving DecidableEq, Repr

namespace EngineError

/-- A computed time cannot be represented. -/
@[match_pattern]
abbrev timeOutOfRange : EngineError := .outOfRange

/-- Why an engine cannot answer if its stock fails: with a number out of range the engine
stops as well. -/
def ofStock : StoreError → EngineError
  | .outOfRange => .outOfRange
  | e => .store e

end EngineError

/-- A step of an engine. -/
abbrev EngineM (σ τ : Type) := ExceptT EngineError (StateM (EngineState σ τ))

namespace EngineM

variable {σ τ α : Type}

/-- A step on the stores' state, its failure as a value. -/
def attempt (x : StoreM σ α) : EngineM σ τ (Except StoreError α) := do
  let s ← get
  let (r, store) := x.run.run s.store
  set { s with store }
  pure r

/-- A step on the stores' state whose failure is passed on as `wrap` says. -/
def passing (wrap : StoreError → EngineError) (x : StoreM σ α) : EngineM σ τ α := do
  match ← attempt x with
  | .ok a => pure a
  | .error e => throw (wrap e)

/-- A step on the stores' state. -/
abbrev ofStore (x : StoreM σ α) : EngineM σ τ α := passing .store x

/-- A step on the stock, or one that computes with what the stock has answered. -/
abbrev ofStock (x : StoreM σ α) : EngineM σ τ α := passing .ofStock x

/-- Adds to a counter. -/
def count (m : Metric) (n : Nat) : EngineM σ τ Unit :=
  modify fun s => { s with metrics := s.metrics.add m n }

/-- Logs a line. -/
def log (l : LogLine) : EngineM σ τ Unit := modify fun s => { s with log := s.log ++ [l] }

/-- A watched step: the failure of a store leaves a line before it is passed on. -/
def watched (x : EngineM σ τ α) : EngineM σ τ α :=
  tryCatch x fun e => do
    match e with
    | .store e => log (.ofFailure e)
    | _ => pure ()
    throw e

/-- A watched step on the stores' state. -/
abbrev ofWatched (x : StoreM σ α) : EngineM σ τ α := watched (ofStore x)

/-- A watched step on the stock. -/
abbrev ofWatchedStock (x : StoreM σ α) : EngineM σ τ α := watched (ofStock x)

/-- Publishes an event. -/
def publish (engine : Engine σ τ) (event : InventoryEvent) (trace : TraceId) : EngineM σ τ Unit :=
  modify fun s => { s with audit := engine.audit.publish event (some trace) s.audit }

/-- Publishes the event of a reservation that was just closed. -/
def publishClosed (engine : Engine σ τ) (r : Reservation) : EngineM σ τ Unit :=
  match InventoryEvent.ofClosed? r with
  | some event => publish engine event r.trace
  | none => pure ()

end EngineM

end Stockroom
