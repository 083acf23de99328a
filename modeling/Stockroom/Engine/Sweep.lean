/-
Stockroom.Engine.Sweep — ending every reservation that is past its time to live.

A sweep asks for expired reservations batch by batch until a batch comes back short, and
ends them one by one. One that cannot be ended is noted and left alone for the rest of the
sweep; since it is still found by the next question, the batch is widened past it.
-/
import Stockroom.Engine.State

namespace Stockroom

/-- A reservation that could not be ended. -/
structure SweepFailure where
  id : Uuid
  error : String
  deriving DecidableEq

/-- What a sweep has done. -/
structure SweepReport where
  /-- How many batches were asked for. -/
  batches : Nat
  expired : List Uuid
  /-- Reservations that someone else closed first. -/
  noops : Nat
  failed : List SweepFailure
  deriving DecidableEq

namespace SweepReport

/-- Nothing done yet. -/
def zero : SweepReport := ⟨0, [], 0, []⟩

/-- Whether a reservation could not be ended earlier in the sweep. -/
def hasFailed (r : SweepReport) (id : Uuid) : Bool := r.failed.any (fun f => f.id == id)

/-- How many reservations could not be ended. -/
def failedCount (r : SweepReport) : Nat := r.failed.length

end SweepReport

namespace Sweep

variable {σ τ : Type}

/-- Publishes the end of a reservation, if it can be loaded. -/
def publishExpired (engine : Engine σ τ) (id : Uuid) : EngineM σ τ Unit := do
  match ← EngineM.attempt (engine.reservations.get id) with
  | .ok (some r) => EngineM.publishClosed engine r
  | .ok none => pure ()
  | .error e =>
    EngineM.log (.saying .warn "failed to load expired reservation for audit"
      [("reservation_id", .string id.text), ("error", .string e.message)])

/-- Ends one reservation. -/
def releaseOne (engine : Engine σ τ) (now : Instant) (report : SweepReport) (id : Uuid) :
    EngineM σ τ SweepReport := do
  match ← EngineM.attempt (engine.reservations.release id now) with
  | .ok (.expired ended) =>
    publishExpired engine ended
    pure { report with expired := report.expired ++ [ended] }
  | .ok (.noop _) => pure { report with noops := report.noops + 1 }
  | .error e =>
    EngineM.log (.ofFailure e)
    EngineM.log (.saying .warn "failed to release expired reservation"
      [("reservation_id", .string id.text), ("code", .string e.code),
       ("error", .string e.message)])
    pure { report with failed := report.failed ++ [⟨id, e.message⟩] }

/-- Ends reservations one after another. -/
def releaseAll (engine : Engine σ τ) (now : Instant) (report : SweepReport) :
    List Uuid → EngineM σ τ SweepReport
  | [] => pure report
  | id :: rest => do
    let report ← releaseOne engine now report id
    releaseAll engine now report rest

/-- Asks for batches until one has nothing new or comes back short; at most `rounds` times. -/
def drain (engine : Engine σ τ) (now : Instant) (batchSize : Nat) :
    (rounds : Nat) → SweepReport → EngineM σ τ SweepReport
  | 0, _ => throw .sweepUnfinished
  | rounds + 1, report => do
    let limit := batchSize + report.failedCount
    let ids ← EngineM.ofStore (engine.reservations.findExpired now limit)
    let report := { report with batches := report.batches + 1 }
    let candidates := ids.filter (fun id => !report.hasFailed id)
    if candidates.isEmpty then pure report
    else
      let report ← releaseAll engine now report candidates
      if ids.length < limit then pure report else drain engine now batchSize rounds report

/-- The line that a sweep with something to tell leaves. -/
def summary (r : SweepReport) : LogLine :=
  .saying .info "reservation sweep finished"
    [("expired", .integer r.expired.length), ("noops", .integer r.noops),
     ("failed", .integer r.failed.length), ("batches", .integer r.batches)]

/-- Ends every reservation that is past its time to live, in at most `rounds` batches. -/
def run (engine : Engine σ τ) (rounds : Nat) (now : Instant) (batchSize : Nat) :
    EngineM σ τ SweepReport := EngineM.watched do
  if batchSize = 0 then
    throw (.store (.domain (.validation "sweep batch_size must be at least 1")))
  else
    let report ← drain engine now batchSize rounds .zero
    EngineM.count .expiredReservations report.expired.length
    if !report.expired.isEmpty || !report.failed.isEmpty then EngineM.log (summary report)
    pure report

end Sweep

end Stockroom
