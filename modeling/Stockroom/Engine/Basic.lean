/-
Stockroom.Engine.Basic — the operations that collaborators call.

The engine adds to its stores what no backend should have to know: events after a change
is stored, the check of a change's keys, counts of allocation quality, comparisons and
scores.
-/
import Stockroom.Engine.State
import Stockroom.Engine.Sweep
import Stockroom.Stock.Diagnostics
import Stockroom.Stock.Insights

namespace Stockroom

/-- Totals of the ledger up to an instant, with their size. -/
structure SnapshotCut where
  «at» : Instant
  totals : Totals
  summary : SnapshotSummary
  deriving DecidableEq

namespace Engine

variable {σ τ : Type} (engine : Engine σ τ)

/-! ## Checking a write -/

/-- Compares the ledger rows of a reference and the balances of the touched keys with what a
write was to do. -/
def verifyCommit (reference : String) (effects : List CommitEffect) : EngineM σ τ CommitCheck := do
  let recorded ← EngineM.ofStock (engine.stock.entriesOf reference)
  let balances ← EngineM.ofStock (engine.stock.balances (touchedKeys effects))
  pure (checkCommit reference effects recorded balances)

/-- Counts a write that left its keys inconsistent. A check that cannot run changes nothing. -/
def checkCommitted (operation reference : String) (effects : List CommitEffect) :
    EngineM σ τ Unit := do
  if engine.settings.verifyCommits && !effects.isEmpty then
    tryCatch
      (do
        let check ← engine.verifyCommit reference effects
        if check.isConsistent then pure ()
        else EngineM.count (.commitCheckFailures operation) 1)
      (fun _ => pure ())

/-! ## Movements and batches -/

/-- Writes one movement down. -/
def apply (m : Movement) : EngineM σ τ Outcome := do
  let o ← EngineM.ofWatchedStock (engine.stock.apply m)
  match o.applied, o.ledgerId with
  | true, some id =>
    EngineM.publish engine
      (.movementApplied id o.key o.delta o.after m.reason m.reference m.line m.occurredAt)
      m.effectiveTrace
    EngineM.count (.movements m.reason) 1
    engine.checkCommitted "apply" m.reference [⟨o.key, m.line, o.delta⟩]
  | _, _ => pure ()
  pure o

/-- Finds or creates a batch. -/
def resolveBatch (item : ItemId) (warehouse : WarehouseId) (code : String)
    (production expiry : Option Date) (on : Date) : EngineM σ τ Batch :=
  EngineM.ofWatchedStock (engine.stock.resolveBatch item warehouse code production expiry on)

/-- Replaces the expiry date of a batch. -/
def correctExpiry (item : ItemId) (warehouse : WarehouseId) (code : String)
    (expiry : Option Date) : EngineM σ τ Batch :=
  EngineM.ofWatchedStock (engine.stock.correctExpiry item warehouse code expiry)

/-! ## Snapshots, comparisons, ageing -/

/-- Totals of the ledger up to an instant. -/
def snapshotCut (t : Instant) : EngineM σ τ SnapshotCut := do
  let totals ← EngineM.ofWatchedStock (engine.stock.totals (.atOrBefore t))
  let summary ← EngineM.ofStock (.ofResult (engine.arithmetic.summary totals))
  pure ⟨t, totals, summary⟩

/-- Computes the snapshot of a day anew. -/
def rebuildSnapshot (d : Date) : EngineM σ τ SnapshotSummary :=
  EngineM.ofWatchedStock (engine.stock.rebuildSnapshot d)

/-- Compares ledger, slots and the day's snapshot at a cut. -/
def detect (cut : Instant) : EngineM σ τ ReconciliationReport := EngineM.watched do
  let ledger ← EngineM.ofWatchedStock (engine.stock.totals (.atOrBefore cut))
  let slots ← EngineM.ofStock engine.stock.slots
  let rows ← EngineM.ofStock (engine.stock.snapshot cut.date)
  let stock := OrderedMap.ofList (slots.map (fun s => (s.key, s.quantity)))
  let snapshot := OrderedMap.ofList (rows.map (fun r => (r.key, r.onHand)))
  EngineM.ofStock (.ofResult (engine.arithmetic.reconcile cut ledger stock snapshot))

/-- Corrections for slots that differ from the ledger. -/
def suggest (cut : Instant) : EngineM σ τ (List HealSuggestion) := do
  let report ← engine.detect cut
  pure (suggestHeal report)

/-- The batches that expire within so many days. -/
def batchAgeing (today : Date) (within : Int) : EngineM σ τ (List BatchAgeing) := do
  let batches ← EngineM.ofStock engine.stock.batches
  pure (ageing batches today within)

/-- The batches that expire within the configured window. -/
def ageingReport (today : Date) : EngineM σ τ (List BatchAgeing) :=
  engine.batchAgeing today engine.settings.ageingWindow

/-! ## Reservations -/

/-- When a reservation opened now ends by default. -/
def defaultExpireAt (now : Instant) : EngineM σ τ Instant :=
  match now.add? (engine.settings.reservationTtl * 1000000) with
  | some t => pure t
  | none => throw .timeOutOfRange

/-- Opens or refreshes a reservation. -/
def createReservation (fresh : Uuid) (n : NewReservation) (now : Instant) :
    EngineM σ τ CreatedReservation := do
  let c ← EngineM.ofWatched (engine.reservations.create fresh n now)
  if c.created then
    EngineM.publish engine (.ofCreated c.reservation) c.reservation.trace
  pure c

/-- The reservation with an identifier. -/
def getReservation (id : Uuid) : EngineM σ τ (Option Reservation) :=
  EngineM.ofStore (engine.reservations.get id)

/-- Consumes a reservation. -/
def consumeReservation (id : Uuid) (now : Instant) :
    EngineM σ τ (Reservation × ConsumeOutcome) := do
  let (r, outcome) ← EngineM.ofWatched (engine.reservations.consume id now)
  if outcome = .consumed then EngineM.publishClosed engine r
  pure (r, outcome)

/-- Cancels a reservation. -/
def cancelReservation (id : Uuid) (now : Instant) : EngineM σ τ Reservation := do
  let r ← EngineM.ofWatched (engine.reservations.cancel id now)
  EngineM.publishClosed engine r
  pure r

/-- At most so many reservations past their time to live. -/
def findExpired (now : Instant) (limit : Nat) : EngineM σ τ (List Uuid) :=
  EngineM.ofStore (engine.reservations.findExpired now limit)

/-- Ends an open reservation; to publish its end it is loaded once more. -/
def release (id : Uuid) (now : Instant) : EngineM σ τ ReleaseOutcome := do
  let outcome ← EngineM.ofWatched (engine.reservations.release id now)
  if outcome.isExpired then
    match ← EngineM.ofStore (engine.reservations.get id) with
    | some r => EngineM.publishClosed engine r
    | none => pure ()
  pure outcome

/-- Ends every reservation past its time to live, in batches of the given size. -/
def sweep (rounds : Nat) (now : Instant) (batchSize : Nat) : EngineM σ τ SweepReport :=
  Sweep.run engine rounds now batchSize

/-- Ends every reservation past its time to live, in batches of the configured size. -/
def sweepExpired (rounds : Nat) (now : Instant) : EngineM σ τ SweepReport :=
  engine.sweep rounds now engine.settings.sweepBatchSize

/-! ## Allocations -/

/-- Plans an allocation. -/
def plan (item : ItemId) (warehouse : WarehouseId) (quantity : Int) (options : PlanOptions) :
    EngineM σ τ AllocationPlan :=
  EngineM.ofStock (engine.stock.plan item warehouse quantity options)

/-- Publishes the events of ledger entries. -/
def publishEntries : List LedgerEntry → EngineM σ τ Unit
  | [] => pure ()
  | e :: rest => do
    EngineM.publish engine (.ofEntry e) e.trace
    publishEntries rest

/-- Plans an allocation and writes its legs. -/
def allocate (r : AllocationRequest) : EngineM σ τ AllocationResult := do
  let result ← EngineM.ofWatchedStock (engine.stock.allocate r)
  if result.replayed then pure result
  else
    EngineM.count (.allocations result.plan.outcome) 1
    modify fun s => { s with stats := s.stats.record result.plan.outcome }
    engine.publishEntries result.entries
    engine.checkCommitted "allocate" r.reference (result.entries.map (·.effect))
    pure result

/-- How many allocations kept to the queue, and how many left it. -/
def allocationStats : EngineM σ τ FefoStats := do pure (← get).stats

/-! ## Diagnostics and scores -/

/-- Ledger activity between two instants. -/
def ledgerDiagnostics (since upTo : Instant) : EngineM σ τ LedgerDiagnostics := do
  let entries ← EngineM.ofStock (engine.stock.entriesBetween since upTo)
  EngineM.ofStock (.ofResult (engine.arithmetic.diagnose entries since upTo))

/-- The window of recent activity, in nanoseconds. -/
def activityWindow : Int := 30 * Calendar.nanosPerDay

/-- The counts of the stores at an instant. -/
def insightCounts (now : Instant) : EngineM σ τ InsightCounts := do
  match now.add? (-activityWindow) with
  | none => throw .timeOutOfRange
  | some since =>
    let stats ← EngineM.ofStock (engine.stock.ledgerStats since)
    let ledger ← EngineM.ofWatchedStock (engine.stock.totals (.atOrBefore now))
    let slots ← EngineM.ofStock engine.stock.slots
    let rows ← EngineM.ofStock (engine.stock.snapshot now.date)
    let batches ← EngineM.ofStock engine.stock.batches
    let counts : InsightCounts :=
      { ledgerRows := stats.rows
        stockRows := slots.length
        stockMatching := matching ledger (slots.map (fun s => (s.key, s.quantity)))
        snapshotRows := rows.length
        snapshotMatching := matching ledger (rows.map (fun r => (r.key, r.onHand)))
        recentLedgerRows := stats.since
        outboundLedgerRows := stats.outbound }
    pure (counts.withBatchRisk batches now.date)

/-- The dashboard scores at an instant. -/
def insights (now : Instant) : EngineM σ τ Insights := do
  let counts ← engine.insightCounts now
  pure (.compute counts)

/-! ## The engine as a store -/

/-- The stock behind the engine; changes go through the engine. -/
def asStock : StockStore (EngineM σ τ) :=
  { engine.stock.lift EngineM.ofStock with
    apply := engine.apply
    resolveBatch := engine.resolveBatch
    correctExpiry := engine.correctExpiry
    rebuildSnapshot := engine.rebuildSnapshot
    allocate := engine.allocate }

/-- The reservations behind the engine; changes go through the engine. -/
def asReservations : ReservationStore (EngineM σ τ) :=
  { engine.reservations.lift EngineM.ofStore with
    create := engine.createReservation
    consume := engine.consumeReservation
    cancel := engine.cancelReservation
    release := engine.release }

end Engine

end Stockroom
