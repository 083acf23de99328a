/-
Stockroom.Proofs.Engine.Bounded — an engine in numbers of a fixed width, beside one without a limit.

* `EngineAction.Fits` names the numbers that an action computes. `Engine.step_stopsUnless`: if they
  have room, the engine of fixed width answers and leaves what the exact one does; otherwise it
  stops, and nothing has changed. What is proved of the exact engine is hence true of this one
  wherever it does not stop.
* The calls that compute something first read the stock and then add up, so that a stop comes
  before any change (`bind_stopsUnless`). All others are the same for both engines: they look at the
  stock only through what both stores have in common.
* `Engine.run_bounded` goes on to runs: they are the same, up to the first action that stops.
-/
import Stockroom.Proofs.Engine.Diagnostics
import Stockroom.Proofs.Engine.Healing
import Stockroom.Proofs.Engine.History
import Stockroom.Proofs.Stock.Bounded

namespace Stockroom

/-! ## Steps that stop -/

namespace EngineM

variable {σ τ α β : Type} {fits fits' : Prop} {u : EngineState σ τ}

/-- A step on the stock stops the engine where it stops itself. -/
theorem ofStock_stopsUnless {x y : StoreM σ α}
    (h : StopsUnless fits (.error .outOfRange, u.store) (x.runFrom u.store) (y.runFrom u.store)) :
    StopsUnless fits (.error .outOfRange, u) ((ofStock x : EngineM σ τ α).runFrom u)
      ((ofStock y : EngineM σ τ α).runFrom u) := by
  rw [runFrom_passing, runFrom_passing]
  exact h.image fun out => (out.1.mapError EngineError.ofStock, { u with store := out.2 })

/-- So does a computation on what the stock has answered. -/
theorem ofResult_stopsUnless {x : Except StoreError α} {a : α}
    (h : StopsUnless fits (.error .outOfRange) x (.ok a)) :
    StopsUnless fits (.error .outOfRange, u)
      ((ofStock (.ofResult x) : EngineM σ τ α).runFrom u) (.ok a, u) := by
  rw [runFrom_passing_ofResult]
  exact h.image fun answer => (answer.mapError EngineError.ofStock, u)

/-- A stop leaves no line in the log. -/
theorem watched_stopsUnless {x y : EngineM σ τ α}
    (h : StopsUnless fits (.error .outOfRange, u) (x.runFrom u) (y.runFrom u)) :
    StopsUnless fits (.error .outOfRange, u) ((watched x).runFrom u) ((watched y).runFrom u) := by
  constructor
  · intro hfits
    rw [watched, watched, runFrom_tryCatch, runFrom_tryCatch, h.exact hfits]
  · intro hnot
    rw [watched, runFrom_tryCatch, h.stops hnot]
    rfl

theorem watched_stopsUnless_ok {x : EngineM σ τ α} {a : α} {v : EngineState σ τ}
    (h : StopsUnless fits (.error .outOfRange, u) (x.runFrom u) (.ok a, v)) :
    StopsUnless fits (.error .outOfRange, u) ((watched x).runFrom u) (.ok a, v) := by
  constructor
  · intro hfits
    exact runFrom_watched_of_ok (h.exact hfits)
  · intro hnot
    rw [watched, runFrom_tryCatch, h.stops hnot]
    rfl

/-- What follows a step that may stop is the same for both. -/
theorem bind_stopsUnless_left {x y : EngineM σ τ α}
    (h : StopsUnless fits (.error .outOfRange, u) (x.runFrom u) (y.runFrom u))
    (f : α → EngineM σ τ β) :
    StopsUnless fits (.error .outOfRange, u) ((x >>= f).runFrom u) ((y >>= f).runFrom u) := by
  constructor
  · intro hfits
    rw [runFrom_bind, runFrom_bind, h.exact hfits]
  · intro hnot
    rw [runFrom_bind, h.stops hnot]

/-- What follows a step that only reads may stop as well. -/
theorem bind_stopsUnless {x : EngineM σ τ α} {f : α → EngineM σ τ β} {a : α}
    {z : Except EngineError β × EngineState σ τ}
    (hx : StopsUnless fits (.error .outOfRange, u) (x.runFrom u) (.ok a, u))
    (hf : StopsUnless fits' (.error .outOfRange, u) ((f a).runFrom u) z) :
    StopsUnless (fits ∧ fits') (.error .outOfRange, u) ((x >>= f).runFrom u) z := by
  constructor
  · rintro ⟨hfits, hfits'⟩
    rw [runFrom_bind_of_ok (hx.exact hfits)]
    exact hf.exact hfits'
  · intro hnot
    by_cases hfits : fits
    · rw [runFrom_bind_of_ok (hx.exact hfits)]
      exact hf.stops fun hfits' => hnot ⟨hfits, hfits'⟩
    · rw [runFrom_bind, hx.stops hfits]

end EngineM

open EngineM

/-! ## Calls that are the same -/

namespace Engine

variable {τ : Type} (engine : Engine MemoryState τ)

theorem reservations_bounded : engine.bounded.reservations = engine.reservations := by
  -- to compare the engines as they are would be to compare all calls of their stores first
  rw [bounded]

theorem publish_bounded (event : InventoryEvent) (trace : TraceId) :
    publish engine.bounded event trace = publish engine event trace := by
  rw [bounded, publish, publish]

theorem publishClosed_bounded (r : Reservation) :
    publishClosed engine.bounded r = publishClosed engine r := by
  simp only [publishClosed, publish_bounded]

theorem publishEntries_bounded (entries : List LedgerEntry) :
    engine.bounded.publishEntries entries = engine.publishEntries entries := by
  induction entries with
  | nil => rw [publishEntries, publishEntries]
  | cons e rest ih => simp only [publishEntries, publish_bounded, ih]

end Engine

namespace Sweep

open Engine (reservations_bounded publishClosed_bounded)

variable {τ : Type} (engine : Engine MemoryState τ)

theorem releaseOne_bounded (now : Instant) (report : SweepReport) (id : Uuid) :
    releaseOne engine.bounded now report id = releaseOne engine now report id := by
  simp only [releaseOne, publishExpired, reservations_bounded, publishClosed_bounded]

theorem releaseAll_bounded (now : Instant) (report : SweepReport) (ids : List Uuid) :
    releaseAll engine.bounded now report ids = releaseAll engine now report ids := by
  induction ids generalizing report with
  | nil => rw [releaseAll, releaseAll]
  | cons id rest ih => simp only [releaseAll, releaseOne_bounded, ih]

theorem drain_bounded (now : Instant) (batchSize rounds : Nat) (report : SweepReport) :
    drain engine.bounded now batchSize rounds report =
      drain engine now batchSize rounds report := by
  induction rounds generalizing report with
  | zero => rw [drain, drain]
  | succ rounds ih => simp only [drain, reservations_bounded, releaseAll_bounded, ih]

theorem run_bounded (rounds : Nat) (now : Instant) (batchSize : Nat) :
    run engine.bounded rounds now batchSize = run engine rounds now batchSize := by
  simp only [run, drain_bounded]

end Sweep

/-! ## Numbers that have room -/

/-- The stored rows of a day, as totals. -/
def StockState.snapshotTotals (s : StockState) (d : Date) : Totals :=
  .ofList ((s.snapshots.getD d []).map (fun r => (r.key, r.onHand)))

/-- Whether all numbers of a comparison at a cut have room: the totals of the ledger on the way, and
the differences. -/
structure ComparisonFits (s : StockState) (cut : Instant) : Prop where
  totals : TotalsFit s.ledger (.atOrBefore cut)
  ledgerVsStock : Bounded.DifferencesFit (Stockroom.totals s.ledger (.atOrBefore cut)) s.slotTotals
  ledgerVsSnapshot : Bounded.DifferencesFit (Stockroom.totals s.ledger (.atOrBefore cut))
    (s.snapshotTotals cut.date)
  stockVsSnapshot : Bounded.DifferencesFit s.slotTotals (s.snapshotTotals cut.date)

/-- Whether all numbers have room that a question computes. -/
def EngineQuery.Fits (s : StockState) : EngineQuery → Prop
  | snapshotCut t =>
    TotalsFit s.ledger (.atOrBefore t) ∧ AddsUp (·.2) (totals s.ledger (.atOrBefore t)).toList
  | detect cut => ComparisonFits s cut
  | suggest cut => ComparisonFits s cut
  | plan item warehouse n options =>
    0 < n → AddsUp (·.quantity) (queue item warehouse options (s.candidates item warehouse))
  | ledgerDiagnostics since upTo =>
    let inside := window s.ledger since upTo
    Bounded.GroupsFit (·.reason.movementClass) inside ∧ Bounded.GroupsFit (·.reference) inside ∧
      Bounded.GroupsFit (·.trace.val) inside
  | insights now => TotalsFit s.ledger (.atOrBefore now)
  | _ => True

/-- Whether all numbers have room that an action computes. -/
def EngineAction.Fits (s : StockState) : EngineAction → Prop
  | allocate r => NumbersFit s r
  | rebuildSnapshot d => Bounded.RebuildFits s d
  | query q => q.Fits s
  | _ => True

/-! ## Calls that compute -/

namespace Engine

variable {τ : Type} (audit : AuditSink τ) (settings : EngineSettings)
  (u : EngineState MemoryState τ)

/-- A step on the memory's stock stops where it stops on the stock itself. -/
theorem onStock_stopsUnless {fits : Prop} {α : Type} {x y : StoreM StockState α} {s : MemoryState}
    (h : StopsUnless fits (.error .outOfRange, s.stock) (x.runFrom s.stock) (y.runFrom s.stock)) :
    StopsUnless fits (.error .outOfRange, s)
      ((StoreM.onPart MemoryState.stock (fun s stock => { s with stock }) x).runFrom s)
      ((StoreM.onPart MemoryState.stock (fun s stock => { s with stock }) y).runFrom s) := by
  rw [StoreM.runFrom_onPart, StoreM.runFrom_onPart]
  exact h.image fun out => (out.1, { s with stock := out.2 })

theorem totals_stopsUnless (cut : LedgerCut) :
    StopsUnless (TotalsFit u.store.stock.ledger cut) (.error .outOfRange, u)
      ((ofWatchedStock ((inMemory audit settings).bounded.stock.totals cut) :
        EngineM MemoryState τ Totals).runFrom u)
      (.ok (totals u.store.stock.ledger cut), u) := by
  have hstore := ofStock_stopsUnless (u := u)
    (onStock_stopsUnless (Bounded.readTotals_stopsUnless (s := u.store.stock) cut))
  exact watched_stopsUnless hstore

theorem snapshotCut_stopsUnless (t : Instant) :
    let m := totals u.store.stock.ledger (.atOrBefore t)
    StopsUnless (TotalsFit u.store.stock.ledger (.atOrBefore t) ∧ AddsUp (·.2) m.toList)
      (.error .outOfRange, u) (((inMemory audit settings).bounded.snapshotCut t).runFrom u)
      (.ok ⟨t, m, .ofTotals m⟩, u) := by
  intro m
  have hsummary : StopsUnless _ _
      ((ofStock (.ofResult (Bounded.summaryOfTotals m)) :
        EngineM MemoryState τ SnapshotSummary).runFrom u) _ :=
    ofResult_stopsUnless (Bounded.summaryOfTotals_stopsUnless m)
  exact bind_stopsUnless (totals_stopsUnless audit settings u (.atOrBefore t))
    ((bind_stopsUnless hsummary (.of_fits trivial rfl)).congr (iff_of_eq (and_true _)))

theorem comparisonFits_iff {s : StockState} {cut : Instant} :
    (TotalsFit s.ledger (.atOrBefore cut) ∧
      Bounded.DifferencesFit (totals s.ledger (.atOrBefore cut)) s.slotTotals ∧
      Bounded.DifferencesFit (totals s.ledger (.atOrBefore cut)) (s.snapshotTotals cut.date) ∧
      Bounded.DifferencesFit s.slotTotals (s.snapshotTotals cut.date)) ↔ ComparisonFits s cut :=
  ⟨fun ⟨h, h₁, h₂, h₃⟩ => ⟨h, h₁, h₂, h₃⟩, fun ⟨h, h₁, h₂, h₃⟩ => ⟨h, h₁, h₂, h₃⟩⟩

theorem detect_stopsUnless (cut : Instant) :
    StopsUnless (ComparisonFits u.store.stock cut) (.error .outOfRange, u)
      (((inMemory audit settings).bounded.detect cut).runFrom u)
      (((inMemory audit settings).detect cut).runFrom u) := by
  have hslots : (inMemory audit settings).bounded.stock.slots.runFrom u.store =
      (.ok (u.store.stock.slots.toList.map (fun b => ⟨b.1, b.2.quantity⟩)), u.store) := rfl
  have hrows : ((inMemory audit settings).bounded.stock.snapshot cut.date).runFrom u.store =
      (.ok (u.store.stock.snapshots.getD cut.date []), u.store) := rfl
  rw [detect_inMemory]
  refine watched_stopsUnless_ok
    ((bind_stopsUnless (totals_stopsUnless audit settings u (.atOrBefore cut)) ?_).congr
      comparisonFits_iff)
  rw [runFrom_bind_of_ok (runFrom_passing_of_ok hslots),
    runFrom_bind_of_ok (runFrom_passing_of_ok hrows), List.map_map]
  exact ofResult_stopsUnless (Bounded.reconcile_stopsUnless ..)

theorem suggest_stopsUnless (cut : Instant) :
    StopsUnless (ComparisonFits u.store.stock cut) (.error .outOfRange, u)
      (((inMemory audit settings).bounded.suggest cut).runFrom u)
      (((inMemory audit settings).suggest cut).runFrom u) :=
  bind_stopsUnless_left (detect_stopsUnless audit settings u cut) _

theorem ledgerDiagnostics_stopsUnless (since upTo : Instant) :
    let inside := window u.store.stock.ledger since upTo
    StopsUnless
      (Bounded.GroupsFit (·.reason.movementClass) inside ∧ Bounded.GroupsFit (·.reference) inside ∧
        Bounded.GroupsFit (·.trace.val) inside)
      (.error .outOfRange, u)
      (((inMemory audit settings).bounded.ledgerDiagnostics since upTo).runFrom u)
      (((inMemory audit settings).ledgerDiagnostics since upTo).runFrom u) := by
  intro inside
  have hentries :
      ((inMemory audit settings).bounded.stock.entriesBetween since upTo).runFrom u.store =
        (.ok (u.store.stock.ledger.filter (LedgerEntry.isWithin since upTo)), u.store) := rfl
  have hdiagnose := Bounded.diagnose_stopsUnless inside since upTo
  -- the store has left out what lies outside, and it is left out once more
  have hinside : inside.filter (LedgerEntry.isWithin since upTo) = inside := by
    rw [filter_isWithin, window_window]
  rw [hinside, diagnose_window] at hdiagnose
  rw [ledgerDiagnostics_inMemory, ledgerDiagnostics,
    runFrom_bind_of_ok (runFrom_passing_of_ok hentries), filter_isWithin]
  exact ofResult_stopsUnless hdiagnose

theorem insightCounts_stopsUnless (now : Instant) :
    StopsUnless (TotalsFit u.store.stock.ledger (.atOrBefore now)) (.error .outOfRange, u)
      (((inMemory audit settings).bounded.insightCounts now).runFrom u)
      (((inMemory audit settings).insightCounts now).runFrom u) := by
  unfold insightCounts
  cases now.add? (-activityWindow) with
  | none => exact ⟨fun _ => rfl, fun _ => rfl⟩
  | some since =>
    exact bind_stopsUnless_left (totals_stopsUnless audit settings u (.atOrBefore now)) _

theorem insights_stopsUnless (now : Instant) :
    StopsUnless (TotalsFit u.store.stock.ledger (.atOrBefore now)) (.error .outOfRange, u)
      (((inMemory audit settings).bounded.insights now).runFrom u)
      (((inMemory audit settings).insights now).runFrom u) :=
  bind_stopsUnless_left (insightCounts_stopsUnless audit settings u now) _

theorem plan_stopsUnless (item : ItemId) (warehouse : WarehouseId) (n : Int)
    (options : PlanOptions) :
    StopsUnless
      (0 < n → AddsUp (·.quantity)
        (queue item warehouse options (u.store.stock.candidates item warehouse)))
      (.error .outOfRange, u)
      (((inMemory audit settings).bounded.plan item warehouse n options).runFrom u)
      (((inMemory audit settings).plan item warehouse n options).runFrom u) :=
  ofStock_stopsUnless (onStock_stopsUnless (Bounded.plan_stopsUnless item warehouse n options))

theorem rebuildSnapshot_stopsUnless (d : Date) :
    StopsUnless (Bounded.RebuildFits u.store.stock d) (.error .outOfRange, u)
      (((inMemory audit settings).bounded.rebuildSnapshot d).runFrom u)
      (((inMemory audit settings).rebuildSnapshot d).runFrom u) := by
  have hstock := Bounded.rebuildSnapshot_stopsUnless (s := u.store.stock) d
  exact watched_stopsUnless (ofStock_stopsUnless (onStock_stopsUnless (s := u.store) hstock))

theorem allocate_stopsUnless (r : AllocationRequest) :
    StopsUnless (NumbersFit u.store.stock r) (.error .outOfRange, u)
      (((inMemory audit settings).bounded.allocate r).runFrom u)
      (((inMemory audit settings).allocate r).runFrom u) := by
  have hstore := ofStock_stopsUnless (u := u)
    (onStock_stopsUnless (s := u.store) (Bounded.allocate_stopsUnless u.store.stock r))
  unfold allocate
  simp only [publishEntries_bounded]
  exact bind_stopsUnless_left (watched_stopsUnless hstore) _

end Engine

/-! ## Steps and runs -/

namespace Engine

variable {τ : Type} (audit : AuditSink τ) (settings : EngineSettings)
  (u : EngineState MemoryState τ)

/-- An engine of fixed width takes an action as the exact one does, if all numbers that this
computes have room, and otherwise stops before anything has changed. -/
theorem step_stopsUnless (a : EngineAction) :
    StopsUnless (a.Fits u.store.stock) (.error .outOfRange, u)
      (((inMemory audit settings).bounded.step a).runFrom u)
      (((inMemory audit settings).step a).runFrom u) := by
  cases a with
  | allocate r => exact allocate_stopsUnless audit settings u r
  | rebuildSnapshot d => exact rebuildSnapshot_stopsUnless audit settings u d
  | sweep rounds now batchSize =>
    exact .of_fits trivial (congrArg (·.runFrom u) (Sweep.run_bounded _ rounds now batchSize))
  | sweepExpired rounds now =>
    exact .of_fits trivial (congrArg (·.runFrom u) (Sweep.run_bounded _ rounds now _))
  | query q =>
    cases q with
    | snapshotCut t => exact snapshotCut_stopsUnless audit settings u t
    | detect cut => exact detect_stopsUnless audit settings u cut
    | suggest cut => exact suggest_stopsUnless audit settings u cut
    | plan item warehouse n options =>
      exact plan_stopsUnless audit settings u item warehouse n options
    | ledgerDiagnostics since upTo =>
      exact ledgerDiagnostics_stopsUnless audit settings u since upTo
    | insights now => exact insights_stopsUnless audit settings u now
    | _ => exact .of_fits trivial rfl
  | _ => exact .of_fits trivial rfl

/-- An engine of fixed width goes on as the exact one does, to the end or up to the action that
stops it. -/
theorem run_bounded (actions : List EngineAction) :
    (inMemory audit settings).bounded.run actions u = (inMemory audit settings).run actions u ∨
    ∃ before a after, actions = before ++ a :: after ∧
      (inMemory audit settings).bounded.run before u = (inMemory audit settings).run before u ∧
      let v := ((inMemory audit settings).run before u).2
      ¬ a.Fits v.store.stock ∧
        ((inMemory audit settings).bounded.step a).runFrom v = (.error .outOfRange, v) := by
  induction actions generalizing u with
  | nil => exact .inl rfl
  | cons a rest ih =>
    have hstep := step_stopsUnless audit settings u a
    by_cases hfits : a.Fits u.store.stock
    · have hsame := hstep.exact hfits
      rcases ih (((inMemory audit settings).step a).runFrom u).2 with hrest | hrest
      · left
        simp only [run, hsame, hrest]
      · obtain ⟨before, b, after, rfl, hbefore, hstop⟩ := hrest
        right
        refine ⟨a :: before, b, after, rfl, ?_, hstop⟩
        simp only [run, hsame, hbefore]
    · exact .inr ⟨[], a, rest, rfl, rfl, hfits, hstep.stops hfits⟩

end Engine

end Stockroom
