/-
Stockroom.Proofs.Engine.Rebuild — right after the snapshot of a day is rebuilt, ledger, slots and
snapshot agree.

The three are told apart by what they leave out. The ledger is summed up to the cut and drops the
keys that come to zero, the slots are listed as they are and keep the empty ones, and the snapshot
ends at the next midnight and drops zeros again.

* `LedgerCut.includes_ofDay_date`: what happened up to a cut happened before the midnight that
  follows it, on every day but the last one.
* If no entry lies behind the cut, all three hold the same quantity of each key, which is the sum
  of its entries (`quantity_totals_of_includes`); a key that one of them drops is zero in the
  others. `StockState.agrees_rebuilt` puts this together for the stock.
* A comparison is clean if and only if the three agree (`isClean_comparison`).
* The totals of a ledger without a later entry have room, since the slots have, and so do the
  differences of sides that agree. What is left is the sum of the rows, which is that of the slots
  (`rebuildFits_iff`): nothing makes sure that it has room (`rebuild_runs_over`).
-/
import Stockroom.Proofs.Engine.Bounded
import Stockroom.Proofs.Stock.DayCut
import Stockroom.Proofs.Stock.Range

namespace Stockroom

open EngineM

/-! ## Three views of the same quantities -/

/-- The totals of entries that all count are the sums of all entries. -/
theorem quantity_totals_of_includes {entries : List LedgerEntry} {cut : LedgerCut}
    (h : ∀ e ∈ entries, cut.includes e.occurredAt = true) (k : StockKey) :
    (totals entries cut).quantity k = ledgerTotal k entries := by
  rw [quantity_totals, List.filter_eq_self.mpr h]

/-- So are the totals up to an instant that no entry lies behind. -/
theorem quantity_totals_atOrBefore {entries : List LedgerEntry} {cut : Instant}
    (h : ∀ e ∈ entries, e.occurredAt ≤ cut) (k : StockKey) :
    (totals entries (.atOrBefore cut)).quantity k = ledgerTotal k entries := by
  have hinside : ∀ e ∈ entries, (LedgerCut.atOrBefore cut).includes e.occurredAt = true :=
    fun e he => decide_eq_true (h e he)
  exact quantity_totals_of_includes hinside k

/-- So are the totals of its day, if that is not the last one. -/
theorem quantity_totals_ofDay {entries : List LedgerEntry} {cut : Instant}
    (h : ∀ e ∈ entries, e.occurredAt ≤ cut) (hlast : cut.date ≠ .last) (k : StockKey) :
    (totals entries (.ofDay cut.date)).quantity k = ledgerTotal k entries :=
  quantity_totals_of_includes (fun e he => LedgerCut.includes_ofDay_date (h e he) hlast) k

/-- Sides have no mismatch exactly if their quantities are the same. -/
theorem mismatches_eq_nil_iff {left right : Totals} {kind : MismatchKind} :
    mismatches kind left right = [] ↔ ∀ k, left.quantity k = right.quantity k := by
  rw [mismatches_eq, List.map_eq_nil_iff, List.eq_nil_iff_forall_not_mem]
  exact forall_congr' fun k => (not_congr mem_differing).trans Decidable.not_not

/-- If the ledger has the quantity of each key, every listed key matches. -/
theorem matching_eq_size {ledger stock : Totals}
    (h : ∀ k, ledger.quantity k = stock.quantity k) :
    matching ledger stock.toList = stock.size := by
  rw [matching, OrderedMap.size, List.countP_eq_length]
  rintro ⟨k, q⟩ hmem
  rw [beq_iff_eq, h k, Totals.quantity_of_mem hmem]

/-- The rows of a day list its totals. -/
theorem map_snapshotRows (d : Date) (entries : List LedgerEntry) :
    (snapshotRows d entries).map (fun r => (r.key, r.onHand)) =
      (totals entries (.ofDay d)).toList := by
  rw [snapshotRows, List.map_map]
  exact List.map_id _

namespace StockState

variable {s : StockState} {cut : Instant}

/-- The stock with the snapshot of a day rebuilt. -/
def rebuilt (s : StockState) (d : Date) : StockState := s.putSnapshot d (snapshotRows d s.ledger)

theorem toList_slotTotals (s : StockState) :
    s.slotTotals.toList = s.slots.toList.map (fun b => (b.1, b.2.quantity)) := by
  have hascending : (s.slots.toList.map (fun b => (b.1, b.2.quantity))).Pairwise
      (fun a b => compare a.1 b.1 = .lt) := List.pairwise_map.mpr s.slots.ascending
  rw [slotTotals, OrderedMap.ofList_eq_mk hascending]

theorem size_slotTotals (s : StockState) : s.slotTotals.size = s.slots.size := by
  rw [OrderedMap.size, toList_slotTotals, List.length_map, OrderedMap.size]

/-- The rows of a rebuilt day are those of the ledger. -/
theorem rows_rebuilt (s : StockState) (d : Date) :
    (s.rebuilt d).snapshots.getD d [] = snapshotRows d s.ledger := by
  show ((s.snapshots.insert d _).get? d).getD [] = _
  rw [OrderedMap.get?_insert, if_pos rfl, Option.getD_some]

/-- A comparison reads from a rebuilt snapshot the totals that it was made of. -/
theorem snapshotTotals_rebuilt (s : StockState) (d : Date) :
    (s.rebuilt d).snapshotTotals d = totals s.ledger (.ofDay d) := by
  rw [snapshotTotals, rows_rebuilt, map_snapshotRows,
    OrderedMap.ofList_eq_mk (totals s.ledger (.ofDay d)).ascending]

/-- The ledger up to a cut, the slots and the stored rows of its day tell the same of each key. -/
def Agrees (s : StockState) (cut : Instant) : Prop :=
  ∀ k, s.ledgerAt cut k = s.quantity k ∧ (s.snapshotTotals cut.date).quantity k = s.quantity k

/-- If no entry lies behind the cut, the rebuilt stock agrees. -/
theorem agrees_rebuilt (hs : s.Attained) (hcut : ∀ e ∈ s.ledger, e.occurredAt ≤ cut)
    (hlast : cut.date ≠ .last) : (s.rebuilt cut.date).Agrees cut := by
  intro k
  have hslot : (s.rebuilt cut.date).quantity k = ledgerTotal k s.ledger := hs.balanced.slot k
  rw [hslot, snapshotTotals_rebuilt]
  exact ⟨quantity_totals_atOrBefore hcut k, quantity_totals_ofDay hcut hlast k⟩

section Agrees

variable (h : s.Agrees cut)

include h

theorem Agrees.ledgerVsStock (k : StockKey) :
    (totals s.ledger (.atOrBefore cut)).quantity k = s.slotTotals.quantity k :=
  (h k).1.trans (quantity_slotTotals s k).symm

theorem Agrees.stockVsSnapshot (k : StockKey) :
    s.slotTotals.quantity k = (s.snapshotTotals cut.date).quantity k :=
  (quantity_slotTotals s k).trans (h k).2.symm

theorem Agrees.ledgerVsSnapshot (k : StockKey) :
    (totals s.ledger (.atOrBefore cut)).quantity k = (s.snapshotTotals cut.date).quantity k :=
  (h.ledgerVsStock k).trans (h.stockVsSnapshot k)

/-- Stock that agrees is compared without a mismatch. -/
theorem Agrees.comparison_eq :
    s.comparison cut = ⟨cut, s.slots.size, s.slots.size, [], [], []⟩ := by
  show reconcile cut (totals s.ledger (.atOrBefore cut)) s.slotTotals
    (s.snapshotTotals cut.date) = _
  rw [reconcile, matching_eq_size h.ledgerVsStock, size_slotTotals,
    mismatches_eq_nil_iff.mpr h.ledgerVsStock, mismatches_eq_nil_iff.mpr h.ledgerVsSnapshot,
    mismatches_eq_nil_iff.mpr h.stockVsSnapshot]

/-- Where nothing differs, only the totals can have no room. -/
theorem Agrees.comparisonFits (htotals : TotalsFit s.ledger (.atOrBefore cut)) :
    ComparisonFits s cut :=
  ⟨htotals, .of_eq h.ledgerVsStock, .of_eq h.ledgerVsSnapshot, .of_eq h.stockVsSnapshot⟩

end Agrees

/-- A comparison is clean exactly if the three agree. -/
theorem isClean_comparison : (s.comparison cut).isClean = true ↔ s.Agrees cut := by
  constructor
  · intro hclean
    have hlists : ((s.comparison cut).ledgerVsStock = [] ∧
        (s.comparison cut).ledgerVsSnapshot = []) ∧ (s.comparison cut).stockVsSnapshot = [] := by
      simpa [ReconciliationReport.isClean] using hclean
    intro k
    have hslot := quantity_slotTotals s k
    exact ⟨(mismatches_eq_nil_iff.mp hlists.1.1 k).trans hslot,
      (mismatches_eq_nil_iff.mp hlists.2 k).symm.trans hslot⟩
  · intro h
    rw [h.comparison_eq]
    rfl

/-! ## Numbers that have room -/

/-- The totals of a day that no entry lies behind are the slots that are not empty. -/
theorem totals_ofDay_eq (hs : s.Attained) (hcut : ∀ e ∈ s.ledger, e.occurredAt ≤ cut)
    (hlast : cut.date ≠ .last) :
    totals s.ledger (.ofDay cut.date) = s.slotTotals.filter (fun _ q => q != 0) := by
  apply OrderedMap.ext_get?
  intro k
  have hinside := List.filter_eq_self.mpr fun e he =>
    LedgerCut.includes_ofDay_date (hcut e he) hlast
  rw [get?_totals, Totals.get?_filter_ne_zero, quantity_slotTotals, hs.balanced.slot, hinside]

/-- The numbers of a rebuild have room exactly if the slots add up, one after another. -/
theorem rebuildFits_iff (hs : s.Attained) (hcut : ∀ e ∈ s.ledger, e.occurredAt ≤ cut)
    (hlast : cut.date ≠ .last) :
    Bounded.RebuildFits s cut.date ↔ AddsUp (·.2.quantity) s.slots.toList := by
  have htotals : TotalsFit s.ledger (.ofDay cut.date) :=
    hs.totalsFit fun e he => LedgerCut.includes_ofDay_date (hcut e he) hlast
  have hslots : (totals s.ledger (.ofDay cut.date)).toList =
      (s.slots.toList.map (fun b => (b.1, b.2.quantity))).filter (fun b => b.2 != 0) := by
    rw [totals_ofDay_eq hs hcut hlast, ← toList_slotTotals]
    rfl
  have hrows : AddsUp (·.onHand) (snapshotRows cut.date s.ledger) ↔
      AddsUp (·.2.quantity) s.slots.toList := by
    rw [snapshotRows, addsUp_map, hslots, addsUp_filter_of_zero, addsUp_map]
    -- only empty slots have no row
    intro b hb
    exact bne_eq_false_iff_eq.mp hb
  exact ⟨fun h => hrows.mp h.rows, fun h => ⟨htotals, hrows.mpr h⟩⟩

end StockState

/-! ## Calls of an engine -/

/-- The engine with other stock behind it. -/
def EngineState.withStock {τ : Type} (u : EngineState MemoryState τ) (stock : StockState) :
    EngineState MemoryState τ := { u with store := { u.store with stock } }

namespace Engine

variable {τ : Type} (audit : AuditSink τ) (settings : EngineSettings)
  {u v : EngineState MemoryState τ} {cut : Instant}

theorem rebuildSnapshot_inMemory (d : Date) (u : EngineState MemoryState τ) :
    ((inMemory audit settings).rebuildSnapshot d).runFrom u =
      (.ok (.ofRows d (snapshotRows d u.store.stock.ledger)),
        u.withStock (u.store.stock.rebuilt d)) := by
  have hrebuild : ((inMemory audit settings).stock.rebuildSnapshot d).runFrom u.store =
      (.ok (.ofRows d (snapshotRows d u.store.stock.ledger)),
        { u.store with stock := u.store.stock.rebuilt d }) := rfl
  exact runFrom_watched_passing_of_ok hrebuild

/-- If its numbers have room, a rebuild in numbers of a fixed width stores the rows of the
ledger. -/
theorem rebuildSnapshot_of_fits {d : Date} (h : Bounded.RebuildFits u.store.stock d) :
    ((inMemory audit settings).bounded.rebuildSnapshot d).runFrom u =
      (.ok (.ofRows d (snapshotRows d u.store.stock.ledger)),
        u.withStock (u.store.stock.rebuilt d)) := by
  rw [(rebuildSnapshot_stopsUnless audit settings u d).exact h, rebuildSnapshot_inMemory]

/-- Of stock that agrees, a comparison tells that nothing differs, and it has nothing to
correct. -/
theorem detect_of_agrees (hagrees : u.store.stock.Agrees cut)
    (htotals : TotalsFit u.store.stock.ledger (.atOrBefore cut)) :
    let slots := u.store.stock.slots.size
    ((inMemory audit settings).bounded.detect cut).runFrom u =
      (.ok ⟨cut, slots, slots, [], [], []⟩, u) ∧
    ((inMemory audit settings).bounded.suggest cut).runFrom u = (.ok [], u) := by
  have hfits := hagrees.comparisonFits htotals
  rw [(detect_stopsUnless audit settings u cut).exact hfits, detect_inMemory,
    (suggest_stopsUnless audit settings u cut).exact hfits, suggest_inMemory,
    StockState.corrections, hagrees.comparison_eq]
  exact ⟨rfl, rfl⟩

/-- A comparison that does not stop compares the stock, and changes nothing. -/
theorem detect_bounded_eq_ok {report : ReconciliationReport}
    (h : ((inMemory audit settings).bounded.detect cut).runFrom u = (.ok report, v)) :
    report = u.store.stock.comparison cut ∧ v = u := by
  have hdetect := detect_stopsUnless audit settings u cut
  rw [detect_inMemory] at hdetect
  rcases hdetect.eq_or_eq with hexact | hstop
  · cases hexact.symm.trans h
    exact ⟨rfl, rfl⟩
  · cases hstop.symm.trans h

end Engine

/-- What a comparison says of the stock: it is made of the totals of the ledger up to the cut, the
slots, and the stored rows of the day, and it is clean exactly if the three agree. -/
structure StockState.ComparesAs (s : StockState) (cut : Instant) (report : ReconciliationReport) :
    Prop where
  made : report = reconcile cut (totals s.ledger (.atOrBefore cut)) s.slotTotals
    (s.snapshotTotals cut.date)
  clean : report.isClean = true ↔ s.Agrees cut

theorem StockState.comparesAs_comparison (s : StockState) (cut : Instant) :
    s.ComparesAs cut (s.comparison cut) := ⟨rfl, isClean_comparison⟩

/-- Take any stock there can be, and a cut that no entry lies behind, on any day but the last one
there is. If the quantities of the slots add up, one after another, to what a quantity can be, the
snapshot of that day can be rebuilt; a comparison at the cut then finds every slot to match and
nothing to differ, and there is nothing to correct. If they do not, the rebuild stops, and nothing
is stored. Whenever a comparison answers, it has compared the three, and it finds them clean only
if they agree in every key. -/
theorem rebuilt_reconciles_clean {τ : Type} (audit : AuditSink τ) (settings : EngineSettings)
    {u : EngineState MemoryState τ} {cut : Instant} (hs : u.store.stock.Reachable)
    (hcut : ∀ e ∈ u.store.stock.ledger, e.occurredAt ≤ cut) (hlast : cut.date ≠ .last) :
    let engine := (Engine.inMemory audit settings).bounded
    let slots := u.store.stock.slots
    (AddsUp (·.2.quantity) slots.toList →
      ∃ summary v,
        (engine.rebuildSnapshot cut.date).runFrom u = (.ok summary, v) ∧
        v.store.stock.slots = slots ∧
        (engine.detect cut).runFrom v = (.ok ⟨cut, slots.size, slots.size, [], [], []⟩, v) ∧
        (engine.suggest cut).runFrom v = (.ok [], v)) ∧
    (¬ AddsUp (·.2.quantity) slots.toList →
      (engine.rebuildSnapshot cut.date).runFrom u = (.error .outOfRange, u)) ∧
    ∀ w t report w', (engine.detect t).runFrom w = (.ok report, w') →
      w.store.stock.ComparesAs t report ∧ w' = w := by
  intro engine slots
  have hfits := StockState.rebuildFits_iff hs.attained hcut hlast
  have hrebuild := Engine.rebuildSnapshot_stopsUnless audit settings u cut.date
  refine ⟨fun hadds => ?_, fun hnot => hrebuild.stops (mt hfits.mp hnot), fun w t report w' h => ?_⟩
  · have hagrees := StockState.agrees_rebuilt hs.attained hcut hlast
    have htotals : TotalsFit u.store.stock.ledger (.atOrBefore cut) :=
      hs.attained.totalsFit fun e he => decide_eq_true (hcut e he)
    exact ⟨_, _, Engine.rebuildSnapshot_of_fits audit settings (hfits.mpr hadds), rfl,
      Engine.detect_of_agrees audit settings hagrees htotals⟩
  · obtain ⟨rfl, rfl⟩ := Engine.detect_bounded_eq_ok audit settings h
    exact ⟨StockState.comparesAs_comparison _ t, rfl⟩

namespace Sample

/-- The order has emptied batch B; then two pieces are booked back whose pick, further down in the
calendar, was written before them. -/
def returned : StockState :=
  stock.run [.allocate (order 1 6), .apply latePick, .apply adjustment]

/-- The engine over that stock. -/
def returnedEngine : EngineState MemoryState Unit := .start ⟨returned, .empty⟩ ()

/-- The engine over two full batches. -/
def vastEngine : EngineState MemoryState Unit := .start ⟨vast, .empty⟩ ()

end Sample

open Sample in
/-- Both slots match on the tenth day, the empty one of batch B as well. -/
theorem rebuilt_reconciles_clean_returned :
    returned.Reachable ∧ (∀ e ∈ returned.ledger, e.occurredAt ≤ midnight 9) ∧
    (midnight 9).date ≠ .last ∧ returned.quantity (key "B") = 0 ∧
    ∃ summary v,
      (quietEngine.bounded.rebuildSnapshot (midnight 9).date).runFrom returnedEngine =
        (.ok summary, v) ∧
      (quietEngine.bounded.detect (midnight 9)).runFrom v =
        (.ok ⟨midnight 9, 2, 2, [], [], []⟩, v) ∧
      v.store.stock.Agrees (midnight 9) := by
  have hs : returned.Reachable := reachable_stock.run _
  have hcut : ∀ e ∈ returned.ledger, e.occurredAt ≤ midnight 9 := by decide +kernel
  have hlast : (midnight 9).date ≠ .last := by decide
  have hadds : AddsUp (·.2.quantity) returned.slots.toList :=
    (addsUp_iff_of_nonneg (by decide +kernel)).mpr (by decide +kernel)
  have hsize : returned.slots.size = 2 := by decide +kernel
  obtain ⟨hclean, -, hcompares⟩ :=
    rebuilt_reconciles_clean (.discard Unit) (.ofConfig {}) (u := returnedEngine) hs hcut hlast
  obtain ⟨summary, v, hrebuild, -, hdetect, -⟩ := hclean hadds
  have hslots : returnedEngine.store.stock.slots.size = 2 := hsize
  rw [hslots] at hdetect
  exact ⟨hs, hcut, hlast, by decide +kernel, summary, v, hrebuild, hdetect,
    (hcompares _ _ _ _ hdetect).1.clean.mp rfl⟩

open Sample in
/-- Two full batches are stock there can be, and no entry lies behind the tenth day; but the rows of
its snapshot have no sum, so that it cannot be rebuilt. -/
theorem rebuild_runs_over :
    vast.Reachable ∧ (∀ e ∈ vast.ledger, e.occurredAt ≤ midnight 9) ∧
    (midnight 9).date ≠ .last ∧
    (SnapshotSummary.ofRows soon (snapshotRows soon vast.ledger)).quantity = 18446744073709551614 ∧
    (quietEngine.bounded.rebuildSnapshot (midnight 9).date).runFrom vastEngine =
      (.error .outOfRange, vastEngine) := by
  have hcut : ∀ e ∈ vast.ledger, e.occurredAt ≤ midnight 9 := by decide +kernel
  have hlast : (midnight 9).date ≠ .last := by decide
  refine ⟨reachable_vast, hcut, hlast, by decide +kernel, ?_⟩
  refine (Engine.rebuildSnapshot_stopsUnless _ _ _ _).stops fun hfits => ?_
  have hadds := (StockState.rebuildFits_iff reachable_vast.attained hcut hlast).mp hfits
  have hsum := (addsUp_iff_of_nonneg (by decide +kernel)).mp hadds
  exact absurd hsum (by decide +kernel)

end Stockroom
