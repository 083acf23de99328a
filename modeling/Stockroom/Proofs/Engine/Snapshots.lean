/-
Stockroom.Proofs.Engine.Snapshots — what a day's rows are once they have been computed anew.

* `StockState.Redrawn` says what a rebuild does to the stock: the rows of the day are those that
  the ledger gives, whatever stood there, and nothing else is touched. So a second rebuild of the
  day finds its own rows (`rebuilt_rebuilt`), and rebuilds of several days may be made in any order
  (`rebuilt_comm`).
* `DayRows` says what the rows of a day look like.
* The rows end before the next midnight, a cut at the last nanosecond of the day ends with it. In
  between lies only a leap second, so a ledger without any has the same totals in both
  (`totals_ofDay`).
* All of this holds of a day whose numbers have room (`Bounded.RebuildFits`). A rebuild of any other
  day stops, and then old rows stay (`stale_rows_stay`).
-/
import Stockroom.Proofs.Engine.Rebuild
import Stockroom.Proofs.Stock.Totals

namespace Stockroom

open EngineM

/-! ## The last nanosecond of a day -/

/-- The last nanosecond of a day, leap seconds not counted. -/
def Instant.lastOf (d : Date) : Instant where
  second := d.number * Calendar.secondsPerDay + 86399
  nanos := 999999999
  first_le := by
    have := d.first_le
    simp only [Calendar.firstSecond, Calendar.secondsPerDay]
    omega
  le_last := by
    have := d.le_last
    simp only [Calendar.lastSecond, Calendar.secondsPerDay]
    omega
  fits := .inl (by decide)

/-- Apart from leap seconds, what happened before the next midnight happened up to the last
nanosecond. -/
theorem LedgerCut.includes_ofDay {d : Date} (hlast : d ≠ .last) {t : Instant}
    (ht : t.isLeap = false) :
    (ofDay d).includes t = (atOrBefore (.lastOf d)).includes t := by
  have hnanos : t.nanos < 1000000000 := Nat.not_le.mp (of_decide_eq_false ht)
  have hnext : d.number ≠ Date.last.number := fun heq => hlast (Date.ext heq)
  have hbound : d.number ≤ Date.last.number := d.le_last
  have hne : t.date ≠ .last ↔ t.second / 86400 ≠ Date.last.number := not_congr Date.ext_iff
  have hday : t.date ≤ d ↔ t.second / 86400 ≤ d.number := Iff.rfl
  have hupTo : t ≤ .lastOf d ↔ t.second < d.number * 86400 + 86399 ∨
      t.second = d.number * 86400 + 86399 ∧ t.nanos ≤ 999999999 := Iff.rfl
  have hcut : (atOrBefore (.lastOf d)).includes t = true ↔ t ≤ .lastOf d := decide_eq_true_iff
  rw [Bool.eq_iff_iff, includes_ofDay_iff, hcut, hupTo, hne, hday]
  omega

/-- Cuts that let the same entries in have the same totals. -/
theorem totals_congr {entries : List LedgerEntry} {cut cut' : LedgerCut}
    (h : ∀ e ∈ entries, cut.includes e.occurredAt = cut'.includes e.occurredAt) :
    totals entries cut = totals entries cut' := by
  rw [totals, totals, List.filter_congr h]

/-- A ledger without leap seconds has the same totals before midnight as at the last nanosecond. -/
theorem totals_ofDay {entries : List LedgerEntry} {d : Date} (hlast : d ≠ .last)
    (hleap : ∀ e ∈ entries, e.occurredAt.isLeap = false) :
    totals entries (.ofDay d) = totals entries (.atOrBefore (.lastOf d)) :=
  totals_congr fun e he => LedgerCut.includes_ofDay hlast (hleap e he)

/-! ## The rows of a day -/

/-- Rows of a day: one for each key, ascending, none of them empty, and all that is on hand is
available. -/
structure DayRows (d : Date) (rows : List SnapshotRow) : Prop where
  ascending : rows.Pairwise (fun a b => compare a.key b.key = .lt)
  dated : ∀ r ∈ rows, r.date = d
  held : ∀ r ∈ rows, r.onHand ≠ 0
  available : ∀ r ∈ rows, r.available = r.onHand
  unallocated : ∀ r ∈ rows, r.allocated = 0

theorem dayRows_snapshotRows (d : Date) (entries : List LedgerEntry) :
    DayRows d (snapshotRows d entries) := by
  have hrow {r : SnapshotRow} (hr : r ∈ snapshotRows d entries) :
      ∃ b ∈ (totals entries (.ofDay d)).toList, ⟨d, b.1, b.2, b.2, 0⟩ = r := List.mem_map.mp hr
  refine ⟨List.pairwise_map.mpr (totals entries (.ofDay d)).ascending, ?_, ?_, ?_, ?_⟩
  · intro r hr
    obtain ⟨b, -, rfl⟩ := hrow hr
    rfl
  · intro r hr
    obtain ⟨b, hb, rfl⟩ := hrow hr
    -- zeros are dropped last
    exact bne_iff_ne.mp (List.mem_filter.mp hb).2
  · intro r hr
    obtain ⟨b, -, rfl⟩ := hrow hr
    rfl
  · intro r hr
    obtain ⟨b, -, rfl⟩ := hrow hr
    rfl

/-! ## The stock after a rebuild -/

namespace StockState

variable {s t : StockState} {d : Date}

/-- The rows that are stored for a day. -/
def rowsOf (s : StockState) (d : Date) : List SnapshotRow := s.snapshots.getD d []

/-- Stock before and after the rows of a day are computed anew: they are those of the ledger,
whatever they were; the rows of other days, and all that is not a snapshot, stay. -/
structure Redrawn (d : Date) (s t : StockState) : Prop where
  rows : t.rowsOf d = snapshotRows d s.ledger
  others : ∀ d', d' ≠ d → t.rowsOf d' = s.rowsOf d'
  rest : { t with snapshots := s.snapshots } = s

theorem redrawn_rebuilt (s : StockState) (d : Date) : Redrawn d s (s.rebuilt d) := by
  refine ⟨rows_rebuilt s d, fun d' hd' => ?_, rfl⟩
  have hget : (s.rebuilt d).snapshots.get? d' = s.snapshots.get? d' := by
    rw [rebuilt, putSnapshot, OrderedMap.get?_insert, if_neg hd'.symm]
  rw [rowsOf, rowsOf, OrderedMap.getD, hget]
  rfl

/-- Rebuilds of two days, or of one day twice, may be swapped. -/
theorem rebuilt_comm (s : StockState) (d d' : Date) :
    (s.rebuilt d).rebuilt d' = (s.rebuilt d').rebuilt d := by
  have hsnapshots : ((s.snapshots.insert d (snapshotRows d s.ledger)).insert d'
      (snapshotRows d' s.ledger)) =
      ((s.snapshots.insert d' (snapshotRows d' s.ledger)).insert d (snapshotRows d s.ledger)) := by
    apply OrderedMap.ext_get?
    intro j
    simp only [OrderedMap.get?_insert]
    by_cases hd : d = j
    · by_cases hd' : d' = j
      · rw [if_pos hd', if_pos hd, hd, hd']
      · rw [if_neg hd', if_pos hd, if_pos hd]
    · rw [if_neg hd, if_neg hd]
  exact congrArg (fun snapshots => { s with snapshots }) hsnapshots

theorem rebuilt_rebuilt (s : StockState) (d : Date) : (s.rebuilt d).rebuilt d = s.rebuilt d := by
  have hbound : (s.rebuilt d).snapshots.get? d = some (snapshotRows d s.ledger) := by
    rw [rebuilt, putSnapshot, OrderedMap.get?_insert, if_pos rfl]
  exact congrArg (fun snapshots => { s with snapshots }) (OrderedMap.insert_eq_self hbound)

end StockState

/-! ## Calls of an engine -/

/-- Once a day is rebuilt, the numbers of another one have room if they had before. -/
theorem rebuildFits_rebuilt {s : StockState} {d : Date} (h : Bounded.RebuildFits s d)
    (d' : Date) : Bounded.RebuildFits (s.rebuilt d') d := ⟨h.totals, h.rows⟩

/-- If the numbers of a day have room, so do those of a cut at its last nanosecond. -/
theorem cutFits_lastOf {s : StockState} {d : Date} (h : Bounded.RebuildFits s d)
    (hlast : d ≠ .last) (hleap : ∀ e ∈ s.ledger, e.occurredAt.isLeap = false) :
    TotalsFit s.ledger (.atOrBefore (.lastOf d)) ∧
      AddsUp (·.2) (totals s.ledger (.atOrBefore (.lastOf d))).toList := by
  have hsame : s.ledger.filter (fun e => (LedgerCut.ofDay d).includes e.occurredAt) =
      s.ledger.filter (fun e => (LedgerCut.atOrBefore (.lastOf d)).includes e.occurredAt) :=
    List.filter_congr fun e he => LedgerCut.includes_ofDay hlast (hleap e he)
  have htotals := h.totals
  have hrows := h.rows
  rw [TotalsFit, hsame] at htotals
  rw [snapshotRows, addsUp_map, totals_ofDay hlast hleap] at hrows
  exact ⟨htotals, hrows⟩

open StockState in
/-- The snapshot of a day can be rebuilt on any stock whose numbers have room: the totals of the day
after each entry, and the sum of its rows, one after another. The rows of the day are then those
that the ledger gives, whatever they were; nothing else that the engine keeps is changed, the rows
of other days included. Rebuilding the day once more gives the same answer and changes nothing, and
another day may be rebuilt after it as well as before it. Unless the day is the last one there is,
or something in the ledger happened in a leap second, the rows list the totals of a cut taken at
the last nanosecond of the day, and their count and their sum are those told of the cut. If some
number has no room, the rebuild stops, and all rows stay what they were. -/
theorem snapshots_follow_ledger {τ : Type} (audit : AuditSink τ) (settings : EngineSettings)
    (u : EngineState MemoryState τ) (d : Date) :
    let engine := (Engine.inMemory audit settings).bounded
    let stock := u.store.stock
    (Bounded.RebuildFits stock d →
      ∃ summary t,
        (engine.rebuildSnapshot d).runFrom u = (.ok summary, u.withStock t) ∧
        Redrawn d stock t ∧
        DayRows d (t.rowsOf d) ∧
        summary = .ofRows d (t.rowsOf d) ∧
        (engine.rebuildSnapshot d).runFrom (u.withStock t) = (.ok summary, u.withStock t) ∧
        (∀ d', Bounded.RebuildFits stock d' → ∃ summary' t' both,
          (engine.rebuildSnapshot d').runFrom u = (.ok summary', u.withStock t') ∧
          (engine.rebuildSnapshot d').runFrom (u.withStock t) = (.ok summary', u.withStock both) ∧
          (engine.rebuildSnapshot d).runFrom (u.withStock t') = (.ok summary, u.withStock both)) ∧
        (d ≠ .last → (∀ e ∈ stock.ledger, e.occurredAt.isLeap = false) →
          ∃ cut,
            (engine.snapshotCut (.lastOf d)).runFrom (u.withStock t) = (.ok cut, u.withStock t) ∧
            (t.rowsOf d).map (fun r => (r.key, r.onHand)) = cut.totals.toList ∧
            summary.slots = cut.summary.slots ∧
            summary.quantity = cut.summary.quantity)) ∧
    (¬ Bounded.RebuildFits stock d →
      (engine.rebuildSnapshot d).runFrom u = (.error .outOfRange, u)) := by
  intro engine stock
  have hrun {d : Date} {s : StockState} (h : Bounded.RebuildFits s d) :
      (engine.rebuildSnapshot d).runFrom (u.withStock s) =
        (.ok (.ofRows d (snapshotRows d s.ledger)), u.withStock (s.rebuilt d)) :=
    Engine.rebuildSnapshot_of_fits audit settings (u := u.withStock s) h
  refine ⟨fun hfits => ?_, (Engine.rebuildSnapshot_stopsUnless audit settings u d).stops⟩
  have hredrawn := redrawn_rebuilt stock d
  refine ⟨_, _, hrun hfits, hredrawn, ?_, ?_, ?_, fun d' hfits' => ?_, fun hlast hleap => ?_⟩
  · rw [hredrawn.rows]
    exact dayRows_snapshotRows d _
  · rw [hredrawn.rows]
  · rw [hrun (rebuildFits_rebuilt hfits d), rebuilt_rebuilt]
    rfl
  · refine ⟨_, _, _, hrun hfits', hrun (rebuildFits_rebuilt hfits' d), ?_⟩
    rw [hrun (rebuildFits_rebuilt hfits d'), rebuilt_comm]
    rfl
  · have hcut := (Engine.snapshotCut_stopsUnless audit settings (u.withStock (stock.rebuilt d))
      (.lastOf d)).exact (cutFits_lastOf (rebuildFits_rebuilt hfits d) hlast hleap)
    have htotals : totals (u.withStock (stock.rebuilt d)).store.stock.ledger
        (.atOrBefore (.lastOf d)) = totals stock.ledger (.ofDay d) :=
      (totals_ofDay hlast hleap).symm
    rw [htotals] at hcut
    refine ⟨_, hcut, ?_, ?_, quantity_ofRows_snapshotRows ..⟩
    · rw [hredrawn.rows, map_snapshotRows]
    · exact List.length_map _

namespace Sample

/-- Five more of batch A come in the moment the tenth day is over. -/
def afterMidnight : Movement := { delivery "A" 3 5 with occurredAt := LedgerCut.endOfDay soon }

/-- The snapshot of the tenth day is taken too early: the order and a pick of that day are written
only afterwards. -/
def overtaken : StockState :=
  stock.run [.rebuildSnapshot soon, .allocate (order 1 6), .apply latePick, .apply afterMidnight]

/-- The engine over that stock. -/
def overtakenEngine : EngineState MemoryState Unit := .start ⟨overtaken, .empty⟩ ()

/-- The snapshot of the tenth day is taken after the first of two full batches has come in. -/
def halfVast : StockState :=
  (StockState.empty .epoch).run
    [.apply (delivery "A" 1 most), .rebuildSnapshot soon, .apply (delivery "B" 2 most)]

/-- The engine over that stock. -/
def halfVastEngine : EngineState MemoryState Unit := .start ⟨halfVast, .empty⟩ ()

end Sample

open Sample in
/-- The early rows of both batches give way to one row: batch B is empty, and what came in after the
day does not count. A cut at the last nanosecond of the day has the same total. -/
theorem snapshots_follow_ledger_overtaken :
    Bounded.RebuildFits overtaken soon ∧
    soon ≠ .last ∧ (∀ e ∈ overtaken.ledger, e.occurredAt.isLeap = false) ∧
    overtaken.rowsOf soon = [⟨soon, key "A", 5, 5, 0⟩, ⟨soon, key "B", 4, 4, 0⟩] ∧
    overtaken.quantity (key "A") = 6 ∧
    ∃ summary t cut,
      (quietEngine.bounded.rebuildSnapshot soon).runFrom overtakenEngine =
        (.ok summary, overtakenEngine.withStock t) ∧
      t.rowsOf soon = [⟨soon, key "A", 1, 1, 0⟩] ∧
      (quietEngine.bounded.snapshotCut (.lastOf soon)).runFrom (overtakenEngine.withStock t) =
        (.ok cut, overtakenEngine.withStock t) ∧
      cut.totals.toList = [(key "A", 1)] ∧ cut.summary.slots = 1 ∧ cut.summary.quantity = 1 := by
  have hfits : Bounded.RebuildFits overtaken soon := by decide +kernel
  have hlast : soon ≠ .last := by decide
  have hleap : ∀ e ∈ overtaken.ledger, e.occurredAt.isLeap = false := by decide +kernel
  have hrows : snapshotRows soon overtaken.ledger = [⟨soon, key "A", 1, 1, 0⟩] := by decide +kernel
  obtain ⟨summary, t, hrun, hredrawn, -, hsummary, -, -, hcut⟩ :=
    (snapshots_follow_ledger (.discard Unit) (.ofConfig {}) overtakenEngine soon).1 hfits
  obtain ⟨cut, hcut, htotals, hslots, hquantity⟩ := hcut hlast hleap
  have hshown : t.rowsOf soon = [⟨soon, key "A", 1, 1, 0⟩] := hredrawn.rows.trans hrows
  rw [hshown] at htotals hsummary
  rw [hsummary] at hslots hquantity
  exact ⟨hfits, hlast, hleap, by decide +kernel, by decide +kernel, summary, t, cut, hrun, hshown,
    hcut, htotals.symm, hslots.symm, hquantity.symm⟩

open Sample in
/-- Two stocks that there can be have the same ledger, and no rows or a single one for the tenth
day. To rebuild the day stops on either, so that the rows stay different, and neither has the two
that the ledger gives. -/
theorem stale_rows_stay :
    vast.Reachable ∧ halfVast.Reachable ∧ halfVast.ledger = vast.ledger ∧
    (quietEngine.bounded.rebuildSnapshot soon).runFrom vastEngine =
      (.error .outOfRange, vastEngine) ∧
    (quietEngine.bounded.rebuildSnapshot soon).runFrom halfVastEngine =
      (.error .outOfRange, halfVastEngine) ∧
    vast.rowsOf soon = [] ∧ halfVast.rowsOf soon = [⟨soon, key "A", most, most, 0⟩] ∧
    snapshotRows soon vast.ledger =
      [⟨soon, key "A", most, most, 0⟩, ⟨soon, key "B", most, most, 0⟩] := by
  have hstops := Engine.rebuildSnapshot_stopsUnless (.discard Unit) (.ofConfig {})
  have hvast : ¬ Bounded.RebuildFits vast soon := by decide +kernel
  have hhalf : ¬ Bounded.RebuildFits halfVast soon := by decide +kernel
  exact ⟨reachable_vast, ⟨_, _, rfl⟩, by decide +kernel, (hstops vastEngine soon).stops hvast,
    (hstops halfVastEngine soon).stops hhalf, by decide +kernel, by decide +kernel,
    by decide +kernel⟩

end Stockroom
