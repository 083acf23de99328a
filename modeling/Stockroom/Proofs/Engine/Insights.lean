/-
Stockroom.Proofs.Engine.Insights — the counts behind the scores fit each other.

The counts are asked of the store one after another. That none of them exceeds what it is a share
of is no matter of the formulas: the keys of the slots are keys of the ledger
(`Attained.size_slots_le`), and a slot holds the sum of its entries.

* `Sane` lists what holds of the counts of all stock there can be, at any instant.
* If no entry lies behind the instant, all slots match the ledger.
* `Current` says that the rows of a day are those of the ledger as it is. A rebuild makes them so,
  and they stay so until an entry is added (`Current.changes`); then all rows match as well.
* The recent entries are those of the last thirty days, which have to lie in the range of instants
  (`Instant.add?_activityWindow`).
* To gather the counts the ledger is summed up to the instant. What lies behind it is left out, so
  that the sum of a key may have no room although its slot always has (`insights_run_over`); if
  nothing lies behind, both are the same.
-/
import Mathlib.Algebra.Order.Field.Basic
import Mathlib.Algebra.Order.Ring.Rat
import Mathlib.Data.List.Perm.Subperm
import Stockroom.Proofs.Engine.Snapshots
import Stockroom.Proofs.Stock.Representation

namespace Stockroom

open EngineM

/-! ## Thirty days back -/

/-- The first representable day. -/
def Date.first : Date := ⟨Calendar.firstDay, Int.le_refl _, Date.last.first_le⟩

/-- The first instant there is. -/
def Instant.first : Instant := .ofDate .first

/-- What lies thirty days or more behind the first instant has an instant thirty days before it. -/
theorem Instant.add?_activityWindow {now : Instant}
    (h : Instant.first.sinceEpoch + Engine.activityWindow ≤ now.sinceEpoch) :
    ∃ since, now.add? (-Engine.activityWindow) = some since := by
  have hnear : now.staysNear (-Engine.activityWindow) = false := by
    have hfar : ¬ -(Calendar.nanosPerSecond : Int) < -Engine.activityWindow := by decide
    rw [staysNear, decide_eq_false hfar, Bool.false_and]
  have hback : decide (0 < -Engine.activityWindow) = false := by decide
  have hadd : now.add? (-Engine.activityWindow) =
      ofNanos? (now.sinceEpoch - Engine.activityWindow) := by
    rw [add?, hnear, hback, Bool.and_false, Int.sub_eq_add_neg]
    rfl
  have hlast := now.le_last
  have hnanos : now.nanos < 2000000000 := by
    have hfits := now.fits
    unfold Calendar.Fits Calendar.nanosPerSecond at hfits
    omega
  have hwindow : Engine.activityWindow = 2592000000000000 := rfl
  have hfirst : Instant.first.sinceEpoch = Calendar.firstSecond * 1000000000 := by decide
  have hnow : now.sinceEpoch = now.second * 1000000000 + now.nanos := rfl
  rw [hadd, ofNanos?, ofParts?]
  rw [hfirst, hwindow, hnow] at h
  refine ⟨_, dif_pos ⟨⟨?_, ?_⟩, .inl ?_⟩⟩
  · show Calendar.firstSecond ≤ (now.sinceEpoch - Engine.activityWindow) / 1000000000
    omega
  · show (now.sinceEpoch - Engine.activityWindow) / 1000000000 ≤ Calendar.lastSecond
    omega
  · show ((now.sinceEpoch - Engine.activityWindow) % 1000000000).toNat < 1000000000
    omega

/-! ## Slots and ledger -/

namespace StockState

variable {s t : StockState} {now : Instant}

/-- There are no more slots than entries, since each slot has an entry of its own key. -/
theorem Attained.size_slots_le (h : s.Attained) : s.slots.size ≤ s.ledger.length := by
  have hsubset : s.slots.keys ⊆ s.ledger.map (·.key) := by
    intro k hk
    obtain ⟨e, he, rfl⟩ := (h.slotsFollow.known k).mp (OrderedMap.mem_keys_iff.mp hk)
    exact List.mem_map_of_mem he
  have hle := (List.subperm_of_subset s.slots.nodup_keys hsubset).length_le
  rwa [OrderedMap.keys, List.length_map, List.length_map] at hle

/-- If no entry lies behind an instant, every slot matches the ledger up to it. -/
theorem Attained.matching_slots (h : s.Attained) (hnow : ∀ e ∈ s.ledger, e.occurredAt ≤ now) :
    matching (totals s.ledger (.atOrBefore now)) (s.slots.toList.map (fun b => (b.1, b.2.quantity)))
      = s.slots.size := by
  have hsame (k : StockKey) :
      (totals s.ledger (.atOrBefore now)).quantity k = s.slotTotals.quantity k := by
    rw [quantity_totals_atOrBefore hnow, quantity_slotTotals, h.balanced.slot]
  rw [← toList_slotTotals, matching_eq_size hsame, size_slotTotals]

/-! ## Rows that are up to date -/

/-- The stored rows of a day are those of the ledger as it is. -/
def Current (s : StockState) (d : Date) : Prop := s.rowsOf d = snapshotRows d s.ledger

theorem current_rebuilt (s : StockState) (d : Date) : (s.rebuilt d).Current d :=
  (redrawn_rebuilt s d).rows

/-- A change that adds no entry leaves rows up to date, also where it computes them anew. -/
theorem Current.change {d : Date} (h : s.Current d) (hc : Change s t)
    (hledger : t.ledger = s.ledger) : t.Current d := by
  cases hc with
  | tick clock => exact h
  | created new => exact h
  | corrected known dated => exact h
  | entered admitted =>
    rw [ledger_enter] at hledger
    exact absurd (List.append_right_eq_self.mp hledger) (List.cons_ne_nil _ _)
  | photographed d' =>
    by_cases hd : d = d'
    · subst hd
      exact s.current_rebuilt d
    · exact ((redrawn_rebuilt s d').others d hd).trans h

/-- Rows stay up to date for as long as no entry is added. -/
theorem Current.changes {d : Date} (h : s.Current d) (hc : Changes s t)
    (hledger : t.ledger = s.ledger) : t.Current d := by
  induction hc with
  | refl => exact h
  | @tail t u hst hc ih =>
    -- the ledger in between is no shorter than before, and no longer than after
    have hbefore := ledger_prefix_of_changes hst
    have hafter := hc.ledger_prefix
    rw [hledger] at hafter
    have hsame : t.ledger = s.ledger := (hbefore.eq_of_length_le hafter.length_le).symm
    exact (ih hsame).change hc (hledger.trans hsame.symm)

/-- The snapshot of a day was rebuilt, and nothing has been written to the ledger since; other
calls may have been made. -/
def RebuiltSince (s : StockState) (d : Date) : Prop :=
  ∃ (t : StockState) (later : List StockAction),
    s = t.run (.rebuildSnapshot d :: later) ∧ s.ledger = t.ledger

theorem RebuiltSince.current {d : Date} (h : s.RebuiltSince d) : s.Current d := by
  obtain ⟨t, later, hs, hledger⟩ := h
  have hrun : s = (t.rebuilt d).run later := hs
  subst hrun
  exact (t.current_rebuilt d).changes (changes_run _ _) hledger

/-- Rows that are up to date match the ledger up to an instant of their day that no entry lies
behind. -/
theorem Current.matching_rows (h : s.Current now.date)
    (hnow : ∀ e ∈ s.ledger, e.occurredAt ≤ now) (hlast : now.date ≠ .last) :
    matching (totals s.ledger (.atOrBefore now))
      ((s.rowsOf now.date).map (fun r => (r.key, r.onHand))) = (s.rowsOf now.date).length := by
  have hsame (k : StockKey) : (totals s.ledger (.atOrBefore now)).quantity k =
      (totals s.ledger (.ofDay now.date)).quantity k := by
    rw [quantity_totals_atOrBefore hnow, quantity_totals_ofDay hnow hlast]
  rw [h, map_snapshotRows, matching_eq_size hsame]
  exact (List.length_map _).symm

/-! ## The counts -/

/-- The counts of stock at an instant, with those of the entries from another one on. -/
def counts (s : StockState) (since now : Instant) : InsightCounts :=
  let ledger := totals s.ledger (.atOrBefore now)
  let gathered : InsightCounts :=
    { ledgerRows := s.ledger.length
      stockRows := s.slots.size
      stockMatching := matching ledger (s.slots.toList.map (fun b => (b.1, b.2.quantity)))
      snapshotRows := (s.rowsOf now.date).length
      snapshotMatching := matching ledger
        ((s.rowsOf now.date).map (fun r => (r.key, r.onHand)))
      recentLedgerRows := s.ledger.countP (fun e => decide (since ≤ e.occurredAt))
      outboundLedgerRows := s.ledger.countP (·.isOutbound) }
  gathered.withBatchRisk s.batches.values now.date

end StockState

/-- How the counts of the scores fit each other. -/
structure InsightCounts.Sane (c : InsightCounts) : Prop where
  slots : c.stockRows ≤ c.ledgerRows
  outbound : c.outboundLedgerRows ≤ c.ledgerRows
  recent : c.recentLedgerRows ≤ c.ledgerRows
  matchingSlots : c.stockMatching ≤ c.stockRows
  matchingRows : c.snapshotMatching ≤ c.snapshotRows
  risk : c.riskPoints ≤ 3 * c.batchesWithExpiry

theorem RiskLevel.pointsOf_le (daysLeft : Int) : RiskLevel.pointsOf daysLeft ≤ 3 := by
  unfold pointsOf
  cases ofDaysLeft daysLeft with
  | none => exact Nat.zero_le 3
  | some r => cases r <;> decide

theorem matching_le (ledger : Totals) (quantities : List (StockKey × Int)) :
    matching ledger quantities ≤ quantities.length := List.countP_le_length

theorem StockState.Attained.sane_counts {s : StockState} (h : s.Attained) (since now : Instant) :
    (s.counts since now).Sane where
  slots := h.size_slots_le
  outbound := List.countP_le_length
  recent := List.countP_le_length
  matchingSlots := by
    have hle := matching_le (totals s.ledger (.atOrBefore now))
      (s.slots.toList.map (fun b => (b.1, b.2.quantity)))
    rwa [List.length_map] at hle
  matchingRows := by
    have hle := matching_le (totals s.ledger (.atOrBefore now))
      ((s.rowsOf now.date).map (fun r => (r.key, r.onHand)))
    rwa [List.length_map] at hle
  risk := natSumOf_le RiskLevel.pointsOf_le _

namespace InsightCounts

/-- The shares that the scores are made of, as exact numbers; nothing counts as one in what they are
shares of. -/
def shares (c : InsightCounts) : List ℚ :=
  [(c.stockRows, c.ledgerRows), (c.stockMatching, c.stockRows),
    (c.snapshotMatching, c.snapshotRows), (c.riskPoints, c.batchesWithExpiry * 3),
    (c.outboundLedgerRows, c.ledgerRows)].map (fun (part, whole) => part / (max whole 1 : Nat))

theorem Sane.share_le {c : InsightCounts} (h : c.Sane) : ∀ q ∈ c.shares, q ≤ 1 := by
  have hshare {part whole : Nat} (hle : part ≤ whole) :
      (part : ℚ) / (max whole 1 : Nat) ≤ 1 := by
    refine div_le_one_of_le₀ (Nat.cast_le.mpr ?_) (Nat.cast_nonneg _)
    exact hle.trans (Nat.le_max_left _ _)
  have hrisk : c.riskPoints ≤ c.batchesWithExpiry * 3 := by
    have := h.risk
    omega
  simp only [shares, List.map_cons, List.map_nil, List.forall_mem_cons]
  exact ⟨hshare h.slots, hshare h.matchingSlots, hshare h.matchingRows, hshare hrisk,
    hshare h.outbound, nofun⟩

end InsightCounts

/-! ## Calls of an engine -/

/-- The counts are read from the stock, and nothing is changed. -/
theorem Engine.insightCounts_inMemory {τ : Type} (audit : AuditSink τ) (settings : EngineSettings)
    {now since : Instant} (hsince : now.add? (-Engine.activityWindow) = some since)
    (u : EngineState MemoryState τ) :
    ((Engine.inMemory audit settings).insightCounts now).runFrom u =
      (.ok (u.store.stock.counts since now), u) := by
  have hstats : ((Engine.inMemory audit settings).stock.ledgerStats since).runFrom u.store =
      (.ok ⟨u.store.stock.ledger.length, u.store.stock.ledger.countP (·.isOutbound),
        u.store.stock.ledger.countP (fun e => decide (since ≤ e.occurredAt))⟩, u.store) := rfl
  have htotals : ((Engine.inMemory audit settings).stock.totals (.atOrBefore now)).runFrom
      u.store = (.ok (totals u.store.stock.ledger (.atOrBefore now)), u.store) := rfl
  have hslots : (Engine.inMemory audit settings).stock.slots.runFrom u.store =
      (.ok (u.store.stock.slots.toList.map (fun b => ⟨b.1, b.2.quantity⟩)), u.store) := rfl
  have hrows : ((Engine.inMemory audit settings).stock.snapshot now.date).runFrom u.store =
      (.ok (u.store.stock.rowsOf now.date), u.store) := rfl
  have hbatches : (Engine.inMemory audit settings).stock.batches.runFrom u.store =
      (.ok u.store.stock.batches.values, u.store) := rfl
  rw [Engine.insightCounts, hsince]
  simp only [runFrom_bind_of_ok (runFrom_passing_of_ok hstats),
    runFrom_bind_of_ok (runFrom_watched_passing_of_ok htotals),
    runFrom_bind_of_ok (runFrom_passing_of_ok hslots),
    runFrom_bind_of_ok (runFrom_passing_of_ok hrows),
    runFrom_bind_of_ok (runFrom_passing_of_ok hbatches), List.map_map, List.length_map]
  rfl

/-- Take any stock there can be, at any instant that lies thirty days or more behind the first one.
If the totals of the ledger up to the instant have room after each entry, the engine answers with
the scores of its counts; if they do not, it stops. The counts fit each other: there are no more
slots, outbound entries or recent entries than entries, no more matching slots than slots, no more
matching rows than rows, and at most three points of risk for each batch that expires, so that no
share of which a score is made exceeds one. If no entry lies behind the instant, the totals have
room and all slots match; and if the snapshot of the day was rebuilt since the last entry was
written, all of its rows do, on any day but the last one there is. -/
theorem insights_sane {τ : Type} (audit : AuditSink τ) (settings : EngineSettings)
    {u : EngineState MemoryState τ} {now : Instant} (hs : u.store.stock.Reachable)
    (hnow : Instant.first.sinceEpoch + Engine.activityWindow ≤ now.sinceEpoch) :
    let engine := (Engine.inMemory audit settings).bounded
    let stock := u.store.stock
    ∃ since, now.add? (-Engine.activityWindow) = some since ∧
      let counts := stock.counts since now
      (TotalsFit stock.ledger (.atOrBefore now) →
        (engine.insightCounts now).runFrom u = (.ok counts, u) ∧
        (engine.insights now).runFrom u = (.ok (.compute counts), u)) ∧
      (¬ TotalsFit stock.ledger (.atOrBefore now) →
        (engine.insightCounts now).runFrom u = (.error .outOfRange, u) ∧
        (engine.insights now).runFrom u = (.error .outOfRange, u)) ∧
      counts.Sane ∧ (∀ q ∈ counts.shares, q ≤ 1) ∧
      ((∀ e ∈ stock.ledger, e.occurredAt ≤ now) →
        TotalsFit stock.ledger (.atOrBefore now) ∧
        counts.stockMatching = counts.stockRows ∧
        (now.date ≠ .last → stock.RebuiltSince now.date →
          counts.snapshotMatching = counts.snapshotRows)) := by
  obtain ⟨since, hsince⟩ := Instant.add?_activityWindow hnow
  have hcounts := Engine.insightCounts_stopsUnless audit settings u now
  rw [Engine.insightCounts_inMemory audit settings hsince u] at hcounts
  have hsane := hs.attained.sane_counts since now
  refine ⟨since, hsince, fun hfits => ?_, fun hnot => ?_, hsane, hsane.share_le, fun hall => ?_⟩
  · have hrun := hcounts.exact hfits
    refine ⟨hrun, ?_⟩
    rw [Engine.insights, runFrom_bind_of_ok hrun]
    rfl
  · exact ⟨hcounts.stops hnot, (Engine.insights_stopsUnless audit settings u now).stops hnot⟩
  · exact ⟨hs.attained.totalsFit fun e he => decide_eq_true (hall e he),
      hs.attained.matching_slots hall,
      fun hlast hrebuilt => hrebuilt.current.matching_rows hall hlast⟩

namespace Sample

/-- The snapshot of the tenth day is taken after the order. Then the expiry of batch B is put off
and the snapshot of an earlier day is taken, and neither writes to the ledger. -/
def surveyed : StockState :=
  shipped.run
    [.rebuildSnapshot soon, .correctExpiry ⟨10⟩ ⟨1⟩ "B" (some late), .rebuildSnapshot past]

/-- Thirty days before the tenth one. -/
def monthBefore : Instant := ⟨-21 * 86400, 0, by decide, by decide, .inl (by decide)⟩

/-- The engine over that stock. -/
def surveyedEngine : EngineState MemoryState Unit := .start ⟨surveyed, .empty⟩ ()

/-- A full batch is picked, on the tenth day, and then comes in once more; what came in again is
dated before the pick. -/
def swung : StockState :=
  (StockState.empty .epoch).run
    [.apply (delivery "A" 1 most), .apply { latePick with delta := -most },
      .apply (delivery "A" 2 most)]

/-- The engine over that stock. -/
def swungEngine : EngineState MemoryState Unit := .start ⟨swung, .empty⟩ ()

end Sample

open Sample in
/-- Four entries, all of them recent, and two of them outbound; both slots match, the empty one of
batch B as well, and so does the one row. Each batch expires in eleven days, which is two points. -/
theorem insights_sane_surveyed :
    surveyed.Reachable ∧
    Instant.first.sinceEpoch + Engine.activityWindow ≤ (midnight 9).sinceEpoch ∧
    (∀ e ∈ surveyed.ledger, e.occurredAt ≤ midnight 9) ∧ (midnight 9).date ≠ .last ∧
    surveyed.RebuiltSince (midnight 9).date ∧
    ∃ counts : InsightCounts,
      (quietEngine.bounded.insightCounts (midnight 9)).runFrom surveyedEngine =
        (.ok counts, surveyedEngine) ∧
      counts.ledgerRows = 4 ∧ counts.recentLedgerRows = 4 ∧ counts.outboundLedgerRows = 2 ∧
      counts.stockRows = 2 ∧ counts.stockMatching = counts.stockRows ∧
      counts.snapshotRows = 1 ∧ counts.snapshotMatching = counts.snapshotRows ∧
      counts.batchesWithExpiry = 2 ∧ counts.riskPoints = 4 ∧ (∀ q ∈ counts.shares, q ≤ 1) := by
  have hs : surveyed.Reachable := (reachable_stock.run _).run _
  have hnow : Instant.first.sinceEpoch + Engine.activityWindow ≤ (midnight 9).sinceEpoch := by
    decide
  have hall : ∀ e ∈ surveyed.ledger, e.occurredAt ≤ midnight 9 := by decide +kernel
  have hlast : (midnight 9).date ≠ .last := by decide
  have hrebuilt : surveyed.RebuiltSince (midnight 9).date :=
    ⟨shipped, _, rfl, by decide +kernel⟩
  obtain ⟨since, hsince, hcounts, -, -, hshares, hmatch⟩ :=
    insights_sane (.discard Unit) (.ofConfig {}) (u := surveyedEngine) hs hnow
  obtain ⟨hfits, hslots, hrows⟩ := hmatch hall
  have hback : (midnight 9).add? (-Engine.activityWindow) = some monthBefore := by decide +kernel
  obtain rfl : monthBefore = since := Option.some.inj (hback.symm.trans hsince)
  exact ⟨hs, hnow, hall, hlast, hrebuilt, _, (hcounts hfits).1, by decide +kernel,
    by decide +kernel, by decide +kernel, by decide +kernel, hslots, by decide +kernel,
    hrows hlast hrebuilt, by decide +kernel, by decide +kernel, hshares⟩

open Sample in
/-- A slot holds no more than it can, but the ledger up to the ninth day leaves out the pick between
two full receipts: its total has no room, and the engine cannot gather the counts. -/
theorem insights_run_over :
    swung.Reachable ∧ swung.quantity (key "A") = most ∧
    Instant.first.sinceEpoch + Engine.activityWindow ≤ (midnight 8).sinceEpoch ∧
    swung.ledgerAt (midnight 8) (key "A") = 18446744073709551614 ∧
    (quietEngine.bounded.insights (midnight 8)).runFrom swungEngine =
      (.error .outOfRange, swungEngine) := by
  have hfits : ¬ TotalsFit swung.ledger (.atOrBefore (midnight 8)) := by decide +kernel
  exact ⟨⟨_, _, rfl⟩, by decide +kernel, by decide, by decide +kernel,
    (Engine.insights_stopsUnless _ _ swungEngine _).stops hfits⟩

end Stockroom
