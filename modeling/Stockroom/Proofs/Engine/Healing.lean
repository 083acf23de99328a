/-
Stockroom.Proofs.Engine.Healing — booking what the engine suggests does not heal.

A correction is meant to bring a slot back to its ledger. Booked as a movement it moves the slot,
and it also becomes a ledger entry, by the same amount.

* `Books` says that movements book corrections as they are meant to be: one adjustment each, by
  what is suggested, under a new line. `quantity_run_booked` is what that does to the slots.
* `Engine.afterAll` is what calls leave of an engine. Over memory, `Engine.stock_afterAll` says
  what becomes of its stock, and `Engine.suggest_inMemory` what it suggests.
* `healing_in_vain` puts both together with the drifts of `Proofs.Stock.Comparison`: whatever is
  booked inside the cut, the same corrections are suggested again.
-/
import Stockroom.Engine.Memory
import Stockroom.Proofs.Engine.Step
import Stockroom.Proofs.Stock.Comparison

namespace Stockroom

open EngineM MemoryStock
open IntegerRange (signed64)

/-! ## Booking corrections -/

/-- How a movement books a correction: an adjustment by what is suggested, which may leave the
slot below zero. -/
structure HealSuggestion.BookedBy (h : HealSuggestion) (m : Movement) : Prop where
  key : m.key = h.key
  delta : m.delta = h.adjustment
  reason : m.reason = .adjustment
  valid : m.check = .ok ()
  negative : m.allowNegative = true
  undated : m.production = none ∧ m.expiry = none

/-- The correction as it is suggested once it has been booked: both sides have moved. -/
def HealSuggestion.booked (h : HealSuggestion) : HealSuggestion :=
  { h with ledger := h.ledger + h.adjustment, stock := h.stock + h.adjustment }

/-- How movements book corrections of the stock `s`: one each, under lines that are new and
different from each other. What a slot comes to fits into 64 bits. -/
structure Books (s : StockState) (hs : List HealSuggestion) (ms : List Movement) : Prop where
  booked : List.Forall₂ HealSuggestion.BookedBy hs ms
  fresh : ∀ m ∈ ms, s.index.contains m.documentLine = false
  apart : (ms.map (·.documentLine)).Nodup
  fits : ∀ h ∈ hs, signed64.contains (s.quantity h.key + h.adjustment) = true

namespace StockState

variable {s : StockState} {cut : Instant} {hs : List HealSuggestion} {ms : List Movement}

/-- A correction that is booked under a new line is entered. -/
theorem exists_enter_of_bookedBy {h : HealSuggestion} {m : Movement} (hm : h.BookedBy m)
    (fresh : s.index.contains m.documentLine = false) (moves : h.adjustment ≠ 0)
    (fits : signed64.contains (s.quantity h.key + h.adjustment) = true) :
    ∃ t, Readied s m.key t ∧
      ((StockAction.apply m).step.runFrom s).2 = t.enter m (s.quantity h.key + h.adjustment) := by
  have hq : quantityAfter (s.quantity m.key) m = .ok (s.quantity h.key + h.adjustment) := by
    rw [quantityAfter_eq_ok_iff, hm.key, hm.delta]
    exact ⟨rfl, fits, fun _ => hm.negative⟩
  have hline : s.entryAt? m.documentLine = none := by
    rw [entryAt?, Option.isNone_iff_eq_none.mp (Option.isSome_eq_false_iff.mp fresh)]
    rfl
  rcases write_fits hm.valid hline (hm.delta ▸ moves) hq with ⟨e, hdates, -⟩ | ⟨t, ht, -, hrun⟩
  · -- without dates there is nothing to refuse
    rw [hm.undated.1, hm.undated.2] at hdates
    cases hdates
  · refine ⟨t, ht, ?_⟩
    simp only [StockAction.step, store, apply, StoreM.runFrom_bind, hrun, StoreM.runFrom_pure]

/-- A booked correction moves its slot by what is suggested, and takes its line. -/
theorem apply_booked {h : HealSuggestion} {m : Movement} (hm : h.BookedBy m)
    (fresh : s.index.contains m.documentLine = false) (moves : h.adjustment ≠ 0)
    (fits : signed64.contains (s.quantity h.key + h.adjustment) = true) :
    (∀ k, ((StockAction.apply m).step.runFrom s).2.quantity k =
      if h.key = k then s.quantity k + h.adjustment else s.quantity k) ∧
    ∀ l, ((StockAction.apply m).step.runFrom s).2.index.contains l =
      (decide (m.documentLine = l) || s.index.contains l) := by
  obtain ⟨t, ht, hstep⟩ := exists_enter_of_bookedBy hm fresh moves fits
  have hready : t.index = s.index ∧ ∀ k, t.quantity k = s.quantity k := by
    rcases ht with rfl | ⟨b, -, -, -, rfl⟩
    · exact ⟨rfl, fun _ => rfl⟩
    · exact ⟨rfl, fun _ => rfl⟩
  rw [hstep]
  constructor
  · intro k
    rw [quantity_enter, hm.key, hready.2]
    split
    · rename_i hk
      rw [hk]
    · rfl
  · intro l
    rw [index_enter, hready.1, OrderedMap.contains_insert]

/-- Booked corrections of different keys each move their own slot, and no other one. -/
theorem quantity_run_booked (hb : List.Forall₂ HealSuggestion.BookedBy hs ms)
    (fresh : ∀ m ∈ ms, s.index.contains m.documentLine = false)
    (apart : (ms.map (·.documentLine)).Nodup) (keys : (hs.map (·.key)).Nodup)
    (moves : ∀ h ∈ hs, h.adjustment ≠ 0)
    (fits : ∀ h ∈ hs, signed64.contains (s.quantity h.key + h.adjustment) = true) :
    (∀ h ∈ hs, (s.run (ms.map .apply)).quantity h.key = s.quantity h.key + h.adjustment) ∧
    ∀ k, k ∉ hs.map (·.key) → (s.run (ms.map .apply)).quantity k = s.quantity k := by
  induction hb generalizing s with
  | nil => exact ⟨fun h hh => absurd hh List.not_mem_nil, fun k _ => rfl⟩
  | @cons h m hs ms hm hb ih =>
    obtain ⟨hfresh, fresh⟩ := List.forall_mem_cons.mp fresh
    obtain ⟨hmoves, moves⟩ := List.forall_mem_cons.mp moves
    obtain ⟨hfits, fits⟩ := List.forall_mem_cons.mp fits
    obtain ⟨hapart, apart⟩ := List.nodup_cons.mp apart
    obtain ⟨hkey, keys⟩ := List.nodup_cons.mp keys
    obtain ⟨hquantity, hindex⟩ := apply_booked hm hfresh hmoves hfits
    -- the others find their lines as new, and their slots as full, as they were before
    have hother : ∀ h' ∈ hs, h.key ≠ h'.key := fun h' hh' heq =>
      hkey (List.mem_map.mpr ⟨h', hh', heq.symm⟩)
    have hlines : ∀ m' ∈ ms, m.documentLine ≠ m'.documentLine := fun m' hm' heq =>
      hapart (List.mem_map.mpr ⟨m', hm', heq.symm⟩)
    obtain ⟨hin, hout⟩ := ih (s := ((StockAction.apply m).step.runFrom s).2)
      (fun m' hm' => by rw [hindex, fresh m' hm', decide_eq_false (hlines m' hm')]; rfl)
      apart keys moves
      (fun h' hh' => by rw [hquantity, if_neg (hother h' hh')]; exact fits h' hh')
    rw [List.map_cons, run_cons]
    constructor
    · intro h' hh'
      rcases List.mem_cons.mp hh' with rfl | hh'
      · rw [hout _ hkey, hquantity, if_pos rfl]
      · rw [hin h' hh', hquantity, if_neg (hother h' hh')]
    · intro k hk
      rw [List.map_cons, List.mem_cons, not_or] at hk
      obtain ⟨hne, hk⟩ := hk
      rw [hout k hk, hquantity, if_neg (Ne.symm hne)]

/-- Whatever is booked inside the cut, the same keys are to be corrected, by the same amounts. -/
theorem corrections_run (hms : ∀ m ∈ ms, m.occurredAt ≤ cut) :
    (s.run (ms.map .apply)).corrections cut =
      (s.drifting cut).map ((s.run (ms.map .apply)).correction cut) := by
  rw [corrections_eq, drifting_congr (s.drift_run hms)]

/-- Once all corrections are booked inside the cut, all are suggested once more. -/
theorem corrections_booked (hms : ∀ m ∈ ms, m.occurredAt ≤ cut)
    (hbooks : Books s (s.corrections cut) ms) :
    (s.run (ms.map .apply)).corrections cut = (s.corrections cut).map (·.booked) := by
  rw [corrections_run hms, corrections_eq, List.map_map]
  have hkeys : ((s.corrections cut).map (·.key)).Nodup := by
    rw [corrections_eq, List.map_map]
    exact (List.map_id _).symm ▸ s.nodup_drifting cut
  have hmoves : ∀ h ∈ s.corrections cut, h.adjustment ≠ 0 := by
    intro h hh
    rw [corrections_eq] at hh
    obtain ⟨k, hk, rfl⟩ := List.mem_map.mp hh
    exact mem_drifting.mp hk
  obtain ⟨hquantity, -⟩ := quantity_run_booked hbooks.booked hbooks.fresh hbooks.apart hkeys
    hmoves hbooks.fits
  refine List.map_congr_left fun k hk => ?_
  have hslot : (s.run (ms.map .apply)).quantity k = s.quantity k + s.drift cut k :=
    hquantity (s.correction cut k) (corrections_eq s cut ▸ List.mem_map_of_mem hk)
  have hdrift := s.drift_run hms k
  have hledger : (s.run (ms.map .apply)).ledgerAt cut k = s.ledgerAt cut k + s.drift cut k := by
    unfold drift at hdrift hslot ⊢
    omega
  simp only [Function.comp_apply, correction, HealSuggestion.booked, hslot, hdrift, hledger]

end StockState

/-! ## Calls of an engine over memory -/

namespace Engine

/-- What calls leave that write movements down one after another, those that fail included. -/
def afterAll {σ τ : Type} (engine : Engine σ τ) (ms : List Movement) (u : EngineState σ τ) :
    EngineState σ τ :=
  ms.foldl (fun u m => ((engine.apply m).runFrom u).2) u

theorem afterAll_cons {σ τ : Type} (engine : Engine σ τ) (m : Movement) (rest : List Movement)
    (u : EngineState σ τ) :
    engine.afterAll (m :: rest) u = engine.afterAll rest ((engine.apply m).runFrom u).2 := rfl

variable {τ : Type} (audit : AuditSink τ) (settings : EngineSettings)

theorem keeps_checkCommitted (operation reference : String) (effects : List CommitEffect) :
    Keeps ((inMemory audit settings).checkCommitted operation reference effects) := by
  unfold checkCommitted
  split
  · refine Keeps.tryCatch ?_ fun _ => keeps_pure ()
    refine Keeps.bind ?_ fun check => ?_
    · exact (keeps_passing fun _ => rfl).bind fun _ =>
        (keeps_passing fun _ => rfl).bind fun _ => keeps_pure _
    · split
      · exact keeps_pure ()
      · exact (tells_count _ _).keeps
  · exact keeps_pure ()

/-- A movement written down through the engine is written down in its stock. -/
theorem store_apply (m : Movement) (u : EngineState MemoryState τ) :
    (((inMemory audit settings).apply m).runFrom u).2.store =
      { u.store with stock := ((StockAction.apply m).step.runFrom u.store.stock).2 } := by
  have hstock : (inMemory audit settings).stock.apply m =
      StoreM.onPart (·.stock) (fun s stock => { s with stock }) (MemoryStock.store.apply m) := rfl
  unfold apply
  rw [store_bind, store_watched_passing, hstock, StoreM.runFrom_onPart, StockAction.step,
    StoreM.runFrom_forget_snd]
  -- what follows the movement publishes, counts and checks
  intro o
  dsimp only
  split
  · exact (keeps_publish _ _ _).bind fun _ => (tells_count _ _).keeps.bind fun _ =>
      (keeps_checkCommitted audit settings _ _ _).bind fun _ => keeps_pure _
  · exact keeps_pure _

theorem stock_afterAll (ms : List Movement) (u : EngineState MemoryState τ) :
    ((inMemory audit settings).afterAll ms u).store.stock =
      u.store.stock.run (ms.map .apply) := by
  induction ms generalizing u with
  | nil => rfl
  | cons m rest ih =>
    rw [afterAll_cons, ih, store_apply, List.map_cons, StockState.run_cons]

/-- A comparison reads the stock and changes nothing. -/
theorem detect_inMemory (cut : Instant) (u : EngineState MemoryState τ) :
    ((inMemory audit settings).detect cut).runFrom u =
      (.ok (u.store.stock.comparison cut), u) := by
  have htotals : ((inMemory audit settings).stock.totals (.atOrBefore cut)).runFrom u.store =
      (.ok (totals u.store.stock.ledger (.atOrBefore cut)), u.store) := rfl
  have hslots : (inMemory audit settings).stock.slots.runFrom u.store =
      (.ok (u.store.stock.slots.toList.map (fun b => ⟨b.1, b.2.quantity⟩)), u.store) := rfl
  have hrows : ((inMemory audit settings).stock.snapshot cut.date).runFrom u.store =
      (.ok (u.store.stock.snapshots.getD cut.date []), u.store) := rfl
  refine runFrom_watched_of_ok ?_
  rw [runFrom_bind_of_ok (runFrom_watched_passing_of_ok htotals),
    runFrom_bind_of_ok (runFrom_passing_of_ok hslots),
    runFrom_bind_of_ok (runFrom_passing_of_ok hrows), List.map_map]
  rfl

theorem suggest_inMemory (cut : Instant) (u : EngineState MemoryState τ) :
    ((inMemory audit settings).suggest cut).runFrom u =
      (.ok (u.store.stock.corrections cut), u) := by
  rw [suggest, runFrom_bind_of_ok (detect_inMemory audit settings cut u)]
  rfl

end Engine

/-! ## In vain -/

/-- What a correction asks for: the change of a key, and its direction. -/
def HealSuggestion.request (h : HealSuggestion) : StockKey × Int × HealDirection :=
  (h.key, h.adjustment, h.direction)

/-- Whatever movements inside the cut are written down through the engine, and whether they
succeed or fail: before and after them the engine suggests the same changes of the same keys. If
they book the very corrections that are suggested, each is suggested once more, its ledger and
its slot both moved by the amount of the correction. -/
theorem healing_in_vain {τ : Type} (audit : AuditSink τ) (settings : EngineSettings)
    (u : EngineState MemoryState τ) {cut : Instant} {ms : List Movement}
    (inside : ∀ m ∈ ms, m.occurredAt ≤ cut) :
    let engine := Engine.inMemory audit settings
    let v := engine.afterAll ms u
    ∃ before after,
      (engine.suggest cut).runFrom u = (.ok before, u) ∧
      (engine.suggest cut).runFrom v = (.ok after, v) ∧
      after.map (·.request) = before.map (·.request) ∧
      (Books u.store.stock before ms → after = before.map (·.booked)) := by
  have hstock := Engine.stock_afterAll audit settings ms u
  refine ⟨_, _, Engine.suggest_inMemory .., Engine.suggest_inMemory .., ?_, fun hbooks => ?_⟩
  · rw [hstock, StockState.corrections_run inside, StockState.corrections_eq, List.map_map,
      List.map_map]
    refine List.map_congr_left fun k _ => ?_
    simp only [Function.comp_apply, HealSuggestion.request, StockState.correction,
      StockState.drift_run _ inside]
  · rw [hstock, StockState.corrections_booked inside hbooks]

namespace Sample

/-- An engine that publishes nothing. -/
def quietEngine : Engine MemoryState Unit := .inMemory (.discard Unit) (.ofConfig {})

/-- The engine after the late pick. -/
def picked : EngineState MemoryState Unit := .start ⟨stock.run [.apply latePick], .empty⟩ ()

/-- What is suggested as of the sixth day: the pick has left the slot, and does not count. -/
def suggested : HealSuggestion := ⟨key "A", 5, 3, 2, .increase⟩

theorem books_adjustment : Books picked.store.stock [suggested] [adjustment] where
  booked := .cons ⟨rfl, rfl, rfl, by rfl, rfl, rfl, rfl⟩ .nil
  fresh := by decide +kernel
  apart := by decide
  fits := by decide +kernel

theorem suggest_picked :
    (quietEngine.suggest (midnight 5)).runFrom picked = (.ok [suggested], picked) := by
  have hcorrections : picked.store.stock.corrections (midnight 5) = [suggested] := by
    decide +kernel
  rw [quietEngine, Engine.suggest_inMemory, hcorrections]

end Sample

open Sample in
/-- The correction of batch A is booked, and suggested again: the ledger shows seven, and the slot
five. -/
theorem healing_in_vain_picked :
    (quietEngine.suggest (midnight 5)).runFrom picked = (.ok [suggested], picked) ∧
    Books picked.store.stock [suggested] [adjustment] ∧
    (quietEngine.suggest (midnight 5)).runFrom (quietEngine.afterAll [adjustment] picked) =
      (.ok [⟨key "A", 7, 5, 2, .increase⟩], quietEngine.afterAll [adjustment] picked) := by
  refine ⟨suggest_picked, books_adjustment, ?_⟩
  have inside : ∀ m ∈ [adjustment], m.occurredAt ≤ midnight 5 := by decide
  obtain ⟨before, after, hbefore, hafter, -, hbooked⟩ :=
    healing_in_vain (.discard Unit) (.ofConfig {}) picked inside
  obtain rfl : before = [suggested] := by
    have h := hbefore.symm.trans suggest_picked
    simpa using h
  rw [hbooked books_adjustment] at hafter
  exact hafter

open Sample in
/-- It is not so that no correction is left once all have been booked inside the cut. -/
theorem healing_leaves_suggestions :
    ¬ ∀ (u : EngineState MemoryState Unit) (cut : Instant) (hs : List HealSuggestion)
        (ms : List Movement), (∀ m ∈ ms, m.occurredAt ≤ cut) →
        (quietEngine.suggest cut).runFrom u = (.ok hs, u) → Books u.store.stock hs ms →
        ((quietEngine.suggest cut).runFrom (quietEngine.afterAll ms u)).1 = .ok [] := by
  intro hheals
  have hnone := hheals picked (midnight 5) [suggested] [adjustment] (by decide) suggest_picked
    books_adjustment
  have hstock : (quietEngine.afterAll [adjustment] picked).store.stock =
      picked.store.stock.run [.apply adjustment] := Engine.stock_afterAll ..
  have hsome : (picked.store.stock.run [.apply adjustment]).corrections (midnight 5) =
      [suggested.booked] := by decide +kernel
  rw [quietEngine, Engine.suggest_inMemory, ← quietEngine, hstock, hsome] at hnone
  cases hnone

end Stockroom
