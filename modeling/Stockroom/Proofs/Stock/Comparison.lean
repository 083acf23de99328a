/-
Stockroom.Proofs.Stock.Comparison — what a comparison of ledger and slots shows, and what
changes it.

* `quantity_totals` and `quantity_slotTotals`: the two sides of the comparison are the sums of
  the entries inside the cut and the quantities of the slots.
* `drift` is what the first has more than the second. A comparison lists the keys where it is
  not zero (`mem_drifting`), and what is listed depends on nothing else (`drifting_congr`).
* A movement that is entered moves its slot by as much as it moves the sum of the entries, if
  it lies inside the cut, and only the slot otherwise (`drift_enter`). Movements inside the cut
  thus leave every drift as it is (`drift_run`).
-/
import Stockroom.Proofs.Stock.Balance
import Stockroom.Proofs.Stock.Ending
import Stockroom.Stock.Reconciliation

namespace Stockroom

open StoreM MemoryStock

/-! ## Totals -/

namespace Totals

theorem quantity_eq (m : Totals) (k : StockKey) : m.quantity k = (m.get? k).getD 0 := rfl

theorem quantity_of_mem {m : Totals} {k : StockKey} {q : Int} (h : (k, q) ∈ m.toList) :
    m.quantity k = q := by
  rw [quantity_eq, OrderedMap.mem_toList_iff.mp h]
  rfl

theorem quantity_add (m : Totals) (k j : StockKey) (delta : Int) :
    (m.add k delta).quantity j = m.quantity j + if k = j then delta else 0 := by
  rw [quantity_eq, quantity_eq, add, OrderedMap.get?_alter]
  split
  · rename_i hk
    rw [hk]
    rfl
  · exact (Int.add_zero _).symm

/-- To leave out the keys that come to zero makes no difference. -/
theorem quantity_filter_ne_zero (m : Totals) (k : StockKey) :
    quantity (m.filter (fun _ q => q != 0)) k = m.quantity k := by
  rw [quantity_eq, quantity_eq, OrderedMap.get?_filter]
  cases m.get? k with
  | none => rfl
  | some q =>
    by_cases hq : q = 0 <;> simp [Option.filter, hq]

theorem quantity_foldl_add (entries : List LedgerEntry) (m : Totals) (k : StockKey) :
    (entries.foldl (fun m e => m.add e.key e.delta) m).quantity k =
      m.quantity k + ledgerTotal k entries := by
  induction entries generalizing m with
  | nil => exact (Int.add_zero _).symm
  | cons e rest ih =>
    rw [List.foldl_cons, ih, quantity_add, ledgerTotal_cons]
    omega

end Totals

/-- The totals up to a cut are the sums of the entries inside it. -/
theorem quantity_totals (entries : List LedgerEntry) (cut : LedgerCut) (k : StockKey) :
    (totals entries cut).quantity k =
      ledgerTotal k (entries.filter (fun e => cut.includes e.occurredAt)) := by
  rw [totals, Totals.quantity_filter_ne_zero, Totals.quantity_foldl_add]
  exact Int.zero_add _

/-! ## Keys on which two sides differ -/

section Sides

variable {left right left' right' : Totals} {k : StockKey}

/-- The keys on which two sides differ, ascending. -/
def differing (left right : Totals) : List StockKey :=
  (eitherKeys left right).filter (fun k => left.quantity k != right.quantity k)

theorem mismatches_eq (kind : MismatchKind) (left right : Totals) :
    mismatches kind left right = (differing left right).map (fun k =>
      ⟨kind, k, left.quantity k, right.quantity k, left.quantity k - right.quantity k⟩) := by
  unfold mismatches differing
  induction eitherKeys left right with
  | nil => rfl
  | cons k rest ih =>
    by_cases hk : left.quantity k = right.quantity k
    · simpa [hk] using ih
    · simpa [hk] using ih

/-- A key that either side has is listed. -/
theorem mem_eitherKeys :
    k ∈ eitherKeys left right ↔ k ∈ left.keys ∨ k ∈ right.keys := by
  rw [eitherKeys, OrderedMap.mem_keys_iff, OrderedMap.isSome_get?_ofList, List.map_map,
    ← List.mem_append]
  exact Iff.of_eq (congrArg _ (List.map_id _))

/-- A key differs wherever its quantities do: one that neither side has is zero on both. -/
theorem mem_differing : k ∈ differing left right ↔ left.quantity k ≠ right.quantity k := by
  rw [differing, List.mem_filter, bne_iff_ne, mem_eitherKeys]
  have hzero {m : Totals} (hm : k ∉ m.keys) : m.quantity k = 0 := by
    rw [OrderedMap.mem_keys_iff, Bool.not_eq_true, Option.isSome_eq_false_iff,
      Option.isNone_iff_eq_none] at hm
    rw [Totals.quantity_eq, hm]
    rfl
  refine ⟨And.right, fun hne => ⟨Decidable.byContradiction fun hout => hne ?_, hne⟩⟩
  rw [not_or] at hout
  exact (hzero hout.1).trans (hzero hout.2).symm

/-- Which keys are listed depends only on where the sides differ. -/
theorem differing_congr
    (h : ∀ k, left.quantity k = right.quantity k ↔ left'.quantity k = right'.quantity k) :
    differing left right = differing left' right' := by
  have hsorted (l r : Totals) : (differing l r).Pairwise (fun a b => compare a b = .lt) :=
    (OrderedMap.pairwise_keys _).filter _
  refine OrderedMap.eq_of_pairwise_keys (hsorted ..) (hsorted ..) fun k => ?_
  rw [mem_differing, mem_differing]
  exact not_congr (h k)

end Sides

/-! ## Ledger and slots -/

namespace StockState

variable {s t : StockState} {cut : Instant} {k : StockKey}

/-- The quantities of the slots, as a comparison takes them. -/
def slotTotals (s : StockState) : Totals :=
  .ofList (s.slots.toList.map (fun b => (b.1, b.2.quantity)))

theorem quantity_slotTotals (s : StockState) (k : StockKey) :
    s.slotTotals.quantity k = s.quantity k := by
  have hget : s.slotTotals.get? k = (s.slots.get? k).map (·.quantity) := by
    have hnodup : ((s.slots.toList.map (fun b => (b.1, b.2.quantity))).map (·.1)).Nodup := by
      rw [List.map_map]
      exact s.slots.nodup_keys
    ext q
    rw [slotTotals, OrderedMap.get?_ofList_eq_some_iff hnodup, List.mem_map,
      Option.map_eq_some_iff]
    constructor
    · rintro ⟨⟨j, slot⟩, hmem, heq⟩
      cases heq
      exact ⟨slot, OrderedMap.mem_toList_iff.mp hmem, rfl⟩
    · rintro ⟨slot, hslot, rfl⟩
      exact ⟨(k, slot), OrderedMap.mem_toList_iff.mpr hslot, rfl⟩
  rw [Totals.quantity_eq, hget, quantity]

/-- The sum of the entries of a key up to a cut. -/
def ledgerAt (s : StockState) (cut : Instant) (k : StockKey) : Int :=
  (totals s.ledger (.atOrBefore cut)).quantity k

/-- What the ledger up to a cut has more than the slot of a key. -/
def drift (s : StockState) (cut : Instant) (k : StockKey) : Int := s.ledgerAt cut k - s.quantity k

/-- The keys whose slot differs from the ledger up to a cut, ascending. -/
def drifting (s : StockState) (cut : Instant) : List StockKey :=
  differing (totals s.ledger (.atOrBefore cut)) s.slotTotals

theorem mem_drifting : k ∈ s.drifting cut ↔ s.drift cut k ≠ 0 := by
  rw [drifting, mem_differing, quantity_slotTotals, drift, ledgerAt]
  omega

theorem nodup_drifting (s : StockState) (cut : Instant) : (s.drifting cut).Nodup :=
  (OrderedMap.nodup_keys _).filter _

theorem drifting_congr (h : ∀ k, t.drift cut k = s.drift cut k) :
    t.drifting cut = s.drifting cut := by
  refine differing_congr fun k => ?_
  have hk := h k
  simp only [drift, ledgerAt] at hk
  rw [quantity_slotTotals, quantity_slotTotals]
  omega

/-! ## What changes a drift -/

theorem drift_congr (hs : t.slots = s.slots) (hl : t.ledger = s.ledger) (k : StockKey) :
    t.drift cut k = s.drift cut k := by
  rw [drift, drift, ledgerAt, ledgerAt, hl, quantity, quantity, hs]

theorem ledgerAt_enter (s : StockState) (m : Movement) (after : Int) (cut : Instant)
    (k : StockKey) :
    (s.enter m after).ledgerAt cut k =
      s.ledgerAt cut k + if m.key = k ∧ m.occurredAt ≤ cut then m.delta else 0 := by
  have hat : (LedgerCut.atOrBefore cut).includes (s.entryFor m after).occurredAt =
      decide (m.occurredAt ≤ cut) := rfl
  rw [ledgerAt, ledgerAt, quantity_totals, quantity_totals, ledger_enter, List.filter_append,
    ledgerTotal_append, List.filter_cons, List.filter_nil, hat]
  by_cases hcut : m.occurredAt ≤ cut
  · simp only [hcut, decide_true, if_true, and_true, ledgerTotal_cons]
    exact congrArg _ (Int.add_zero _)
  · simp only [hcut, decide_false, Bool.false_eq_true, if_false, and_false]
    rfl

/-- A movement that is entered moves its slot, and with it the sum up to the cut if it lies
inside. -/
theorem drift_enter {m : Movement} {after : Int} (h : s.Admits m after) (cut : Instant)
    (k : StockKey) :
    (s.enter m after).drift cut k =
      s.drift cut k - if m.key = k ∧ ¬ m.occurredAt ≤ cut then m.delta else 0 := by
  obtain ⟨rfl, -, -⟩ := quantityAfter_eq_ok_iff.mp h.fits
  rw [drift, drift, ledgerAt_enter, quantity_enter]
  by_cases hk : m.key = k
  · subst hk
    by_cases hcut : m.occurredAt ≤ cut
    · simp only [hcut, not_true_eq_false, and_true, and_false, if_true, if_false]
      omega
    · simp only [hcut, not_false_eq_true, and_true, and_false, if_true, if_false]
      omega
  · simp only [hk, false_and, if_false]
    omega

/-- A movement inside the cut, written or not, leaves every drift as it is. -/
theorem drift_apply (s : StockState) {m : Movement} (hm : m.occurredAt ≤ cut) (k : StockKey) :
    ((StockAction.apply m).step.runFrom s).2.drift cut k = s.drift cut k := by
  have hend := ending_apply m s
  generalize (StockAction.apply m).step.runFrom s = out at hend
  cases hend with
  | refused e => rfl
  | kept slots ledger => exact drift_congr slots ledger k
  | @entered _ t after readied admitted =>
    have hready : t.drift cut k = s.drift cut k := by
      rcases readied with rfl | ⟨b, -, -, -, rfl⟩
      · rfl
      · exact drift_congr rfl rfl k
    show (t.enter m after).drift cut k = _
    rw [drift_enter admitted, if_neg fun hout => hout.2 hm, hready]
    exact Int.sub_zero _

/-- So do any number of them. -/
theorem drift_run (s : StockState) {ms : List Movement} (hms : ∀ m ∈ ms, m.occurredAt ≤ cut)
    (k : StockKey) : (s.run (ms.map .apply)).drift cut k = s.drift cut k := by
  induction ms generalizing s with
  | nil => rfl
  | cons m rest ih =>
    obtain ⟨hm, hrest⟩ := List.forall_mem_cons.mp hms
    rw [List.map_cons, run_cons, ih _ hrest, s.drift_apply hm]

/-! ## Corrections -/

/-- What is suggested for a key. -/
def correction (s : StockState) (cut : Instant) (k : StockKey) : HealSuggestion :=
  ⟨k, s.ledgerAt cut k, s.quantity k, s.drift cut k,
    if 0 < s.drift cut k then .increase else .decrease⟩

/-- The ledger up to a cut, the slots and the snapshot of the day, compared. -/
def comparison (s : StockState) (cut : Instant) : ReconciliationReport :=
  reconcile cut (totals s.ledger (.atOrBefore cut)) s.slotTotals
    (.ofList ((s.snapshots.getD cut.date []).map (fun r => (r.key, r.onHand))))

/-- All that is suggested at a cut. -/
def corrections (s : StockState) (cut : Instant) : List HealSuggestion :=
  suggestHeal (s.comparison cut)

/-- There is one correction for each key that drifts. -/
theorem corrections_eq (s : StockState) (cut : Instant) :
    s.corrections cut = (s.drifting cut).map (s.correction cut) := by
  rw [corrections, suggestHeal, comparison, reconcile, mismatches_eq, List.map_map]
  refine List.map_congr_left fun k _ => ?_
  simp only [Function.comp_apply, quantity_slotTotals]
  rfl

end StockState

end Stockroom
