/-
Stockroom.Proofs.Stock.Mismatches — three comparisons of the same quantities fit together.

* `Exact` says what a list of mismatches must be for two sides: it has the keys on which they
  differ and no others. `mismatches` gives such a list (`exact_mismatches`), and whatever list is
  exact shows for each key by how much the sides differ (`Exact.listedDiff_eq`).
* So what three lists show for one key are the three differences of three numbers: two of them add
  up to the third, and none of them is the only one that is not zero.
* The matching keys of the stock are counted on another way. Those that are not counted are the
  listed ones (`matching_add_listed`), also where one side lacks the key or has an explicit zero.
-/
import Stockroom.Proofs.Stock.Comparison

namespace Stockroom

variable {kind : MismatchKind} {left right : Totals} {ms : List Mismatch} {k : StockKey}

/-! ## Lists of mismatches -/

/-- The list of where two sides differ: it has each key on which they do, once and in the order of
the keys, with the quantities of both and what the left one has more. -/
structure Exact (kind : MismatchKind) (left right : Totals) (ms : List Mismatch) : Prop where
  ascending : ms.Pairwise (fun a b => compare a.key b.key = .lt)
  listed : ∀ k, (∃ m ∈ ms, m.key = k) ↔ left.quantity k ≠ right.quantity k
  shown : ∀ m ∈ ms, m.kind = kind ∧ m.left = left.quantity m.key ∧
    m.right = right.quantity m.key ∧ m.diff = m.left - m.right

theorem exact_mismatches (kind : MismatchKind) (left right : Totals) :
    Exact kind left right (mismatches kind left right) := by
  rw [mismatches_eq]
  refine ⟨?_, fun k => ?_, fun m hm => ?_⟩
  · exact List.pairwise_map.mpr ((OrderedMap.pairwise_keys _).filter _)
  · rw [← mem_differing]
    constructor
    · rintro ⟨m, hm, rfl⟩
      obtain ⟨j, hj, rfl⟩ := List.mem_map.mp hm
      exact hj
    · intro hk
      exact ⟨_, List.mem_map_of_mem hk, rfl⟩
  · obtain ⟨j, -, rfl⟩ := List.mem_map.mp hm
    exact ⟨rfl, rfl, rfl, rfl⟩

/-- Whether a key is in a list. -/
def isListed (ms : List Mismatch) (k : StockKey) : Bool := ms.any (fun m => m.key == k)

/-- What the left side has more of a key according to a list; nothing if the key is not in it. -/
def listedDiff (ms : List Mismatch) (k : StockKey) : Int :=
  ((ms.find? (fun m => m.key == k)).map (·.diff)).getD 0

namespace Exact

theorem isListed_iff (h : Exact kind left right ms) :
    isListed ms k = true ↔ left.quantity k ≠ right.quantity k := by
  rw [← h.listed, isListed, List.any_eq_true]
  simp only [beq_iff_eq]

/-- An exact list shows the difference of every key, listed or not. -/
theorem listedDiff_eq (h : Exact kind left right ms) (k : StockKey) :
    listedDiff ms k = left.quantity k - right.quantity k := by
  unfold listedDiff
  cases hfind : ms.find? (fun m => m.key == k) with
  | none =>
    have hout : ¬ ∃ m ∈ ms, m.key = k := by
      rintro ⟨m, hm, hkey⟩
      exact List.find?_eq_none.mp hfind m hm (beq_iff_eq.mpr hkey)
    rw [h.listed, ne_eq, not_not] at hout
    rw [hout, Int.sub_self]
    rfl
  | some m =>
    obtain ⟨-, hleft, hright, hdiff⟩ := h.shown m (List.mem_of_find?_eq_some hfind)
    have hkey : m.key = k := by simpa using List.find?_some hfind
    rw [Option.map_some, Option.getD_some, hdiff, hleft, hright, hkey]

end Exact

/-! ## Counting on the side of the stock -/

/-- The keys of the stock match the ledger or are listed. -/
theorem matching_add_listed {ledger stock : Totals} (h : Exact kind ledger stock ms) :
    matching ledger stock.toList + stock.keys.countP (isListed ms) = stock.size := by
  have hunlisted : ∀ b ∈ stock.toList,
      (isListed ms b.1 = true ↔ ¬ (ledger.quantity b.1 == b.2) = true) := by
    rintro ⟨k, q⟩ hb
    rw [h.isListed_iff, Totals.quantity_of_mem hb, beq_iff_eq]
  have hcount : stock.keys.countP (isListed ms) =
      stock.toList.countP (fun b => decide (¬ (ledger.quantity b.1 == b.2) = true)) := by
    rw [OrderedMap.keys, List.countP_map]
    refine List.countP_congr fun b hb => ?_
    rw [decide_eq_true_iff]
    exact hunlisted b hb
  rw [hcount, matching, OrderedMap.size]
  exact (List.length_eq_countP_add_countP _).symm

/-! ## Corrections -/

/-- A correction that restores its slot: it adds what is missing, or takes what is too much. -/
structure HealSuggestion.Restores (h : HealSuggestion) : Prop where
  moves : h.adjustment ≠ 0
  increases : h.direction = .increase ↔ 0 < h.adjustment
  decreases : h.direction = .decrease ↔ h.adjustment < 0
  restored : h.stock + h.adjustment = h.ledger

theorem restores_ofMismatch {m : Mismatch} (hdiff : m.diff = m.left - m.right)
    (hne : m.left ≠ m.right) : (HealSuggestion.ofMismatch m).Restores := by
  refine ⟨?_, ?_, ?_, ?_⟩
  · show m.diff ≠ 0
    omega
  · show (if 0 < m.diff then HealDirection.increase else .decrease) = .increase ↔ 0 < m.diff
    by_cases h : 0 < m.diff
    · simp [h]
    · simp [h]
  · show (if 0 < m.diff then HealDirection.increase else .decrease) = .decrease ↔ m.diff < 0
    by_cases h : 0 < m.diff
    · rw [if_pos h]
      exact iff_of_false nofun (by omega)
    · rw [if_neg h]
      exact iff_of_true rfl (by omega)
  · show m.right + m.diff = m.left
    omega

/-- The corrections for a report are those of the keys that are listed between ledger and stock,
and each of them restores its slot. -/
theorem corrects_suggestHeal {r : ReconciliationReport} {ledger stock : Totals}
    (h : Exact kind ledger stock r.ledgerVsStock) :
    (suggestHeal r).map (·.key) = r.ledgerVsStock.map (·.key) ∧
    ∀ c ∈ suggestHeal r, c.Restores ∧ c.ledger = ledger.quantity c.key ∧
      c.stock = stock.quantity c.key := by
  refine ⟨List.map_map, fun c hc => ?_⟩
  obtain ⟨m, hm, rfl⟩ := List.mem_map.mp hc
  obtain ⟨-, hleft, hright, hdiff⟩ := h.shown m hm
  have hne : m.left ≠ m.right := by
    rw [hleft, hright]
    exact (h.listed m.key).mp ⟨m, hm, rfl⟩
  exact ⟨restores_ofMismatch hdiff hne, hleft, hright⟩

/-! ## The three comparisons -/

/-- A comparison of any ledger, stock and snapshot, in which a key that is missing counts as zero,
lists for each two of them exactly the keys on which they differ. The difference between ledger and
stock and the one between stock and snapshot add up to that between ledger and snapshot, so no key
is in one of the three lists alone. The keys of the stock that do not count as matching are the
listed ones. What is suggested are corrections of the keys listed between ledger and stock, each of
which restores its slot. -/
theorem reconciliation_exact (cut : Instant) (ledger stock snapshot : Totals) :
    let r := reconcile cut ledger stock snapshot
    Exact .ledgerVsStock ledger stock r.ledgerVsStock ∧
    Exact .ledgerVsSnapshot ledger snapshot r.ledgerVsSnapshot ∧
    Exact .stockVsSnapshot stock snapshot r.stockVsSnapshot ∧
    (∀ k, listedDiff r.ledgerVsStock k + listedDiff r.stockVsSnapshot k =
      listedDiff r.ledgerVsSnapshot k) ∧
    (∀ k, [r.ledgerVsStock, r.ledgerVsSnapshot, r.stockVsSnapshot].countP
      (fun ms => isListed ms k) ≠ 1) ∧
    r.stockKeys = stock.keys.length ∧
    r.matchingStockKeys + stock.keys.countP (isListed r.ledgerVsStock) = r.stockKeys ∧
    (suggestHeal r).map (·.key) = r.ledgerVsStock.map (·.key) ∧
    ∀ c ∈ suggestHeal r, c.Restores ∧ c.ledger = ledger.quantity c.key ∧
      c.stock = stock.quantity c.key := by
  have hstock := exact_mismatches .ledgerVsStock ledger stock
  have hsnapshot := exact_mismatches .ledgerVsSnapshot ledger snapshot
  have hrest := exact_mismatches .stockVsSnapshot stock snapshot
  refine ⟨hstock, hsnapshot, hrest, fun k => ?_, fun k => ?_, (List.length_map _).symm,
    matching_add_listed hstock, corrects_suggestHeal hstock⟩
  · show listedDiff (mismatches _ ledger stock) k + listedDiff (mismatches _ stock snapshot) k =
      listedDiff (mismatches _ ledger snapshot) k
    rw [hstock.listedDiff_eq, hrest.listedDiff_eq, hsnapshot.listedDiff_eq]
    omega
  · -- of three numbers never just two differ
    show [mismatches _ ledger stock, mismatches _ ledger snapshot,
      mismatches _ stock snapshot].countP (fun ms => isListed ms k) ≠ 1
    simp only [List.countP_cons, List.countP_nil, hstock.isListed_iff, hsnapshot.isListed_iff,
      hrest.isListed_iff]
    split <;> split <;> split <;> omega

namespace Sample

/-- What the ledger says. -/
def written : Totals := .ofList [(key "A", 5), (key "B", 4)]

/-- Two of batch A are missing from their slot; batch C has a slot that was never filled. -/
def shelved : Totals := .ofList [(key "A", 3), (key "B", 4), (key "C", 0)]

/-- The snapshot has lost batch B. -/
def pictured : Totals := .ofList [(key "A", 3)]

end Sample

open Sample in
/-- The lost batch is in two of the lists, with the same difference; the empty slot matches. -/
theorem reconciliation_exact_lost :
    let r := reconcile .epoch written shelved pictured
    suggestHeal r = [⟨key "A", 5, 3, 2, .increase⟩] ∧
    listedDiff r.ledgerVsStock (key "B") = 0 ∧
    listedDiff r.stockVsSnapshot (key "B") = 4 ∧ listedDiff r.ledgerVsSnapshot (key "B") = 4 ∧
    isListed r.ledgerVsStock (key "C") = false ∧
    r.matchingStockKeys + 1 = r.stockKeys ∧ r.stockKeys = 3 := by
  obtain ⟨hstock, -, hrest, hsum, -, hkeys, hcount, -, -⟩ :=
    reconciliation_exact .epoch written shelved pictured
  have hlost : listedDiff (reconcile .epoch written shelved pictured).stockVsSnapshot (key "B") =
      4 := by
    rw [hrest.listedDiff_eq]
    decide +kernel
  have hheld : listedDiff (reconcile .epoch written shelved pictured).ledgerVsStock (key "B") =
      0 := by
    rw [hstock.listedDiff_eq]
    decide +kernel
  have hone : shelved.keys.countP
      (isListed (reconcile .epoch written shelved pictured).ledgerVsStock) = 1 := by decide +kernel
  rw [hone] at hcount
  refine ⟨by decide +kernel, hheld, hlost, ?_, by decide +kernel, hcount, ?_⟩
  · rw [← hsum, hheld, hlost]
    rfl
  · rw [hkeys]
    decide +kernel

end Stockroom
