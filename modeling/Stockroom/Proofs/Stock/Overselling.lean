/-
Stockroom.Proofs.Stock.Overselling — nothing goes out that is not there.

* `StockAction.quantity_eq_of_neg`: a slot that is below zero after an action was there before,
  or a movement of that very slot was allowed to take it there. A single movement is held back
  by its own check; an allocation is as its plan takes no more than there is, and no slot
  twice.
* Without such movements no slot is ever below zero (`StockState.nonneg_run`). As the slots hold
  what the ledger adds up to, what has come in of an item in a warehouse covers what has gone
  out, over all of its batches (`outboundTotal_le_inboundTotal`).
-/
import Stockroom.Proofs.Stock.Balance
import Stockroom.Proofs.Stock.Ending

namespace Stockroom

open StoreM MemoryStock

variable {s t : StockState} {k : StockKey}

/-! ## Below zero -/

namespace StockState

theorem quantity_congr (h : t.slots = s.slots) (k : StockKey) : t.quantity k = s.quantity k := by
  rw [quantity, quantity, h]

/-- A slot is taken below zero only by a movement of its own that may do so. -/
theorem allowed_of_enter_neg {m : Movement} {after : Int} (h : s.Admits m after)
    (hneg : (s.enter m after).quantity k < 0) :
    (s.enter m after).quantity k = s.quantity k ∨ m.key = k ∧ m.allowNegative = true := by
  obtain ⟨-, -, hallow⟩ := quantityAfter_eq_ok_iff.mp h.fits
  rw [quantity_enter] at hneg ⊢
  split at hneg
  · rename_i hkey
    exact .inr ⟨hkey, hallow hneg⟩
  · rename_i hkey
    rw [if_neg hkey]
    exact .inl rfl

/-- Movements that must not go below zero leave every slot that is below zero alone. -/
theorem quantity_enterAll_of_neg {ms : List Movement} (h : s.AdmitsAll ms)
    (hforbid : ∀ m ∈ ms, m.allowNegative = false) (hneg : (s.enterAll ms).quantity k < 0) :
    (s.enterAll ms).quantity k = s.quantity k := by
  induction ms generalizing s with
  | nil => rfl
  | cons m rest ih =>
    obtain ⟨hm, hrest⟩ := List.forall_mem_cons.mp hforbid
    rw [enterAll] at hneg ⊢
    have hstep := ih h.tail hrest hneg
    rw [hstep] at hneg
    rcases allowed_of_enter_neg (h.each m List.mem_cons_self) hneg with hsame | ⟨-, hallow⟩
    · exact hstep.trans hsame
    · rw [hm] at hallow
      cases hallow

end StockState

/-- The legs of a plan must not take a slot below zero. -/
theorem AllocationRequest.allowNegative_legMovements {r : AllocationRequest}
    {legs : List AllocationLeg} : ∀ m ∈ r.legMovements legs, m.allowNegative = false := by
  intro m hm
  obtain ⟨leg, -, line, rfl⟩ := exists_leg_of_mem hm
  rfl

/-- A slot that is below zero after an action was there before, or it was taken there by a
movement of its own that may do so. -/
theorem StockAction.quantity_eq_of_neg (hs : s.Attained) (a : StockAction)
    (hneg : (a.step.runFrom s).2.quantity k < 0) :
    (a.step.runFrom s).2.quantity k = s.quantity k ∨
      ∃ m, a = .apply m ∧ m.key = k ∧ m.allowNegative = true := by
  have hend := a.ending hs
  generalize a.step.runFrom s = out at hend hneg
  cases hend with
  | refused e => exact .inl rfl
  | kept slots ledger => exact .inl (StockState.quantity_congr slots k)
  | @entered m t after readied admitted =>
    have hready : t.quantity k = s.quantity k := by
      rcases readied with rfl | ⟨b, -, -, -, rfl⟩
      · rfl
      · rfl
    rcases StockState.allowed_of_enter_neg admitted hneg with hsame | hallow
    · exact .inl (hsame.trans hready)
    · exact .inr ⟨m, rfl, hallow⟩
  | allocated planned admitted =>
    exact .inl (StockState.quantity_enterAll_of_neg admitted
      AllocationRequest.allowNegative_legMovements hneg)

/-- If no movement may go below zero, slots that are not below zero stay so. -/
theorem StockState.nonneg_run (hs : s.Attained) (hnonneg : ∀ k, 0 ≤ s.quantity k)
    {actions : List StockAction} (hforbid : ∀ m, .apply m ∈ actions → m.allowNegative = false)
    (k : StockKey) : 0 ≤ (s.run actions).quantity k := by
  induction actions generalizing s with
  | nil => exact hnonneg k
  | cons a rest ih =>
    have hnext : ∀ k, 0 ≤ (a.step.runFrom s).2.quantity k := by
      intro k
      by_contra hneg
      rw [Int.not_le] at hneg
      rcases a.quantity_eq_of_neg hs hneg with hsame | ⟨m, rfl, -, hallow⟩
      · have := hnonneg k
        omega
      · rw [hforbid m List.mem_cons_self] at hallow
        cases hallow
    exact ih (hs.changes (a.step_moves s)) hnext
      (fun m hm => hforbid m (List.mem_cons_of_mem _ hm))

/-! ## Totals of an item in a warehouse -/

section Totals

variable (item : ItemId) (warehouse : WarehouseId)

/-- All that has come in of an item in a warehouse, in any batch. -/
def inboundTotal (entries : List LedgerEntry) : Int :=
  sumOf (·.delta)
    (entries.filter (fun e => e.key.isOf item warehouse && decide (0 < e.delta)))

/-- All that has gone out of an item in a warehouse, in any batch. -/
def outboundTotal (entries : List LedgerEntry) : Int :=
  sumOf (fun e => -e.delta)
    (entries.filter (fun e => e.key.isOf item warehouse && e.isOutbound))

/-- What has come in and not gone out is the sum of all changes. -/
theorem inboundTotal_sub_outboundTotal (entries : List LedgerEntry) :
    inboundTotal item warehouse entries - outboundTotal item warehouse entries =
      sumOf (·.delta) (entries.filter (fun e => e.key.isOf item warehouse)) := by
  unfold inboundTotal outboundTotal LedgerEntry.isOutbound
  induction entries with
  | nil => rfl
  | cons e rest ih =>
    cases hof : e.key.isOf item warehouse with
    | false =>
      simp only [List.filter_cons, hof, Bool.false_and, Bool.false_eq_true, if_false]
      exact ih
    | true =>
      by_cases hin : 0 < e.delta
      · have hout : ¬ e.delta < 0 := by omega
        simp only [List.filter_cons, hof, hin, hout, decide_true, decide_false, Bool.and_true,
          Bool.and_false, Bool.false_eq_true, if_true, if_false, sumOf_cons]
        omega
      · by_cases hout : e.delta < 0
        · simp only [List.filter_cons, hof, hin, hout, decide_true, decide_false, Bool.and_true,
            Bool.and_false, Bool.false_eq_true, if_true, if_false, sumOf_cons]
          omega
        · simp only [List.filter_cons, hof, hin, hout, decide_false, Bool.and_false,
            Bool.false_eq_true, if_true, if_false, sumOf_cons]
          omega

/-- Where no key has a negative total, the changes of an item in a warehouse do not have one
either. -/
theorem outboundTotal_le_inboundTotal {entries : List LedgerEntry}
    (h : ∀ k, 0 ≤ ledgerTotal k entries) :
    outboundTotal item warehouse entries ≤ inboundTotal item warehouse entries := by
  have hsum : 0 ≤ sumOf (·.delta) (entries.filter (fun e => e.key.isOf item warehouse)) := by
    refine sumOf_nonneg_of_keys LedgerEntry.delta LedgerEntry.key (fun k => ?_)
    rw [List.filter_filter]
    cases hof : k.isOf item warehouse with
    | true =>
      have hkey : ∀ e ∈ entries, (e.key == k && e.key.isOf item warehouse) = (e.key == k) := by
        intro e _
        by_cases hk : e.key = k
        · simp [hk, hof]
        · simp [hk]
      rw [List.filter_congr hkey]
      exact h k
    | false =>
      have hnone : ∀ e ∈ entries, ¬ (e.key == k && e.key.isOf item warehouse) = true := by
        intro e _
        by_cases hk : e.key = k
        · simp [hk, hof]
        · simp [hk]
      rw [List.filter_eq_nil_iff.mpr hnone]
      exact Int.le_refl 0
  have hdiff := inboundTotal_sub_outboundTotal item warehouse entries
  omega

end Totals

/-! ## No overselling -/

/-- After any action on any stock there can be, a slot is below zero only with the quantity it
had before, or by a movement of its own that may take it there. So whatever happens without
such movements, no slot is ever below zero, and of no item in no warehouse more has gone out
than has come in. -/
theorem no_overselling :
    (∀ s : StockState, s.Reachable → ∀ (a : StockAction) (k : StockKey),
      (a.step.runFrom s).2.quantity k < 0 →
      (a.step.runFrom s).2.quantity k = s.quantity k ∨
        ∃ m, a = .apply m ∧ m.key = k ∧ m.allowNegative = true) ∧
    ∀ (clock : Instant) (actions : List StockAction),
      (∀ m, .apply m ∈ actions → m.allowNegative = false) →
      (∀ k, 0 ≤ ((StockState.empty clock).run actions).quantity k) ∧
      ∀ item warehouse,
        outboundTotal item warehouse ((StockState.empty clock).run actions).ledger ≤
          inboundTotal item warehouse ((StockState.empty clock).run actions).ledger := by
  constructor
  · intro s hs a k hneg
    exact a.quantity_eq_of_neg hs.attained hneg
  · intro clock actions hforbid
    have hreach : ((StockState.empty clock).run actions).Reachable := ⟨clock, actions, rfl⟩
    have hnonneg : ∀ k, 0 ≤ ((StockState.empty clock).run actions).quantity k :=
      StockState.nonneg_run ⟨clock, .refl⟩ (fun _ => Int.le_refl 0) hforbid
    refine ⟨hnonneg, fun item warehouse => outboundTotal_le_inboundTotal item warehouse ?_⟩
    intro k
    rw [← hreach.attained.balanced.slot]
    exact hnonneg k

namespace Sample

/-- An administrator writes off more than there is. -/
def correction : Movement :=
  { pick with line := 8, delta := -7, reason := .adjustment, allowNegative := true }

end Sample

open Sample in
/-- A correction takes batch A to two below zero. Without it, six of nine have gone out. -/
theorem no_overselling_shipped :
    stock.Reachable ∧
    ((StockAction.apply correction).step.runFrom stock).2.quantity (key "A") = -2 ∧
    (((StockAction.apply correction).step.runFrom stock).2.quantity (key "A") =
        stock.quantity (key "A") ∨
      ∃ m, StockAction.apply correction = .apply m ∧ m.key = key "A" ∧
        m.allowNegative = true) ∧
    (∀ m, .apply m ∈ received ++ [.allocate (order 1 6)] → m.allowNegative = false) ∧
    (∀ k, 0 ≤ shipped.quantity k) ∧
    outboundTotal ⟨10⟩ ⟨1⟩ shipped.ledger = 6 ∧ inboundTotal ⟨10⟩ ⟨1⟩ shipped.ledger = 9 ∧
    outboundTotal ⟨10⟩ ⟨1⟩ shipped.ledger ≤ inboundTotal ⟨10⟩ ⟨1⟩ shipped.ledger := by
  have hneg : ((StockAction.apply correction).step.runFrom stock).2.quantity (key "A") = -2 := by
    decide +kernel
  have hforbid : ∀ m, .apply m ∈ received ++ [.allocate (order 1 6)] →
      m.allowNegative = false := by
    intro m hm
    simp only [received, List.cons_append, List.nil_append, List.mem_cons, StockAction.apply.injEq,
      reduceCtorEq, List.not_mem_nil, or_false] at hm
    rcases hm with rfl | rfl | rfl | rfl <;> rfl
  obtain ⟨hnonneg, htotal⟩ := no_overselling.2 .epoch _ hforbid
  exact ⟨reachable_stock, hneg,
    no_overselling.1 stock reachable_stock _ (key "A") (by rw [hneg]; decide),
    hforbid, hnonneg, by decide +kernel, by decide +kernel, htotal ⟨10⟩ ⟨1⟩⟩

end Stockroom
