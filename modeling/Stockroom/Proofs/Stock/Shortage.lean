/-
Stockroom.Proofs.Stock.Shortage — what a refusal for want of stock says.

* `NeverShort` marks the rules that speak of no shortage. All rules do but two, so that a shortage
  comes from `quantityAfter` for a movement (`write_shortage`), and from planning for an allocation
  (`allocate_shortage`): no leg of a plan is refused for want of stock after it has been planned.
* `quantityAfter_shortage_iff` and `planAllocation_shortage_iff` say when the two rules speak of
  one, and of which. What a plan finds wanting is the sum over the slots that may serve
  (`StockState.eligibleStock`).
* Where numbers have a fixed width, an allocation whose sum has no room is not refused: it stops. So
  a refusal is one of the exact allocation (`Bounded.allocate_stopsUnless`).
* `shortage_truthful` puts this together. A movement is judged by the quantity that would be left:
  where an administrator has taken a slot below zero, goods that come in but do not bring it back
  to zero are refused as well (`shortage_of_increase`).
-/
import Stockroom.Proofs.Stock.Bounded
import Stockroom.Proofs.Stock.Overselling
import Stockroom.Proofs.Stock.Plan

namespace Stockroom

open StoreM MemoryStock

/-! ## Rules that speak of no shortage -/

/-- Whether a rule breaks, if it does, for another reason than a shortage. -/
def NeverShort {α : Type} (x : Except DomainError α) : Prop :=
  ∀ requested available, x ≠ .error (.insufficientStock requested available)

section NeverShort

variable {σ α β : Type} {x : Except DomainError α} {requested available : Int}

theorem neverShort_ok (a : α) : NeverShort (.ok a : Except DomainError α) := nofun

theorem NeverShort.bind {f : α → Except DomainError β} (hx : NeverShort x)
    (hf : ∀ a, NeverShort (f a)) : NeverShort (x >>= f) := by
  cases x with
  | error e =>
    intro requested available h
    cases h
    exact hx requested available rfl
  | ok a => exact hf a

/-- A step behind such a rule is short only if the rule holds. -/
theorem NeverShort.of_bind (hx : NeverShort x) {f : α → StoreM σ β} {s : σ}
    (h : ((StoreM.ofRule x >>= f).runFrom s).1 =
      .error (.domain (.insufficientStock requested available))) :
    ∃ a, x = .ok a ∧
      ((f a).runFrom s).1 = .error (.domain (.insufficientStock requested available)) := by
  cases x with
  | error e =>
    cases h
    exact absurd rfl (hx requested available)
  | ok a => exact ⟨a, rfl, h⟩

end NeverShort

theorem neverShort_check (m : Movement) : NeverShort m.check := by
  intro requested available h
  unfold Movement.check at h
  repeat' split at h
  all_goals cases h

theorem neverShort_inboundDates (production expiry : Option Date) (on : Date) :
    NeverShort (inboundDates production expiry on) := by
  refine NeverShort.bind ?_ fun _ => neverShort_ok _
  intro requested available h
  unfold checkDates at h
  repeat' split at h
  all_goals cases h

theorem neverShort_priorLegs (entries : List LedgerEntry) (r : AllocationRequest) :
    NeverShort (priorLegs entries r) := by
  intro requested available h
  unfold priorLegs at h
  repeat' split at h
  all_goals cases h

theorem neverShort_checkLegs (s : StockState) (ms : List Movement) :
    NeverShort (checkLegs s ms) := by
  induction ms with
  | nil => exact neverShort_ok _
  | cons m rest ih =>
    refine (neverShort_check m).bind fun _ => ?_
    split
    · nofun
    · exact ih

/-! ## Movements -/

theorem oppositeWithin64_pos {n : Int} (h : n < 0) : 0 < oppositeWithin64 n := by
  have : 0 < IntegerRange.signed64.greatest := by decide
  unfold oppositeWithin64
  omega

theorem quantityAfter_shortage_iff {before requested available : Int} {m : Movement} :
    quantityAfter before m = .error (.insufficientStock requested available) ↔
      IntegerRange.signed64.contains (before + m.delta) = true ∧ before + m.delta < 0 ∧
        m.allowNegative = false ∧ requested = oppositeWithin64 m.delta ∧ available = before := by
  unfold quantityAfter
  dsimp only
  cases hrange : IntegerRange.signed64.contains (before + m.delta) with
  | false => simp
  | true =>
    by_cases hshort : before + m.delta < 0 ∧ m.allowNegative = false
    · simp [hshort, eq_comm]
    · rw [if_neg (by decide), if_neg hshort]
      exact iff_of_false nofun fun h => hshort ⟨h.2.1, h.2.2.1⟩

/-- A movement that is short moves something, and finds its slot so. -/
theorem write_shortage {m : Movement} {s : StockState} {requested available : Int}
    (h : ((write m).runFrom s).1 = .error (.domain (.insufficientStock requested available))) :
    m.delta ≠ 0 ∧ quantityAfter (s.quantity m.key) m =
      .error (.insufficientStock requested available) := by
  obtain ⟨_, hvalid, hrest⟩ := (neverShort_check m).of_bind h
  cases hentry : s.entryAt? m.documentLine with
  | some e =>
    rw [write_replayed hvalid hentry] at h
    cases h
  | none =>
    rw [runFrom_get_bind, hentry] at hrest
    dsimp only at hrest
    by_cases hzero : m.delta = 0
    · rw [if_pos hzero] at hrest
      cases hrest
    · rw [if_neg hzero] at hrest
      refine ⟨hzero, ?_⟩
      cases hafter : quantityAfter (s.quantity m.key) m with
      | error e =>
        rw [hafter] at hrest
        cases hrest
        rfl
      | ok after =>
        rcases write_fits hvalid hentry hzero hafter with ⟨e, hdates, he⟩ | ⟨t, -, -, ht⟩
        · rw [he] at h
          cases h
          exact absurd hdates (neverShort_inboundDates _ _ _ _ _)
        · rw [ht] at h
          cases h

/-! ## Allocations -/

/-- What the slots hold that may serve a request. -/
def StockState.eligibleStock (s : StockState) (r : AllocationRequest) : Int :=
  sumOf (·.2.quantity) (s.slots.toList.filter fun b =>
    decide ((s.candidateOf b.1 b.2).MayServe r.item r.warehouse r.planOptions))

theorem offered_queue_candidates (s : StockState) (r : AllocationRequest) :
    offered (queue r.item r.warehouse r.planOptions (s.candidates r.item r.warehouse)) =
      s.eligibleStock r := by
  have hserve : ∀ b : StockKey × Slot,
      (decide ((s.candidateOf b.1 b.2).MayServe r.item r.warehouse r.planOptions) &&
        (b.1.isOf r.item r.warehouse && decide (0 < b.2.quantity))) =
      decide ((s.candidateOf b.1 b.2).MayServe r.item r.warehouse r.planOptions) := by
    intro b
    rw [Bool.eq_iff_iff, Bool.and_eq_true, decide_eq_true_eq]
    refine and_iff_left_of_imp fun hmay => ?_
    obtain ⟨hitem, hwarehouse, hpos, -⟩ := hmay
    simp only [StockState.candidateOf] at hitem hwarehouse hpos
    simp [StockKey.isOf, hitem, hwarehouse, hpos]
  rw [offered, queue, sumOf_perm _ (sortBy_perm _ _), ← filter_mayServe, StockState.candidates,
    List.filter_map, sumOf_map, List.filter_filter]
  exact congrArg (sumOf _) (List.filter_congr fun b _ => hserve b)

theorem planAllocation_shortage_iff {item : ItemId} {warehouse : WarehouseId}
    {n requested available : Int} {candidates : List Candidate} {options : PlanOptions} :
    planAllocation item warehouse n candidates options =
        .error (.insufficientStock requested available) ↔
      0 < n ∧ requested = n ∧
        available = offered (queue item warehouse options candidates) ∧ available < n := by
  by_cases hn : n ≤ 0
  · rw [planAllocation_of_nonpos hn]
    exact iff_of_false nofun fun h => absurd h.1 (Int.not_lt.mpr hn)
  replace hn : 0 < n := Int.not_le.mp hn
  by_cases hshort : offered (queue item warehouse options candidates) < n
  · rw [planAllocation_of_short hn hshort]
    constructor
    · intro h
      cases h
      exact ⟨hn, rfl, rfl, hshort⟩
    · rintro ⟨-, rfl, rfl, -⟩
      rfl
  · obtain ⟨p, hp, -⟩ := planAllocation_of_offered hn (Int.not_lt.mp hshort)
    rw [hp]
    refine iff_of_false nofun fun h => hshort ?_
    obtain ⟨-, -, rfl, hlt⟩ := h
    exact hlt

/-- An allocation that is short is short in its plan. -/
theorem allocate_shortage {s : StockState} (hs : s.Attained) {r : AllocationRequest}
    {requested available : Int}
    (h : ((allocate r).runFrom s).1 =
      .error (.domain (.insufficientStock requested available))) :
    planAllocation r.item r.warehouse r.quantity (s.candidates r.item r.warehouse)
      r.planOptions = .error (.insufficientStock requested available) := by
  rw [allocate, runFrom_get_bind] at h
  obtain ⟨prior, -, h⟩ := (neverShort_priorLegs _ r).of_bind h
  cases prior with
  | some legs => cases h
  | none =>
    simp only [runFrom_bind, plan, runFrom_get] at h
    cases hplan : planAllocation r.item r.warehouse r.quantity (s.candidates r.item r.warehouse)
        r.planOptions with
    | error e =>
      rw [hplan] at h
      cases h
      rfl
    | ok p =>
      simp only [hplan, runFrom_ofRule_ok] at h
      cases hcheck : checkLegs s (r.legMovements p.legs) with
      | error e =>
        rw [hcheck] at h
        cases h
        exact absurd hcheck (neverShort_checkLegs _ _ _ _)
      | ok _ =>
        -- legs that pass the check can all be entered
        have hall := admitsAll_legMovements hs (planned_of_planAllocation hplan) hcheck
        simp only [hcheck, runFrom_ofRule_ok, writeLegs_admitted hall, runFrom_pure] at h
        cases h

/-! ## Refusals -/

/-- A refusal for want of stock tells the truth. What it calls available is what the slot of the
movement holds, or what the slots hold that may serve the request. A movement that is refused would
leave its slot below zero and must not; either it takes out what is called requested, or it
puts something into a slot that is below zero already. An allocation takes out what it requested,
which is more than is available; one that finds more on offer than a quantity can be is not
refused for want of stock. -/
theorem shortage_truthful {s : StockState} (hs : s.Reachable) :
    (∀ m requested available, ((Bounded.store.apply m).runFrom s).1 =
        .error (.domain (.insufficientStock requested available)) →
      available = s.quantity m.key ∧ m.allowNegative = false ∧ available + m.delta < 0 ∧
        (m.delta < 0 ∧ requested = oppositeWithin64 m.delta ∧ 0 < requested ∨
          0 < m.delta ∧ available < 0)) ∧
    ∀ r requested available, ((Bounded.store.allocate r).runFrom s).1 =
        .error (.domain (.insufficientStock requested available)) →
      available = s.eligibleStock r ∧ requested = r.quantity ∧ 0 < requested ∧
        available < requested := by
  constructor
  · intro m requested available h
    replace h : ((store.apply m).runFrom s).1 = _ := h
    rw [runFrom_apply] at h
    have hwrite : ((write m).runFrom s).1 =
        .error (.domain (.insufficientStock requested available)) := by
      cases hout : ((write m).runFrom s).1 with
      | error e =>
        rw [hout] at h
        cases h
        rfl
      | ok out =>
        rw [hout] at h
        cases h
    obtain ⟨hmoves, hafter⟩ := write_shortage hwrite
    obtain ⟨-, hneg, hforbid, rfl, rfl⟩ := quantityAfter_shortage_iff.mp hafter
    refine ⟨rfl, hforbid, hneg, ?_⟩
    rcases Int.lt_or_gt_of_ne hmoves with hout | hin
    · exact .inl ⟨hout, rfl, oppositeWithin64_pos hout⟩
    · exact .inr ⟨hin, by omega⟩
  · intro r requested available h
    have hexact : ((allocate r).runFrom s).1 =
        .error (.domain (.insufficientStock requested available)) := by
      rcases (Bounded.allocate_stopsUnless s r).eq_or_eq with heq | hstopped
      · rw [heq] at h
        exact h
      · rw [hstopped] at h
        cases h
    obtain ⟨hpos, rfl, rfl, hlt⟩ :=
      planAllocation_shortage_iff.mp (allocate_shortage hs.attained hexact)
    rw [offered_queue_candidates] at hlt ⊢
    exact ⟨rfl, rfl, hpos, hlt⟩

namespace Sample

/-- Stock with two less than nothing of batch A. -/
def overdrawn : StockState := stock.run [.apply correction]

theorem reachable_overdrawn : overdrawn.Reachable := reachable_stock.run _

/-- One of batch A comes in. -/
def restock : Movement := delivery "A" 7 1

theorem pick_short : ((Bounded.store.apply pick).runFrom stock).1 =
    .error (.domain (.insufficientStock 50 5)) := by rfl

theorem order_short : ((Bounded.store.allocate (order 1 12)).runFrom stock).1 =
    .error (.domain (.insufficientStock 12 9)) := by rfl

theorem restock_short : ((Bounded.store.apply restock).runFrom overdrawn).1 =
    .error (.domain (.insufficientStock (-1) (-2))) := by rfl

end Sample

open Sample in
/-- Five of batch A do not cover a pick of fifty, and nine of both batches not an order of twelve.
-/
theorem shortage_truthful_short :
    stock.Reachable ∧ overdrawn.Reachable ∧
    ((Bounded.store.apply pick).runFrom stock).1 = .error (.domain (.insufficientStock 50 5)) ∧
    (5 = stock.quantity pick.key ∧ pick.allowNegative = false ∧ 5 + pick.delta < 0 ∧
      (pick.delta < 0 ∧ 50 = oppositeWithin64 pick.delta ∧ (0 : Int) < 50 ∨
        0 < pick.delta ∧ (5 : Int) < 0)) ∧
    ((Bounded.store.allocate (order 1 12)).runFrom stock).1 =
      .error (.domain (.insufficientStock 12 9)) ∧
    (9 = stock.eligibleStock (order 1 12) ∧ 12 = (order 1 12).quantity ∧ (0 : Int) < 12 ∧
      (9 : Int) < 12) ∧
    ((Bounded.store.apply restock).runFrom overdrawn).1 =
      .error (.domain (.insufficientStock (-1) (-2))) ∧
    (-2 = overdrawn.quantity restock.key ∧ restock.allowNegative = false ∧
      -2 + restock.delta < 0 ∧
      (restock.delta < 0 ∧ -1 = oppositeWithin64 restock.delta ∧ (0 : Int) < -1 ∨
        0 < restock.delta ∧ (-2 : Int) < 0)) :=
  ⟨reachable_stock, reachable_overdrawn,
    pick_short, (shortage_truthful reachable_stock).1 _ _ _ pick_short,
    order_short, (shortage_truthful reachable_stock).2 _ _ _ order_short,
    restock_short, (shortage_truthful reachable_overdrawn).1 _ _ _ restock_short⟩

open Sample in
/-- Not only what takes stock out is refused for want of it: where batch A is two below zero, one
that comes in is, and then less than nothing is said to be requested. -/
theorem shortage_of_increase :
    ¬ ∀ s : StockState, s.Reachable →
      (∀ m requested available, ((Bounded.store.apply m).runFrom s).1 =
          .error (.domain (.insufficientStock requested available)) →
        available = s.quantity m.key ∧ 0 < requested ∧ m.delta < 0) ∧
      ∀ r requested available, ((Bounded.store.allocate r).runFrom s).1 =
          .error (.domain (.insufficientStock requested available)) →
        available = s.eligibleStock r ∧ 0 < requested ∧ 0 < r.quantity := by
  intro h
  obtain ⟨-, -, hout⟩ := (h overdrawn reachable_overdrawn).1 restock _ _ restock_short
  exact absurd hout (by decide)

end Stockroom
