/-
Stockroom.Proofs.Stock.Range — when the numbers of an allocation have room.

A slot has room for what it holds, but two slots may offer more together than a quantity can be.
The line of a request may be so high that the one behind its legs, or behind the legs that it has
left, is none there is; it is computed in either case. `allocation_numbers` says exactly when the
numbers fit, and that the allocation stops otherwise; `numbers_run_over` shows what may have no
room.

What is on offer is never negative, so that the whole sum decides (`offered_fits_iff`). The same
goes for what earlier legs took out (`requested_fits_iff`).
-/
import Stockroom.Proofs.Stock.Bounded
import Stockroom.Proofs.Stock.PriorLegs
import Stockroom.Proofs.Stock.Shortage

namespace Stockroom

open StoreM
open IntegerRange (signed32 signed64 contains_iff)

/-! ## Numbers that have room -/

/-- Whether a request asks for something, and from a line on that there is. -/
def AllocationRequest.WellNumbered (r : AllocationRequest) : Prop :=
  (0 < r.quantity ∧ r.quantity ≤ signed64.greatest) ∧
    1 ≤ r.startLine ∧ r.startLine ≤ signed32.greatest

instance (r : AllocationRequest) : Decidable r.WellNumbered :=
  inferInstanceAs (Decidable ((_ ∧ _) ∧ _ ∧ _))

theorem AllocationRequest.WellNumbered.contains_startLine {r : AllocationRequest}
    (hr : r.WellNumbered) : signed32.contains r.startLine = true :=
  contains_iff.mpr ⟨Int.le_trans (by decide) hr.2.1, hr.2.2⟩

section Numbers

variable {s : StockState} {r : AllocationRequest} {legs : List LedgerEntry}

theorem offered_fits_iff (s : StockState) (r : AllocationRequest) :
    AddsUp (·.quantity)
        (queue r.item r.warehouse r.planOptions (s.candidates r.item r.warehouse)) ↔
      s.eligibleStock r ≤ signed64.greatest := by
  rw [addsUp_iff_of_nonneg fun c hc => Int.le_of_lt (pos_of_mem_queue hc),
    ← offered_queue_candidates, offered]

theorem requested_fits_iff (hs : s.Reachable)
    (hprior : priorLegs (s.entriesOf r.reference) r = .ok (some legs)) :
    AddsUp (fun e => -e.delta) legs ↔ (planOfLegs r legs).requested ≤ signed64.greatest := by
  have hone := hs.attained.indexed.nodup_line_entriesOf r.reference
  have hout : ∀ e ∈ legs, 0 ≤ -e.delta := by
    intro e he
    obtain ⟨i, hi, rfl⟩ := List.getElem_of_mem he
    have := (((priorLegs_eq_some_iff hone).mp hprior).each i hi).2.2.2.2
    omega
  exact addsUp_iff_of_nonneg hout

/-- Whether the numbers have room is a matter of two sums and of the last line. -/
theorem numbersFit_iff (hs : s.Reachable) (hr : r.WellNumbered) :
    NumbersFit s r ↔
      (∀ legs, priorLegs (s.entriesOf r.reference) r = .ok (some legs) →
        r.startLine + legs.length ≤ signed32.greatest ∧
          (planOfLegs r legs).requested ≤ signed64.greatest) ∧
      (priorLegs (s.entriesOf r.reference) r = .ok none →
        s.eligibleStock r ≤ signed64.greatest ∧
          ∀ p, s.planFor r = .ok p → r.startLine + p.legs.length ≤ signed32.greatest) := by
  have hlines (n : Nat) : Bounded.NextLinesFit r.startLine n ↔
      r.startLine + n ≤ signed32.greatest := Bounded.nextLinesFit_iff hr.contains_startLine
  cases hprior : priorLegs (s.entriesOf r.reference) r with
  | error e => exact iff_of_true (numbersFit_of_refused hprior) ⟨nofun, nofun⟩
  | ok found =>
    cases found with
    | some legs =>
      rw [numbersFit_iff_of_repeated hprior, hlines, requested_fits_iff hs hprior]
      constructor
      · intro h
        refine ⟨?_, nofun⟩
        rintro _ ⟨⟩
        exact h
      · intro h
        exact h.1 legs rfl
    | none =>
      rw [numbersFit_iff_of_free hprior, offered_fits_iff]
      simp only [hlines]
      constructor
      · intro h
        exact ⟨nofun, fun _ => ⟨h.1 hr.1.1, h.2⟩⟩
      · intro h
        exact ⟨fun _ => (h.2 trivial).1, (h.2 trivial).2⟩

end Numbers

/-- An allocation in numbers of a fixed width, in any stock there can be. All its numbers have room
exactly if, for a repetition, there is a line behind those of the legs found and these took out no
more together than a quantity can be, and for an order that is planned, the slots that may serve
hold no more together than a quantity can be and there is a line behind those of its legs. Then the
allocation does what it would do without a limit. Otherwise it stops, and nothing is written. -/
theorem allocation_numbers {s : StockState} {r : AllocationRequest} (hs : s.Reachable)
    (hr : r.WellNumbered) :
    let prior := priorLegs (s.entriesOf r.reference) r
    let run := (Bounded.store.allocate r).runFrom s
    (NumbersFit s r ↔
      (∀ legs, prior = .ok (some legs) →
        r.startLine + legs.length ≤ signed32.greatest ∧
          (planOfLegs r legs).requested ≤ signed64.greatest) ∧
      (prior = .ok none →
        s.eligibleStock r ≤ signed64.greatest ∧
          ∀ p, s.planFor r = .ok p → r.startLine + p.legs.length ≤ signed32.greatest)) ∧
    (NumbersFit s r → run = (MemoryStock.store.allocate r).runFrom s) ∧
    (¬ NumbersFit s r → run = (.error .outOfRange, s)) :=
  ⟨numbersFit_iff hs hr, (Bounded.allocate_stopsUnless s r).exact,
    (Bounded.allocate_stopsUnless s r).stops⟩

namespace Sample

/-- As much as a quantity can be. -/
def most : Int := signed64.greatest

/-- Two batches of which each holds as much as a slot can. -/
def vast : StockState :=
  (StockState.empty .epoch).run [.apply (delivery "A" 1 most), .apply (delivery "B" 2 most)]

theorem reachable_vast : vast.Reachable := ⟨_, _, rfl⟩

/-- An order of six from the last line there is; it takes two batches. -/
def lastOrder : AllocationRequest := order signed32.greatest 6

/-- An order of three from the last line there is; it takes one batch. -/
def smallOrder : AllocationRequest := order signed32.greatest 3

/-- The leg of the small order. -/
def smallPick : AllocationLeg := ⟨key "B", 3, none⟩

/-- Stock where a movement on the last line has taken out what the small order asks for. -/
def numbered : StockState :=
  stock.run [.apply (smallOrder.legMovement smallPick signed32.greatest)]

theorem reachable_numbered : numbered.Reachable := reachable_stock.run _

/-- The row of that movement. -/
def smallLeg : LedgerEntry :=
  (smallOrder.legMovement smallPick signed32.greatest).toEntry 3 1

theorem priorLegs_numbered :
    priorLegs (numbered.entriesOf smallOrder.reference) smallOrder = .ok (some [smallLeg]) := by
  decide +kernel

theorem priorLegs_stock {line quantity : Int} :
    priorLegs (stock.entriesOf (order line quantity).reference) (order line quantity) =
      .ok none := by
  have hnone : stock.entriesOf "SO-1" = [] := by decide +kernel
  show priorLegs (stock.entriesOf "SO-1") _ = _
  rw [hnone]
  rfl

theorem planFor_lastOrder : stock.planFor lastOrder = .ok shipment.plan := by decide +kernel

theorem eligibleStock_vast : vast.eligibleStock (order 1 1) = 18446744073709551614 := by
  decide +kernel

end Sample

open Sample in
/-- Of two full batches not even one piece can be ordered. An order of two batches from the last
line on stops, and so does one of a single batch, for there is no line behind it; where a movement
of that line is found, the count along the lines stops. The order of two batches from line 1 on is
carried out. -/
theorem allocation_numbers_extreme :
    (vast.Reachable ∧ (order 1 1).WellNumbered ∧
      (Bounded.store.allocate (order 1 1)).runFrom vast = (.error .outOfRange, vast)) ∧
    (stock.Reachable ∧ lastOrder.WellNumbered ∧
      (Bounded.store.allocate lastOrder).runFrom stock = (.error .outOfRange, stock)) ∧
    (smallOrder.WellNumbered ∧
      (Bounded.store.allocate smallOrder).runFrom stock = (.error .outOfRange, stock)) ∧
    (numbered.Reachable ∧
      (Bounded.store.allocate smallOrder).runFrom numbered = (.error .outOfRange, numbered)) ∧
    (order 1 6).WellNumbered ∧
    (Bounded.store.allocate (order 1 6)).runFrom stock = (.ok shipment, shipped) := by
  have hsmall : smallOrder.WellNumbered := by decide
  refine ⟨⟨reachable_vast, by decide, ?_⟩, ⟨reachable_stock, by decide, ?_⟩, ⟨hsmall, ?_⟩,
    ⟨reachable_numbered, ?_⟩, by decide, ?_⟩
  · obtain ⟨hiff, -, hstops⟩ := allocation_numbers (r := order 1 1) reachable_vast (by decide)
    refine hstops fun hfit => ?_
    have hsum := ((hiff.mp hfit).2 (by decide +kernel)).1
    rw [eligibleStock_vast] at hsum
    exact absurd hsum (by decide)
  · obtain ⟨hiff, -, hstops⟩ := allocation_numbers (r := lastOrder) reachable_stock (by decide)
    refine hstops fun hfit => ?_
    exact absurd (((hiff.mp hfit).2 priorLegs_stock).2 _ planFor_lastOrder) (by decide)
  · obtain ⟨hiff, -, hstops⟩ := allocation_numbers (r := smallOrder) reachable_stock hsmall
    obtain ⟨p, hplan, hlength⟩ : ∃ p, stock.planFor smallOrder = .ok p ∧ p.legs.length = 1 :=
      ⟨_, rfl, rfl⟩
    refine hstops fun hfit => ?_
    have hline := ((hiff.mp hfit).2 priorLegs_stock).2 p hplan
    rw [hlength] at hline
    exact absurd hline (by decide)
  · obtain ⟨hiff, -, hstops⟩ := allocation_numbers (r := smallOrder) reachable_numbered hsmall
    refine hstops fun hfit => ?_
    exact absurd ((hiff.mp hfit).1 _ priorLegs_numbered).1 (by decide)
  · obtain ⟨hiff, hexact, -⟩ := allocation_numbers (r := order 1 6) reachable_stock (by decide)
    have hplan : stock.planFor (order 1 6) = .ok shipment.plan := by decide +kernel
    have hfit : NumbersFit stock (order 1 6) := by
      refine hiff.mpr ⟨fun legs hlegs => ?_, fun _ => ⟨by decide +kernel, fun p hp => ?_⟩⟩
      · cases priorLegs_stock.symm.trans hlegs
      · obtain rfl : shipment.plan = p := Except.ok.inj (hplan.symm.trans hp)
        decide
    exact (hexact hfit).trans allocate_order

open Sample in
/-- Numbers run over in stock that there can be: the sum of what two full batches offer, the line of
the second leg of an order from the last line on, and the line that is counted to behind a row on
the last one. -/
theorem numbers_run_over :
    (vast.Reachable ∧ (order 1 1).WellNumbered ∧
      vast.eligibleStock (order 1 1) = 18446744073709551614 ∧
      signed64.contains 18446744073709551614 = false) ∧
    (stock.Reachable ∧ lastOrder.WellNumbered ∧ stock.planFor lastOrder = .ok shipment.plan ∧
      (lastOrder.legMovements shipment.plan.legs).map (·.line) = [2147483647, 2147483648] ∧
      signed32.contains 2147483648 = false) ∧
    (numbered.Reachable ∧ smallOrder.WellNumbered ∧
      priorLegs (numbered.entriesOf smallOrder.reference) smallOrder = .ok (some [smallLeg]) ∧
      smallOrder.startLine + 1 = 2147483648) ∧
    ¬ ∀ s r, StockState.Reachable s → AllocationRequest.WellNumbered r → NumbersFit s r := by
  refine ⟨⟨reachable_vast, by decide, eligibleStock_vast, by decide⟩,
    ⟨reachable_stock, by decide, planFor_lastOrder, by decide, by decide⟩,
    ⟨reachable_numbered, by decide, priorLegs_numbered, by decide⟩, fun h => ?_⟩
  have hfit := h vast (order 1 1) reachable_vast (by decide)
  have hsum := (offered_fits_iff _ _).mp (hfit.offered (by decide +kernel) (by decide))
  rw [eligibleStock_vast] at hsum
  exact absurd hsum (by decide)

end Stockroom
