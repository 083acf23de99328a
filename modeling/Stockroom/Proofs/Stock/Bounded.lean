/-
Stockroom.Proofs.Stock.Bounded — stock in numbers of a fixed width, beside stock without a limit.

* A step of the stock that computes does what the exact one does if its numbers have room, and
  stops otherwise, and then it leaves the state as it was: `Bounded.rebuildSnapshot` writes after
  the last sum, and `Bounded.allocate` after the last line.
* `RebuildFits` and `NumbersFit` name the numbers of these two. What an allocation computes depends
  on whether it is a repetition (`numbersFit_iff_of_repeated`, `numbersFit_iff_of_free`).
-/
import Stockroom.Proofs.Step
import Stockroom.Proofs.Stock.Arithmetic
import Stockroom.Stock.Bounded

namespace Stockroom

open StoreM

/-! ## Steps that stop -/

namespace StopsUnless

variable {σ α β : Type} {fits fits' : Prop} {s : σ} {e : StoreError} {x : Except StoreError α}
  {f : α → StoreM σ β}

/-- A step behind a computation that fails for another reason is never reached. -/
theorem run_bind_error {e' : StoreError} (hx : StopsUnless fits (.error e) x (.error e')) :
    StopsUnless fits (.error e, s) ((StoreM.ofResult x >>= f).runFrom s) (.error e', s) := by
  constructor
  · intro hfits
    rw [hx.exact hfits]
    rfl
  · intro hnot
    rw [hx.stops hnot]
    rfl

/-- A step behind such a computation stops in one of the two. -/
theorem run_bind {a : α} {y : Except StoreError β × σ} (hx : StopsUnless fits (.error e) x (.ok a))
    (hf : StopsUnless fits' (.error e, s) ((f a).runFrom s) y) :
    StopsUnless (fits ∧ fits') (.error e, s) ((StoreM.ofResult x >>= f).runFrom s) y := by
  constructor
  · rintro ⟨hfits, hfits'⟩
    rw [hx.exact hfits]
    exact hf.exact hfits'
  · intro hnot
    by_cases hfits : fits
    · rw [hx.exact hfits]
      exact hf.stops fun hfits' => hnot ⟨hfits, hfits'⟩
    · rw [hx.stops hfits]
      rfl

end StopsUnless

namespace Bounded

/-! ## Steps of the stock -/

section Steps

variable {s : StockState}

theorem readTotals_stopsUnless (cut : LedgerCut) :
    StopsUnless (TotalsFit s.ledger cut) (.error .outOfRange, s) ((store.totals cut).runFrom s)
      ((MemoryStock.store.totals cut).runFrom s) :=
  (totals_stopsUnless s.ledger cut).image (·, s)

theorem plan_stopsUnless (item : ItemId) (warehouse : WarehouseId) (n : Int)
    (options : PlanOptions) :
    StopsUnless
      (0 < n → AddsUp (·.quantity) (queue item warehouse options (s.candidates item warehouse)))
      (.error .outOfRange, s) ((store.plan item warehouse n options).runFrom s)
      ((MemoryStock.store.plan item warehouse n options).runFrom s) :=
  (planAllocation_stopsUnless item warehouse n (s.candidates item warehouse) options).image (·, s)

/-- Whether all numbers have room when the snapshot of a day is computed: the totals on the way,
and the sum of the rows. -/
structure RebuildFits (s : StockState) (d : Date) : Prop where
  totals : TotalsFit s.ledger (.ofDay d)
  rows : AddsUp (·.onHand) (Stockroom.snapshotRows d s.ledger)

instance (s : StockState) (d : Date) : Decidable (RebuildFits s d) :=
  decidable_of_iff (TotalsFit s.ledger (.ofDay d) ∧
      AddsUp (·.onHand) (Stockroom.snapshotRows d s.ledger))
    ⟨fun h => ⟨h.1, h.2⟩, fun h => ⟨h.totals, h.rows⟩⟩

/-- A rebuild that stops has stored nothing. -/
theorem rebuildSnapshot_stopsUnless (d : Date) :
    StopsUnless (RebuildFits s d) (.error .outOfRange, s) ((store.rebuildSnapshot d).runFrom s)
      ((MemoryStock.store.rebuildSnapshot d).runFrom s) := by
  have hsum := summaryOfRows_stopsUnless d (Stockroom.snapshotRows d s.ledger)
  refine ((snapshotRows_stopsUnless d s.ledger).run_bind
    (hsum.run_bind (.of_fits trivial rfl))).congr ?_
  exact ⟨fun h => ⟨h.1, h.2.1⟩, fun h => ⟨h.totals, h.rows, trivial⟩⟩

end Steps

end Bounded

/-! ## Allocations -/

/-- The plan of a request, made of the slots as they are. -/
def StockState.planFor (s : StockState) (r : AllocationRequest) :
    Except DomainError AllocationPlan :=
  planAllocation r.item r.warehouse r.quantity (s.candidates r.item r.warehouse) r.planOptions

/-- Whether all numbers of an allocation have room. For a repetition these are the lines that are
counted along the legs found, one line behind the last of them among these, and the quantities
they took out together; for an order that is planned, what the slots offer together, and the lines
of its legs, with one line behind the last again. -/
structure NumbersFit (s : StockState) (r : AllocationRequest) : Prop where
  counted : ∀ legs, priorLegs (s.entriesOf r.reference) r = .ok (some legs) →
    Bounded.NextLinesFit r.startLine legs.length
  requested : ∀ legs, priorLegs (s.entriesOf r.reference) r = .ok (some legs) →
    AddsUp (fun e => -e.delta) legs
  offered : priorLegs (s.entriesOf r.reference) r = .ok none → 0 < r.quantity →
    AddsUp (·.quantity) (queue r.item r.warehouse r.planOptions (s.candidates r.item r.warehouse))
  numbered : priorLegs (s.entriesOf r.reference) r = .ok none → ∀ p, s.planFor r = .ok p →
    Bounded.NextLinesFit r.startLine p.legs.length

section NumbersFit

variable {s : StockState} {r : AllocationRequest}

theorem numbersFit_of_refused {e : DomainError}
    (hprior : priorLegs (s.entriesOf r.reference) r = .error e) : NumbersFit s r := by
  constructor <;> simp [hprior]

theorem numbersFit_iff_of_repeated {legs : List LedgerEntry}
    (hprior : priorLegs (s.entriesOf r.reference) r = .ok (some legs)) :
    NumbersFit s r ↔
      Bounded.NextLinesFit r.startLine legs.length ∧ AddsUp (fun e => -e.delta) legs := by
  refine ⟨fun h => ⟨h.counted legs hprior, h.requested legs hprior⟩, fun h => ?_⟩
  constructor <;> simp [hprior, h.1, h.2]

theorem numbersFit_iff_of_free (hprior : priorLegs (s.entriesOf r.reference) r = .ok none) :
    NumbersFit s r ↔
      (0 < r.quantity → AddsUp (·.quantity)
        (queue r.item r.warehouse r.planOptions (s.candidates r.item r.warehouse))) ∧
      ∀ p, s.planFor r = .ok p → Bounded.NextLinesFit r.startLine p.legs.length := by
  refine ⟨fun h => ⟨h.offered hprior, h.numbered hprior⟩, fun h => ?_⟩
  constructor
  case offered => exact fun _ => h.1
  case numbered => exact fun _ => h.2
  all_goals simp [hprior]

end NumbersFit

namespace MemoryStock

variable {s : StockState} {r : AllocationRequest}

/-- What remains of an allocation when its legs are planned: they are checked and written down. -/
def writePlan (s : StockState) (p : AllocationPlan) (ms : List Movement) :
    Step AllocationResult := do
  StoreM.ofRule (checkLegs s ms)
  let entries ← writeLegs ms
  pure ⟨p, entries, false⟩

theorem runFrom_allocate_planned {p : AllocationPlan}
    (hprior : priorLegs (s.entriesOf r.reference) r = .ok none) (hplan : s.planFor r = .ok p) :
    (allocate r).runFrom s = (writePlan s p (r.legMovements p.legs)).runFrom s := by
  rw [StockState.planFor] at hplan
  rw [allocate, runFrom_get_bind, hprior, runFrom_ofRule_ok_bind]
  dsimp only
  rw [plan, runFrom_bind, runFrom_get_bind, hplan]
  rfl

theorem runFrom_allocate_unplanned {e : DomainError}
    (hprior : priorLegs (s.entriesOf r.reference) r = .ok none) (hplan : s.planFor r = .error e) :
    (allocate r).runFrom s = (.error (.domain e), s) := by
  rw [StockState.planFor] at hplan
  rw [allocate, runFrom_get_bind, hprior, runFrom_ofRule_ok_bind]
  dsimp only
  rw [plan, runFrom_bind, runFrom_get_bind, hplan]
  rfl

theorem runFrom_allocate_foreign {e : DomainError}
    (hprior : priorLegs (s.entriesOf r.reference) r = .error e) :
    (allocate r).runFrom s = (.error (.domain e), s) := by
  rw [allocate, runFrom_get_bind, hprior]
  rfl

theorem runFrom_allocate_repeated {legs : List LedgerEntry}
    (hprior : priorLegs (s.entriesOf r.reference) r = .ok (some legs)) :
    (allocate r).runFrom s = (.ok (.ofPrior r legs), s) := by
  rw [allocate, runFrom_get_bind, hprior]
  rfl

end MemoryStock

namespace Bounded

open MemoryStock (writePlan)

/-- What a plan leaves to be done, its lines included. -/
theorem writePlan_stopsUnless (s : StockState) (r : AllocationRequest) (p : AllocationPlan) :
    StopsUnless (NextLinesFit r.startLine p.legs.length) (.error .outOfRange, s)
      ((StoreM.ofResult (legMovementsFrom r r.startLine p.legs) >>= writePlan s p).runFrom s)
      ((writePlan s p (r.legMovements p.legs)).runFrom s) :=
  ((legMovementsFrom_stopsUnless r r.startLine p.legs).run_bind (.of_fits trivial rfl)).congr
    (iff_of_eq (and_true _))

/-- An order whose first line is free is planned, and the plan is written down. -/
theorem runFrom_allocate_free {s : StockState} {r : AllocationRequest}
    (hprior : priorLegs (s.entriesOf r.reference) r = .ok none) :
    (allocate r).runFrom s = (do
      let p ← StoreM.ofResult (planAllocation r.item r.warehouse r.quantity
        (s.candidates r.item r.warehouse) r.planOptions)
      let movements ← StoreM.ofResult (legMovementsFrom r r.startLine p.legs)
      writePlan s p movements).runFrom s := by
  rw [allocate, runFrom_get_bind, hprior]
  rfl

theorem runFrom_allocate_repeated {s : StockState} {r : AllocationRequest}
    {legs : List LedgerEntry} (hprior : priorLegs (s.entriesOf r.reference) r = .ok (some legs)) :
    (allocate r).runFrom s = (do
      let p ← StoreM.ofResult (planOfLegs r legs)
      pure ⟨p, legs, true⟩ : MemoryStock.Step AllocationResult).runFrom s := by
  rw [allocate, runFrom_get_bind, hprior]
  rfl

/-- An allocation that stops has written nothing. -/
theorem allocate_stopsUnless (s : StockState) (r : AllocationRequest) :
    StopsUnless (NumbersFit s r) (.error .outOfRange, s) ((store.allocate r).runFrom s)
      ((MemoryStock.store.allocate r).runFrom s) := by
  have hprior := priorLegs_stopsUnless (s.entriesOf r.reference) r
  show StopsUnless _ _ ((allocate r).runFrom s) ((MemoryStock.allocate r).runFrom s)
  cases hfound : Stockroom.priorLegs (s.entriesOf r.reference) r with
  | error e =>
    rw [hfound] at hprior
    rw [MemoryStock.runFrom_allocate_foreign hfound, allocate, runFrom_get_bind,
      hprior.exact nofun]
    exact .of_fits (numbersFit_of_refused hfound) rfl
  | ok found =>
    rw [hfound] at hprior
    cases found with
    | some legs =>
      rw [MemoryStock.runFrom_allocate_repeated hfound]
      by_cases hcounted : NextLinesFit r.startLine legs.length
      · have hlegs := hprior.exact fun _ heq => by cases heq; exact hcounted
        rw [runFrom_allocate_repeated hlegs]
        refine ((planOfLegs_stopsUnless r legs).run_bind (.of_fits trivial rfl)).congr ?_
        rw [numbersFit_iff_of_repeated hfound, and_true]
        exact (and_iff_right hcounted).symm
      · rw [allocate, runFrom_get_bind, hprior.stops fun h => hcounted (h legs rfl)]
        exact ⟨fun h => absurd (h.counted legs hfound) hcounted, fun _ => rfl⟩
    | none =>
      have hplan := planAllocation_stopsUnless r.item r.warehouse r.quantity
        (s.candidates r.item r.warehouse) r.planOptions
      rw [runFrom_allocate_free (hprior.exact nofun)]
      cases hp : s.planFor r with
      | error e =>
        have hrefused := hplan.trans_exact (congrArg (Except.mapError StoreError.domain) hp)
        rw [MemoryStock.runFrom_allocate_unplanned hfound hp]
        refine hrefused.run_bind_error.congr ?_
        rw [numbersFit_iff_of_free hfound]
        exact (and_iff_left fun p hok => by cases hp.symm.trans hok).symm
      | ok p =>
        have hplanned := hplan.trans_exact (congrArg (Except.mapError StoreError.domain) hp)
        rw [MemoryStock.runFrom_allocate_planned hfound hp]
        refine (hplanned.run_bind (writePlan_stopsUnless s r p)).congr ?_
        rw [numbersFit_iff_of_free hfound]
        refine and_congr_right fun _ => ⟨fun h q hq => ?_, fun h => h p hp⟩
        obtain rfl : p = q := Except.ok.inj (hp.symm.trans hq)
        exact h

end Bounded

end Stockroom
