/-
Stockroom.Proofs.Stock.Ending — how an action on stock can end.

* `Ending` lists the ways: the call is refused and has changed nothing, it has left all
  quantities alone, it has entered one movement, or it has entered the legs of a plan.
* `StockAction.ending`: in all stock there can be, every action ends in one of these ways. For
  an allocation this rests on what is checked before its first leg is written: no later leg can
  fail (`allocate_cases`).
-/
import Stockroom.Proofs.Stock.Allocation

namespace Stockroom

open StoreM MemoryStock

/-! ## Planning and allocating -/

namespace MemoryStock

theorem plan_snd (item : ItemId) (warehouse : WarehouseId) (quantity : Int)
    (options : PlanOptions) (s : StockState) :
    ((plan item warehouse quantity options).runFrom s).2 = s := by
  rw [plan, runFrom_get_bind]
  cases planAllocation item warehouse quantity (s.candidates item warehouse) options <;> rfl

/-- An allocation is refused before it has written anything, it is a repetition, or it enters
all the legs of its plan. -/
theorem allocate_cases {s : StockState} (hs : s.Attained) (r : AllocationRequest) :
    (∃ e : DomainError, (allocate r).runFrom s = (.error (.domain e), s)) ∨
    (∃ legs, (allocate r).runFrom s = (.ok (.ofPrior r legs), s)) ∨
    ∃ p, Planned s r p ∧ s.AdmitsAll (r.legMovements p.legs) ∧
      (allocate r).runFrom s =
        (.ok ⟨p, s.entriesFor (r.legMovements p.legs), false⟩,
          s.enterAll (r.legMovements p.legs)) := by
  rw [allocate, runFrom_get_bind]
  cases priorLegs (s.entriesOf r.reference) r with
  | error e => exact .inl ⟨e, rfl⟩
  | ok prior =>
    rw [runFrom_ofRule_ok_bind]
    cases prior with
    | some legs => exact .inr (.inl ⟨legs, rfl⟩)
    | none =>
      simp only [runFrom_bind, plan, runFrom_get]
      cases hplan : planAllocation r.item r.warehouse r.quantity
          (s.candidates r.item r.warehouse) r.planOptions with
      | error e => exact .inl ⟨e, rfl⟩
      | ok p =>
        simp only [runFrom_ofRule_ok]
        cases hcheck : checkLegs s (r.legMovements p.legs) with
        | error e => exact .inl ⟨e, rfl⟩
        | ok _ =>
          have hp := planned_of_planAllocation hplan
          have hall := admitsAll_legMovements hs hp hcheck
          refine .inr (.inr ⟨p, hp, hall, ?_⟩)
          simp only [runFrom_ofRule_ok, writeLegs_admitted hall, runFrom_pure]

end MemoryStock

/-! ## Actions -/

/-- The ways in which an action on the stock `s` can end. -/
inductive Ending (s : StockState) : StockAction → Except StoreError Unit × StockState → Prop where
  | refused {a : StockAction} (e : StoreError) : Ending s a (.error e, s)
  | kept {a : StockAction} {t : StockState} (slots : t.slots = s.slots)
      (ledger : t.ledger = s.ledger) : Ending s a (.ok (), t)
  | entered {m : Movement} {t : StockState} {after : Int} (readied : Readied s m.key t)
      (admitted : t.Admits m after) : Ending s (.apply m) (.ok (), t.enter m after)
  | allocated {r : AllocationRequest} {p : AllocationPlan} (planned : Planned s r p)
      (admitted : s.AdmitsAll (r.legMovements p.legs)) :
      Ending s (.allocate r) (.ok (), s.enterAll (r.legMovements p.legs))

theorem StockQuery.ending (q : StockQuery) (s : StockState) :
    Ending s (.query q) (q.step.runFrom s) := by
  cases q with
  | plan item warehouse quantity options =>
    have hs := plan_snd item warehouse quantity options s
    simp only [step, store, runFrom_bind]
    generalize (MemoryStock.plan item warehouse quantity options).runFrom s = out at hs ⊢
    obtain ⟨answer, t⟩ := out
    obtain rfl : t = s := hs
    cases answer with
    | error e => exact .refused e
    | ok p => exact .kept rfl rfl
  | _ => exact .kept rfl rfl

theorem ending_apply (m : Movement) (s : StockState) :
    Ending s (.apply m) ((StockAction.apply m).step.runFrom s) := by
  have h := writing m s
  simp only [StockAction.step, store, MemoryStock.apply, runFrom_bind]
  generalize (write m).runFrom s = out at h
  cases h with
  | refused e => exact .refused _
  | replayed valid found => exact .kept rfl rfl
  | unchanged valid zero => exact .kept rfl rfl
  | entered readied admitted => exact .entered readied admitted

/-- Every action ends in one of the listed ways. -/
theorem StockAction.ending {s : StockState} (hs : s.Attained) (a : StockAction) :
    Ending s a (a.step.runFrom s) := by
  cases a with
  | apply m => exact ending_apply m s
  | allocate r =>
    simp only [step, store, runFrom_bind]
    rcases allocate_cases hs r with ⟨e, h⟩ | ⟨legs, h⟩ | ⟨p, hp, hall, h⟩
    · rw [h]
      exact .refused _
    · rw [h]
      exact .kept rfl rfl
    · rw [h]
      exact .allocated hp hall
  | resolveBatch item warehouse code production expiry on =>
    simp only [step, store, runFrom_bind]
    rcases resolveBatch_cases item warehouse code production expiry on s with
      ⟨e, h⟩ | ⟨b, t, h, rfl | ⟨-, rfl⟩⟩
    · rw [h]
      exact .refused _
    · rw [h]
      exact .kept rfl rfl
    · rw [h]
      exact .kept rfl rfl
  | correctExpiry item warehouse code expiry =>
    simp only [step, store, runFrom_bind]
    rcases correctExpiry_cases item warehouse code expiry s with ⟨e, h⟩ | ⟨i, b, -, -, h⟩
    · rw [h]
      exact .refused _
    · rw [h]
      exact .kept rfl rfl
  | rebuildSnapshot d => exact .kept rfl rfl
  | query q => exact q.ending s
  | tick clock => exact .kept rfl rfl

end Stockroom
