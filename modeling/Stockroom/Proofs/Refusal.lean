/-
Stockroom.Proofs.Refusal — a call that fails has changed nothing.

Nothing is rolled back anywhere. That a failure leaves no trace rests on the order of the
steps: a movement is checked before its batch is created, the dates of the batch are checked
before its slot is set, and all legs of an allocation are checked before the first one is
written. `StockAction.ending` and `ReservationAction.step_cases` put this down for each call.
-/
import Stockroom.Proofs.Reservation.History
import Stockroom.Proofs.Stock.Ending

namespace Stockroom

open StoreM

/-- In every state that stock or reservations can be in, a call that fails leaves all of it
exactly as it was: ledger, index, slots and their numbers, batches, snapshots, reservations. -/
theorem failed_call_changes_nothing :
    (∀ s t : StockState, s.Reachable → ∀ (a : StockAction) (e : StoreError),
      a.step.runFrom s = (.error e, t) → t = s) ∧
    ∀ s t : ReservationState, s.Reachable → ∀ (a : ReservationAction) (e : StoreError),
      a.step.runFrom s = (.error e, t) → t = s := by
  constructor
  · intro s t hs a e hfail
    have hend := a.ending hs.attained
    rw [hfail] at hend
    cases hend with
    | refused => rfl
  · intro s t _ a e hfail
    rcases a.step_cases s with ⟨e', hrefused⟩ | ⟨u, hok, -⟩
    · rw [hrefused] at hfail
      cases hfail
      rfl
    · rw [hok] at hfail
      cases hfail

namespace Sample

/-- Stock where the second line of the order is taken by a pick. -/
def taken : StockState :=
  stock.run [.apply { pick with delta := -1, reference := "SO-1", line := 2 }]

theorem refused : ((StockAction.allocate (order 1 6)).step.runFrom taken).1 =
    .error (.domain (.conflict "ref_line 2 of SO-1 is already used")) := by rfl

theorem closed : ((ReservationAction.cancel (.ofNat 4) (minute 2)).step.runFrom promises).1 =
    .error (.domain (.conflict
      "cannot cancel reservation 00000000-0000-0000-0000-000000000004 in status cancelled")) := by
  rfl

end Sample

open Sample in
/-- An order whose second leg finds its line taken does not write the first one either, and a
promise that was cancelled is not cancelled again. -/
theorem failed_call_changes_nothing_taken :
    taken.Reachable ∧ promises.Reachable ∧
    ((StockAction.allocate (order 1 6)).step.runFrom taken).1 =
      .error (.domain (.conflict "ref_line 2 of SO-1 is already used")) ∧
    ((StockAction.allocate (order 1 6)).step.runFrom taken).2 = taken ∧
    ((ReservationAction.cancel (.ofNat 4) (minute 2)).step.runFrom promises).2 = promises := by
  have hs : taken.Reachable := reachable_stock.run _
  exact ⟨hs, reachable_promises, refused,
    failed_call_changes_nothing.1 _ _ hs _ _ (Prod.ext refused rfl),
    failed_call_changes_nothing.2 _ _ reachable_promises _ _ (Prod.ext closed rfl)⟩

end Stockroom
