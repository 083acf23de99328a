/-
Stockroom.Proofs.Wire.Reports — reservations and what is reported are read back.

As for movements, it is said of each record which of its numbers are bounded and by what. The
groups of a diagnosis are maps with text keys, so that only their values are bounded.
-/
import Stockroom.Proofs.Wire.Stock
import Stockroom.Wire.Engine
import Stockroom.Wire.Reservation

namespace Stockroom

open Wire

/-! ## Reservations -/

instance : Faithful ReservationStatus 0 :=
  .ofText ReservationStatus.ofText? (fun _ => rfl) (fun _ => rfl) ReservationStatus.ofText?_text

instance : Ranged ReservationKey := ⟨fun k => InRange k.warehouse⟩

instance : Faithful ReservationKey 1 where
  readsBack k h := by
    have hwarehouse : InRange k.warehouse := h
    exact .ofRecord rfl (fun _ => rfl) (by simp) (by simp [*]) fun _ _ _ => by simp [*]

instance : Ranged NewReservationLine :=
  ⟨fun l => IntegerRange.signed32.contains l.line = true ∧ InRange l.item ∧
    IntegerRange.signed64.contains l.quantity = true⟩

instance : Faithful NewReservationLine 1 where
  readsBack _ h := by
    obtain ⟨hline, hitem, hquantity⟩ := h
    exact .ofRecord rfl (fun _ => rfl) (by simp) (by simp [*]) fun _ _ _ => by simp [*]

instance : Ranged NewReservation := ⟨fun n => InRange n.key ∧ InRange n.lines⟩

instance : Faithful NewReservation 3 where
  readsBack _ h := by
    obtain ⟨hkey, hlines⟩ := h
    exact .ofRecord rfl (fun _ => rfl) (by simp) (by simp [*]) fun _ _ _ => by simp [*]

instance : Ranged ReservationLine :=
  ⟨fun l => IntegerRange.signed32.contains l.line = true ∧ InRange l.item ∧
    IntegerRange.signed64.contains l.quantity = true ∧
    IntegerRange.signed64.contains l.consumed = true⟩

instance : Faithful ReservationLine 1 where
  readsBack _ h := by
    obtain ⟨hline, hitem, hquantity, hconsumed⟩ := h
    exact .ofRecord rfl (fun _ => rfl) (by simp) (by simp [*]) fun _ _ _ => by simp [*]

instance : Ranged Reservation := ⟨fun r => InRange r.key ∧ InRange r.lines⟩

instance : Faithful Reservation 3 where
  readsBack _ h := by
    obtain ⟨hkey, hlines⟩ := h
    exact .ofRecord rfl (fun _ => rfl) (by simp) (by simp [*]) fun _ _ _ => by simp [*]

/-! ## Comparisons -/

instance : Faithful MismatchKind 0 :=
  .ofText MismatchKind.ofText? (fun _ => rfl) (fun _ => rfl) MismatchKind.ofText?_text

instance : Ranged Mismatch :=
  ⟨fun m => InRange m.key ∧ IntegerRange.signed64.contains m.left = true ∧
    IntegerRange.signed64.contains m.right = true ∧ IntegerRange.signed64.contains m.diff = true⟩

instance : Faithful Mismatch 2 where
  readsBack _ h := by
    obtain ⟨hkey, hleft, hright, hdiff⟩ := h
    exact .ofRecord rfl (fun _ => rfl) (by simp) (by simp [*]) fun _ _ _ => by simp [*]

instance : Ranged ReconciliationReport :=
  ⟨fun r => IntegerRange.unsigned64.contains r.stockKeys = true ∧
    IntegerRange.unsigned64.contains r.matchingStockKeys = true ∧ InRange r.ledgerVsStock ∧
    InRange r.ledgerVsSnapshot ∧ InRange r.stockVsSnapshot⟩

instance : Faithful ReconciliationReport 4 where
  readsBack _ h := by
    obtain ⟨hkeys, hmatching, hstock, hsnapshot, hboth⟩ := h
    exact .ofRecord rfl (fun _ => rfl) (by simp) (by simp [*]) fun _ _ _ => by simp [*]

/-! ## Diagnostics -/

instance : Ranged DeltaSummary :=
  ⟨fun s => IntegerRange.unsigned64.contains s.count = true ∧
    IntegerRange.signed64.contains s.total = true⟩

instance : Faithful DeltaSummary 1 where
  readsBack _ h := by
    obtain ⟨hcount, htotal⟩ := h
    exact .ofRecord rfl (fun _ => rfl) (by simp) (by simp [*]) fun _ _ _ => by simp [*]

instance : Ranged LedgerDiagnostics :=
  ⟨fun d => InRange d.byClass.values ∧ InRange d.byReference.values ∧ InRange d.byTrace.values⟩

instance : Faithful LedgerDiagnostics 3 where
  readsBack d h := by
    obtain ⟨hclass, hreference, htrace⟩ := h
    have hplain {κ : Type} [Ord κ] {keyText : κ → String} {m : OrderedMap κ DeltaSummary}
        (hm : InRange m.values) : (ofMap keyText toJson m).isPlain 2 = true :=
      isPlain_ofMap m fun s hs => isPlain_toJson (hm s hs) (Nat.le_refl 1)
    refine .ofRecord rfl (fun _ => rfl) (by simp) (by simp [*]) fun o _ _ => ?_
    have hbyClass := mapOf?_ofMap (o := o) MovementClass.ofText?_text d.byClass fun s hs =>
      ofJson?_inOrder (hclass s hs)
    have hbyText {m : OrderedMap String DeltaSummary} (hm : InRange m.values) :
        mapOf? some ofJson? ((ofMap id toJson m).inOrder o) = some m :=
      mapOf?_ofMap (fun _ => rfl) m fun s hs => ofJson?_inOrder (hm s hs)
    simp [*]

/-! ## Commit checks -/

/-- The numbers of an inconsistency. -/
instance : Ranged CommitIssue where
  InRange
    | .missingLedger key line => InRange key ∧ IntegerRange.signed32.contains line = true
    | .deltaMismatch key line expected recorded =>
      InRange key ∧ IntegerRange.signed32.contains line = true ∧
        IntegerRange.signed64.contains expected = true ∧
        IntegerRange.signed64.contains recorded = true
    | .stockDrift key ledger stock =>
      InRange key ∧ IntegerRange.signed64.contains ledger = true ∧
        IntegerRange.signed64.contains stock = true

instance : Faithful CommitIssue 2 where
  readsBack issue h := by
    cases issue with
    | missingLedger key line =>
      obtain ⟨hkey, hline⟩ := h
      refine .ofTagged rfl (fun _ => rfl) (by simp) (by simp [*]) fun _ _ hj => ?_
      exact record?_bind hj fun _ _ => by simp [*]
    | deltaMismatch key line expected recorded =>
      obtain ⟨hkey, hline, hexpected, hrecorded⟩ := h
      refine .ofTagged rfl (fun _ => rfl) (by simp) (by simp [*]) fun _ _ hj => ?_
      exact record?_bind hj fun _ _ => by simp [*]
    | stockDrift key ledger stock =>
      obtain ⟨hkey, hledger, hstock⟩ := h
      refine .ofTagged rfl (fun _ => rfl) (by simp) (by simp [*]) fun _ _ hj => ?_
      exact record?_bind hj fun _ _ => by simp [*]

instance : Ranged CommitCheck :=
  ⟨fun c => IntegerRange.unsigned64.contains c.touched = true ∧ InRange c.issues⟩

instance : Faithful CommitCheck 4 where
  readsBack _ h := by
    obtain ⟨htouched, hissues⟩ := h
    exact .ofRecord rfl (fun _ => rfl) (by simp) (by simp [*]) fun _ _ _ => by simp [*]

/-! ## Sweeps -/

instance : Faithful SweepFailure 1 where
  readsBack _ _ :=
    .ofRecord rfl (fun _ => rfl) (by simp) (by simp) fun _ _ _ => by simp [*]

instance : Ranged SweepReport :=
  ⟨fun r => IntegerRange.unsigned64.contains r.batches = true ∧
    IntegerRange.unsigned64.contains r.noops = true⟩

instance : Faithful SweepReport 3 where
  readsBack _ h := by
    obtain ⟨hbatches, hnoops⟩ := h
    exact .ofRecord rfl (fun _ => rfl) (by simp) (by simp [*]) fun _ _ _ => by simp [*]

end Stockroom
