/-
Stockroom.Proofs.Wire.Stock — movements, batches and allocations are read back.

For each record it is said which of its numbers are bounded and by what; that it is faithful
then follows member by member.
-/
import Stockroom.Proofs.Wire.Record

namespace Stockroom

open Wire

/-! ## Identifiers, times, names -/

instance : Ranged WarehouseId := ⟨fun w => IntegerRange.signed64.contains w.val = true⟩

instance : Ranged ItemId := ⟨fun i => IntegerRange.signed64.contains i.val = true⟩

instance : Faithful WarehouseId 0 where
  readsBack w h := by
    refine ⟨isPlain_signed64 h, fun o => ?_⟩
    show (int64? ((Json.integer w.val).inOrder o)).map WarehouseId.mk = some w
    rw [Json.inOrder_integer, int64?_integer h, Option.map_some]

instance : Faithful ItemId 0 where
  readsBack i h := by
    refine ⟨isPlain_signed64 h, fun o => ?_⟩
    show (int64? ((Json.integer i.val).inOrder o)).map ItemId.mk = some i
    rw [Json.inOrder_integer, int64?_integer h, Option.map_some]

instance : Faithful TraceId 0 :=
  .ofText (fun s => some ⟨s⟩) (fun _ => rfl) (fun _ => rfl) (fun _ => rfl)

instance : Faithful BatchKey 0 :=
  .ofText (fun s => some ⟨s⟩) (fun _ => rfl) (fun _ => rfl) (fun _ => rfl)

instance : Faithful Uuid 0 := .ofText Uuid.read? (fun _ => rfl) (fun _ => rfl) Uuid.read?_text

instance : Faithful Date 0 := .ofText Date.read? (fun _ => rfl) (fun _ => rfl) Date.read?_text

instance : Faithful Instant 0 :=
  .ofText Instant.read? (fun _ => rfl) (fun _ => rfl) Instant.read?_text

instance : Faithful Reason 0 :=
  .ofText Reason.ofText? (fun _ => rfl) (fun _ => rfl) Reason.ofText?_text

instance : NeverNull TraceId := .ofText (fun _ => rfl)

instance : NeverNull Date := .ofText (fun _ => rfl)

/-! ## Slots and movements -/

instance : Ranged StockKey := ⟨fun k => InRange k.warehouse ∧ InRange k.item⟩

instance : Faithful StockKey 1 where
  readsBack _ h := by
    obtain ⟨hwarehouse, hitem⟩ := h
    exact .ofRecord rfl (fun _ => rfl) (by simp) (by simp [*]) fun _ _ _ => by simp [*]

instance : Ranged Movement :=
  ⟨fun m => InRange m.key ∧ IntegerRange.signed64.contains m.delta = true ∧
    IntegerRange.signed32.contains m.line = true⟩

instance : Faithful Movement 2 where
  readsBack _ h := by
    obtain ⟨hkey, hdelta, hline⟩ := h
    exact .ofRecord rfl (fun _ => rfl) (by simp) (by simp [*]) fun _ _ _ => by simp [*]

instance : Ranged LedgerEntry :=
  ⟨fun e => IntegerRange.signed64.contains e.id = true ∧ InRange e.key ∧
    IntegerRange.signed64.contains e.delta = true ∧ IntegerRange.signed32.contains e.line = true ∧
    IntegerRange.signed64.contains e.after = true⟩

instance : Faithful LedgerEntry 2 where
  readsBack _ h := by
    obtain ⟨hid, hkey, hdelta, hline, hafter⟩ := h
    exact .ofRecord rfl (fun _ => rfl) (by simp) (by simp [*]) fun _ _ _ => by simp [*]

/-! ## Batches -/

instance : Ranged Batch :=
  ⟨fun b => IntegerRange.signed64.contains b.id = true ∧ InRange b.item ∧ InRange b.warehouse⟩

instance : Faithful Batch 1 where
  readsBack _ h := by
    obtain ⟨hid, hitem, hwarehouse⟩ := h
    exact .ofRecord rfl (fun _ => rfl) (by simp [Batch.members]) (by simp [Batch.members, *])
      fun _ _ _ => by simp [Batch.members, *]

/-! ## Allocations -/

instance : Ranged AllocationLeg :=
  ⟨fun l => InRange l.key ∧ IntegerRange.signed64.contains l.quantity = true⟩

instance : Faithful AllocationLeg 2 where
  readsBack _ h := by
    obtain ⟨hkey, hquantity⟩ := h
    exact .ofRecord rfl (fun _ => rfl) (by simp) (by simp [*]) fun _ _ _ => by simp [*]

instance : Faithful FefoOutcome 1 where
  readsBack outcome _ := by
    cases outcome with
    | strict =>
      refine .ofTagged rfl (fun _ => rfl) (by simp) (by simp) fun _ _ hj => ?_
      exact record?_bind hj fun _ _ => rfl
    | fallback used head =>
      refine .ofTagged rfl (fun _ => rfl) (by simp) (by simp) fun _ _ hj => ?_
      exact record?_bind hj fun _ _ => by simp [*]

instance : Ranged AllocationPlan :=
  ⟨fun p => InRange p.item ∧ InRange p.warehouse ∧
    IntegerRange.signed64.contains p.requested = true ∧ InRange p.legs⟩

instance : Faithful AllocationPlan 4 where
  readsBack _ h := by
    obtain ⟨hitem, hwarehouse, hrequested, hlegs⟩ := h
    exact .ofRecord rfl (fun _ => rfl) (by simp) (by simp [*]) fun _ _ _ => by simp [*]

instance : Ranged AllocationResult := ⟨fun r => InRange r.plan ∧ InRange r.entries⟩

instance : Faithful AllocationResult 5 where
  readsBack _ h := by
    obtain ⟨hplan, hentries⟩ := h
    exact .ofRecord rfl (fun _ => rfl) (by simp) (by simp [*]) fun _ _ _ => by simp [*]

end Stockroom
