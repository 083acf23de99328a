/-
Stockroom.Proofs.Stock.PriorLegs — what a look-up of earlier legs finds.

A look-up gets the rows of a reference in any order, among them rows of other items and lines with
gaps. `PriorRun` says what it is to find: the rows from the first line of the request on, one line
after the other, as many of them as take stock of the item out of the warehouse.

* `legsFrom_iff` and `ended_iff` tie this to how the code collects legs, row by row.
* There is no more than one such run (`PriorRun.unique`), and if the first of its rows is there, the
  look-up finds it (`priorLegs_eq_some_iff`). `priorLegs_eq_none_iff` and `priorLegs_eq_error_iff`
  are the two other answers.
* `prior_legs_found` puts them together with the plan that is made of the rows.
-/
import Stockroom.Proofs.Stock.Independence

namespace Stockroom

/-! ## Runs of rows -/

namespace AllocationRequest

/-- Whether a row takes stock of the requested item out of the requested warehouse. -/
def IsServedBy (r : AllocationRequest) (e : LedgerEntry) : Prop :=
  e.key.item = r.item ∧ e.key.warehouse = r.warehouse ∧ e.delta < 0

instance (r : AllocationRequest) (e : LedgerEntry) : Decidable (r.IsServedBy e) :=
  inferInstanceAs (Decidable (_ ∧ _))

theorem isLeg_iff {r : AllocationRequest} {e : LedgerEntry} :
    r.isLeg e = true ↔ r.IsServedBy e := by
  simp only [isLeg, StockKey.isOf, IsServedBy, Bool.and_eq_true, beq_iff_eq, decide_eq_true_eq,
    and_assoc]

end AllocationRequest

open AllocationRequest

/-- What an earlier request has left among the rows of a reference: rows that serve the request,
on its first line and the ones right behind it, up to the first line that has no such row. -/
structure PriorRun (r : AllocationRequest) (entries legs : List LedgerEntry) : Prop where
  nonempty : legs ≠ []
  each : ∀ i (hi : i < legs.length),
    legs[i] ∈ entries ∧ legs[i].line = r.startLine + i ∧ r.IsServedBy legs[i]
  maximal : ∀ e ∈ entries, e.line = r.startLine + legs.length → ¬ r.IsServedBy e

section Runs

variable {r : AllocationRequest} {entries legs legs' : List LedgerEntry} {line : Int}

theorem legsFrom_iff :
    LegsFrom r entries line legs ↔ ∀ i (hi : i < legs.length),
      legs[i] ∈ entries ∧ legs[i].line = line + i ∧ r.IsServedBy legs[i] := by
  induction legs generalizing line with
  | nil => exact iff_of_true trivial (fun i hi => absurd hi (Nat.not_lt_zero i))
  | cons e rest ih =>
    rw [LegsFrom, isLeg_iff, ih]
    constructor
    · rintro ⟨hmem, hserved, hline, hrest⟩ i hi
      cases i with
      | zero => exact ⟨hmem, by simpa using hline, hserved⟩
      | succ i =>
        obtain ⟨hmem', hline', hserved'⟩ := hrest i (Nat.lt_of_succ_lt_succ hi)
        exact ⟨hmem', by rw [List.getElem_cons_succ, hline']; omega, hserved'⟩
    · intro h
      obtain ⟨hmem, hline, hserved⟩ := h 0 (Nat.succ_pos _)
      refine ⟨hmem, hserved, by simpa using hline, fun i hi => ?_⟩
      obtain ⟨hmem', hline', hserved'⟩ := h (i + 1) (Nat.succ_lt_succ hi)
      rw [List.getElem_cons_succ] at hmem' hline' hserved'
      exact ⟨hmem', by omega, hserved'⟩

theorem ended_iff :
    Ended r entries line ↔ ∀ e ∈ entries, e.line = line → ¬ r.IsServedBy e := by
  simp only [Ended, ← isLeg_iff, Bool.not_eq_true]

theorem priorRun_iff :
    PriorRun r entries legs ↔ legs ≠ [] ∧ LegsFrom r entries r.startLine legs ∧
      Ended r entries (r.startLine + legs.length) := by
  rw [legsFrom_iff, ended_iff]
  exact ⟨fun h => ⟨h.nonempty, h.each, h.maximal⟩, fun h => ⟨h.1, h.2.1, h.2.2⟩⟩

/-- A run begins with the row on the first line. -/
theorem PriorRun.exists_head (h : PriorRun r entries legs) :
    ∃ e ∈ entries, e.line = r.startLine ∧ r.IsServedBy e := by
  obtain ⟨hmem, hline, hserved⟩ := h.each 0 (List.length_pos_iff.mpr h.nonempty)
  exact ⟨_, hmem, by simpa using hline, hserved⟩

/-- Where each line has one row, there is one run at most: each of two is the front of the other. -/
theorem PriorRun.unique (hone : (entries.map (·.line)).Nodup) (h : PriorRun r entries legs)
    (h' : PriorRun r entries legs') : legs = legs' := by
  obtain ⟨-, hlegs, hend⟩ := priorRun_iff.mp h
  obtain ⟨-, hlegs', hend'⟩ := priorRun_iff.mp h'
  exact (hlegs.prefix_of_ended hone hlegs' hend').eq_of_length_le
    (hlegs'.prefix_of_ended hone hlegs hend).length_le

/-! ## Looking up -/

/-- Nothing is found if no row stands on the first line. -/
theorem priorLegs_eq_none_iff :
    priorLegs entries r = .ok none ↔ ∀ e ∈ entries, e.line ≠ r.startLine := by
  have hfind : entries.find? (fun e => e.line == r.startLine) = none ↔
      ∀ e ∈ entries, e.line ≠ r.startLine := by
    simp only [List.find?_eq_none, beq_iff_eq]
  rw [← hfind, priorLegs]
  cases entries.find? (fun e => e.line == r.startLine) with
  | none => exact iff_of_true rfl rfl
  | some head =>
    refine iff_of_false (fun h => ?_) (fun h => Option.some_ne_none head h)
    dsimp only at h
    split at h <;> cases h

/-- The look-up is refused if the row on the first line does not serve the request. -/
theorem priorLegs_eq_error_iff (hone : (entries.map (·.line)).Nodup) {e : DomainError} :
    priorLegs entries r = .error e ↔
      e = .conflict s!"ref_line {r.startLine} of {r.reference} is used by another movement" ∧
        ∃ head ∈ entries, head.line = r.startLine ∧ ¬ r.IsServedBy head := by
  constructor
  · intro h
    unfold priorLegs at h
    split at h
    case h_1 => cases h
    case h_2 head hfind =>
      obtain ⟨hmem, hline⟩ := (find?_key_eq_some_iff hone).mp hfind
      split at h
      case isTrue => cases h
      case isFalse hleg =>
        cases h
        exact ⟨rfl, head, hmem, hline, fun hserved => hleg (isLeg_iff.mpr hserved)⟩
  · rintro ⟨rfl, head, hmem, hline, hother⟩
    have hfind : entries.find? (fun e => e.line == r.startLine) = some head :=
      (find?_key_eq_some_iff hone).mpr ⟨hmem, hline⟩
    rw [priorLegs, hfind]
    exact if_neg fun hleg => hother (isLeg_iff.mp hleg)

/-- Rows are found exactly if they are a run. -/
theorem priorLegs_eq_some_iff (hone : (entries.map (·.line)).Nodup) :
    priorLegs entries r = .ok (some legs) ↔ PriorRun r entries legs := by
  -- whatever row opens a run, the look-up finds the run that it opens
  have hfound : ∀ head ∈ entries, head.line = r.startLine → r.IsServedBy head →
      ∃ found, priorLegs entries r = .ok (some found) ∧ PriorRun r entries found := by
    intro head hmem hline hserved
    obtain ⟨found, hprior, hlegs, hend⟩ := priorLegs_of_mem hone hmem hline (isLeg_iff.mpr hserved)
    refine ⟨found, hprior, priorRun_iff.mpr ⟨fun hnil => ?_, hlegs, hend⟩⟩
    exact ended_iff.mp ((hlegs.eq_nil_iff hend).mp hnil) head hmem hline hserved
  constructor
  · intro h
    have hhead : ∃ head ∈ entries, head.line = r.startLine ∧ r.IsServedBy head := by
      by_contra hnone
      push Not at hnone
      by_cases hfree : ∀ e ∈ entries, e.line ≠ r.startLine
      · rw [priorLegs_eq_none_iff.mpr hfree] at h
        cases h
      · push Not at hfree
        obtain ⟨head, hmem, hline⟩ := hfree
        rw [(priorLegs_eq_error_iff hone).mpr ⟨rfl, head, hmem, hline, hnone head hmem hline⟩] at h
        cases h
    obtain ⟨head, hmem, hline, hserved⟩ := hhead
    obtain ⟨found, hprior, hrun⟩ := hfound head hmem hline hserved
    rw [h] at hprior
    cases hprior
    exact hrun
  · intro h
    obtain ⟨head, hmem, hline, hserved⟩ := h.exists_head
    obtain ⟨found, hprior, hrun⟩ := hfound head hmem hline hserved
    rw [hprior, hrun.unique hone h]

/-! ## The plan of a run -/

/-- The plan that is made of rows has a leg for each of them, in their order. -/
theorem map_legs_planOfLegs (r : AllocationRequest) (legs : List LedgerEntry) :
    (planOfLegs r legs).legs.map (fun leg => (leg.key, leg.quantity)) =
      legs.map (fun e => (e.key, -e.delta)) := List.map_map

/-- It asks for as much as it takes. -/
theorem requested_planOfLegs (r : AllocationRequest) (legs : List LedgerEntry) :
    (planOfLegs r legs).requested = (planOfLegs r legs).allocated :=
  (sumOf_map AllocationLeg.quantity (fun e : LedgerEntry => ⟨e.key, -e.delta, none⟩) legs).symm

/-- If the rows serve a request, each leg takes something. -/
theorem PriorRun.pos_of_mem_planOfLegs (h : PriorRun r entries legs) :
    ∀ leg ∈ (planOfLegs r legs).legs, 0 < leg.quantity := by
  intro leg hleg
  obtain ⟨e, he, rfl⟩ := List.mem_map.mp hleg
  obtain ⟨i, hi, rfl⟩ := List.getElem_of_mem he
  obtain ⟨-, -, -, -, hout⟩ := h.each i hi
  exact Int.neg_pos_of_neg hout

end Runs

/-- A look-up among rows that each have a line of their own finds nothing exactly if the first line
is free, is refused exactly if the row there does not serve the request, and finds what is a run of
rows from there on otherwise, which is as long as it can be. In which order the rows are listed does
not matter. The plan of the rows that are found has a leg for each of them, which takes out of
the slot of the row what the row took out, and asks for what it takes together. -/
theorem prior_legs_found (entries : List LedgerEntry) (r : AllocationRequest)
    (hone : (entries.map (·.line)).Nodup) :
    (priorLegs entries r = .ok none ↔ ∀ e ∈ entries, e.line ≠ r.startLine) ∧
    (∀ e, priorLegs entries r = .error e ↔
      e = .conflict s!"ref_line {r.startLine} of {r.reference} is used by another movement" ∧
        ∃ head ∈ entries, head.line = r.startLine ∧ ¬ r.IsServedBy head) ∧
    (∀ legs, priorLegs entries r = .ok (some legs) ↔ PriorRun r entries legs) ∧
    (∀ entries', entries.Perm entries' → priorLegs entries' r = priorLegs entries r) ∧
    ∀ legs, priorLegs entries r = .ok (some legs) →
      (planOfLegs r legs).legs.map (fun leg => (leg.key, leg.quantity)) =
        legs.map (fun e => (e.key, -e.delta)) ∧
      (∀ leg ∈ (planOfLegs r legs).legs, 0 < leg.quantity) ∧
      (planOfLegs r legs).requested = (planOfLegs r legs).allocated := by
  refine ⟨priorLegs_eq_none_iff, fun e => priorLegs_eq_error_iff hone,
    fun legs => priorLegs_eq_some_iff hone, fun entries' h => (priorLegs_perm hone h r).symm,
    fun legs h => ?_⟩
  have hrun := (priorLegs_eq_some_iff hone).mp h
  exact ⟨map_legs_planOfLegs r legs, hrun.pos_of_mem_planOfLegs, requested_planOfLegs r legs⟩

namespace Sample

/-- A row of the order that takes three of a batch, on some line. -/
def served (code : String) (line : Int) : LedgerEntry :=
  ((order 1 6).legMovement ⟨key code, 3, none⟩ line).toEntry line 0

/-- Rows of one reference, the last ones first: lines 2 to 4 take stock of the item out, line 5 puts
some back, line 6 is another item's, and line 7 takes stock of the item out again. -/
def scattered : List LedgerEntry :=
  [served "C" 7, { served "A" 6 with key := ⟨⟨1⟩, ⟨11⟩, ⟨"A"⟩⟩ }, { served "A" 5 with delta := 3 },
    served "B" 3, served "A" 4, served "A" 2]

end Sample

open Sample in
/-- From line 2 on there are three rows, from line 7 on one; lines 5 and 6 serve nothing, and line 1
is free. -/
theorem prior_legs_found_scattered :
    (scattered.map (·.line)).Nodup ∧
    priorLegs scattered (order 2 9) = .ok (some [served "A" 2, served "B" 3, served "A" 4]) ∧
    priorLegs scattered.reverse (order 2 9) = priorLegs scattered (order 2 9) ∧
    (planOfLegs (order 2 9) [served "A" 2, served "B" 3, served "A" 4]).requested = 9 ∧
    priorLegs scattered (order 7 3) = .ok (some [served "C" 7]) ∧
    (∃ e, priorLegs scattered (order 5 3) = .error e) ∧
    (∃ e, priorLegs scattered (order 6 3) = .error e) ∧
    priorLegs scattered (order 1 9) = .ok none := by
  have hone : (scattered.map (·.line)).Nodup := by decide
  have hfirst := prior_legs_found scattered (order 2 9) hone
  refine ⟨hone, (hfirst.2.2.1 _).mpr ⟨by decide, by decide, by decide⟩,
    hfirst.2.2.2.1 _ (List.reverse_perm _).symm, by decide, ?_, ?_, ?_, ?_⟩
  · exact ((prior_legs_found scattered (order 7 3) hone).2.2.1 _).mpr
      ⟨by decide, by decide, by decide⟩
  · exact ⟨_, ((prior_legs_found scattered (order 5 3) hone).2.1 _).mpr ⟨rfl, by decide⟩⟩
  · exact ⟨_, ((prior_legs_found scattered (order 6 3) hone).2.1 _).mpr ⟨rfl, by decide⟩⟩
  · exact (prior_legs_found scattered (order 1 9) hone).1.mpr (by decide)

end Stockroom
