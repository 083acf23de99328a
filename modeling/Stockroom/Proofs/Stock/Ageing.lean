/-
Stockroom.Proofs.Stock.Ageing — the ageing report lists what is close to expiry.

* `RiskLevel.Covers` says which days left a level stands for, `Batch.isAgeing` which batches the
  report is to list, and `BatchAgeing.Shows` what the row of a batch says. A row is made exactly
  for such batches (`BatchAgeing.ofBatch?_eq_some_iff`).
* `BatchAgeing.Before` is the order of the report, said without the code's comparison. Rows that
  stand at the same place are the same row, since the days left settle expiry date and risk
  (`BatchAgeing.eq_of_order_eq`). So it does not matter how the batches were listed.
* The score counts points for all batches that expire, and the report leaves some of them out.
  For a window of thirty days or more these have no points (`weight_ofBatch?`).
-/
import Mathlib.Data.List.Forall2
import Mathlib.Data.String.Basic
import Stockroom.Proofs.Stock.History
import Stockroom.Stock.Insights

namespace Stockroom

/-! ## Risk levels -/

namespace RiskLevel

/-- Whether a level stands for so many days left. What has expired is at high risk. -/
def Covers : RiskLevel → Int → Prop
  | high, days => days ≤ 7
  | medium, days => 7 < days ∧ days ≤ 14
  | low, days => 14 < days ∧ days ≤ 30

variable {r : RiskLevel} {days : Int}

theorem ofDaysLeft_eq_some_iff : ofDaysLeft days = some r ↔ r.Covers days := by
  unfold ofDaysLeft
  cases r <;> simp only [Covers] <;> split_ifs <;> simp <;> omega

/-- More than thirty days left are no risk. -/
theorem ofDaysLeft_eq_none_iff : ofDaysLeft days = none ↔ 30 < days := by
  unfold ofDaysLeft
  split_ifs <;> simp <;> omega

end RiskLevel

/-! ## Rows -/

/-- Whether a batch is to be listed: it expires, and so many days are left at most, and no more
than thirty. -/
def Batch.isAgeing (today : Date) (within : Int) (b : Batch) : Bool :=
  (b.daysLeft today).any (fun days => decide (days ≤ min within 30))

namespace BatchAgeing

/-- What the row of a batch says on a day. -/
structure Shows (today : Date) (b : Batch) (row : BatchAgeing) : Prop where
  item : row.item = b.item
  warehouse : row.warehouse = b.warehouse
  code : row.code = b.code
  expiry : b.expiry = some row.expiry
  daysLeft : row.daysLeft = row.expiry.daysSince today
  risk : row.risk.Covers row.daysLeft

variable {today : Date} {within : Int} {b : Batch} {row row' : BatchAgeing}

theorem ofBatch?_eq_some_iff :
    ofBatch? today within b = some row ↔ Shows today b row ∧ row.daysLeft ≤ within := by
  constructor
  · intro h
    simp only [ofBatch?, Option.bind_eq_bind, Option.bind_eq_some_iff] at h
    obtain ⟨expiry, hexpiry, risk, hrisk, h⟩ := h
    split at h
    · next hwithin =>
      cases h
      exact ⟨⟨rfl, rfl, rfl, hexpiry, rfl, RiskLevel.ofDaysLeft_eq_some_iff.mp hrisk⟩, hwithin⟩
    · cases h
  · rintro ⟨⟨hitem, hwarehouse, hcode, hexpiry, hdays, hrisk⟩, hwithin⟩
    obtain ⟨item, warehouse, code, expiry, daysLeft, risk⟩ := row
    dsimp only at hitem hwarehouse hcode hexpiry hdays hrisk hwithin
    subst hitem hwarehouse hcode hdays
    simp [ofBatch?, hexpiry, RiskLevel.ofDaysLeft_eq_some_iff.mpr hrisk, hwithin]

/-- There is a row for each batch that is to be listed, -/
theorem exists_ofBatch? (h : b.isAgeing today within = true) :
    ∃ row, ofBatch? today within b = some row ∧ Shows today b row := by
  rw [Batch.isAgeing, Batch.daysLeft, Option.any_map, Option.any_eq_true] at h
  obtain ⟨expiry, hexpiry, hdays⟩ := h
  have hdays : expiry.daysSince today ≤ min within 30 := of_decide_eq_true hdays
  obtain ⟨risk, hrisk⟩ : ∃ risk, RiskLevel.ofDaysLeft (expiry.daysSince today) = some risk := by
    rw [← Option.ne_none_iff_exists', ne_eq, RiskLevel.ofDaysLeft_eq_none_iff]
    omega
  have hshows : Shows today b
      ⟨b.item, b.warehouse, b.code, expiry, expiry.daysSince today, risk⟩ :=
    ⟨rfl, rfl, rfl, hexpiry, rfl, RiskLevel.ofDaysLeft_eq_some_iff.mp hrisk⟩
  exact ⟨_, ofBatch?_eq_some_iff.mpr ⟨hshows, hdays.trans (min_le_left _ _)⟩, hshows⟩

/-- and for no other one. -/
theorem ofBatch?_eq_none (h : ¬ b.isAgeing today within = true) : ofBatch? today within b = none := by
  rw [Option.eq_none_iff_forall_ne_some]
  intro row hrow
  obtain ⟨hshows, hwithin⟩ := ofBatch?_eq_some_iff.mp hrow
  refine h ?_
  have hthirty : row.daysLeft ≤ 30 := by
    have hrisk := hshows.risk
    unfold RiskLevel.Covers at hrisk
    split at hrisk <;> omega
  rw [Batch.isAgeing, Batch.daysLeft, hshows.expiry, Option.map_some, Option.any_some,
    ← hshows.daysLeft, decide_eq_true_iff]
  exact le_min hwithin hthirty

/-- The rows made of batches are those of the listed ones, one for each. -/
theorem forall₂_shows (today : Date) (within : Int) (batches : List Batch) :
    List.Forall₂ (Shows today) (batches.filter (Batch.isAgeing today within))
      (batches.filterMap (ofBatch? today within)) := by
  induction batches with
  | nil => exact .nil
  | cons b batches ih =>
    by_cases h : b.isAgeing today within = true
    · obtain ⟨row, hrow, hshows⟩ := exists_ofBatch? h
      rw [List.filter_cons_of_pos h, List.filterMap_cons_some hrow]
      exact .cons hshows ih
    · rw [List.filter_cons_of_neg h, List.filterMap_cons_none (ofBatch?_eq_none h)]
      exact ih

/-! ## The order of the report -/

/-- Whether a row is to stand before another one: the one with fewer days left, then by warehouse,
item and code. -/
def Before (a b : BatchAgeing) : Prop :=
  a.daysLeft < b.daysLeft ∨ a.daysLeft = b.daysLeft ∧
    (a.warehouse.val < b.warehouse.val ∨ a.warehouse = b.warehouse ∧
      (a.item.val < b.item.val ∨ a.item = b.item ∧ a.code < b.code))

instance : Std.TransCmp order :=
  inferInstanceAs (Std.TransCmp (compareLex (compareOn BatchAgeing.daysLeft)
    (compareLex (compareOn BatchAgeing.warehouse)
      (compareLex (compareOn BatchAgeing.item) (compareOn BatchAgeing.code)))))

theorem order_eq_then (a b : BatchAgeing) :
    order a b = (compare a.daysLeft b.daysLeft).then ((compare a.warehouse b.warehouse).then
      ((compare a.item b.item).then (compare a.code b.code))) := rfl

theorem order_eq_lt_iff {a b : BatchAgeing} : order a b = .lt ↔ a.Before b := by
  have hwarehouse : compare a.warehouse b.warehouse = .lt ↔ a.warehouse.val < b.warehouse.val :=
    Int.compare_eq_lt
  have hitem : compare a.item b.item = .lt ↔ a.item.val < b.item.val := Int.compare_eq_lt
  rw [order_eq_then, Ordering.then_eq_lt, Ordering.then_eq_lt, Ordering.then_eq_lt,
    Int.compare_eq_lt, hwarehouse, hitem, compare_lt_iff_lt,
    Std.LawfulEqOrd.compare_eq_iff_eq, Std.LawfulEqOrd.compare_eq_iff_eq,
    Std.LawfulEqOrd.compare_eq_iff_eq]
  rfl

/-- Whatever stands behind a row is not to stand before it. -/
theorem isLE_order_iff {a b : BatchAgeing} : (order a b).isLE = true ↔ ¬ b.Before a := by
  have hswap : order b a = (order a b).swap := Std.OrientedCmp.eq_swap
  rw [← order_eq_lt_iff, hswap]
  cases order a b <;> decide

/-- A row is settled by its place in the report: from the days left follow the expiry date and
the risk. -/
theorem eq_of_order_eq {a b : BatchAgeing} {x y : Batch} (ha : Shows today x a)
    (hb : Shows today y b) (h : order a b = .eq) : a = b := by
  rw [order_eq_then, Ordering.then_eq_eq, Ordering.then_eq_eq, Ordering.then_eq_eq] at h
  obtain ⟨hdays, hwarehouse, hitem, hcode⟩ := h
  have hdays := Std.LawfulEqOrd.eq_of_compare hdays
  have hexpiry : a.expiry = b.expiry := by
    have hsame := ha.daysLeft.symm.trans (hdays.trans hb.daysLeft)
    unfold Date.daysSince at hsame
    exact Date.ext (by omega)
  have hrisk : a.risk = b.risk := by
    have hlevel := RiskLevel.ofDaysLeft_eq_some_iff.mpr ha.risk
    rw [hdays, RiskLevel.ofDaysLeft_eq_some_iff.mpr hb.risk] at hlevel
    exact (Option.some.inj hlevel).symm
  obtain ⟨item, warehouse, code, expiry, daysLeft, risk⟩ := a
  obtain rfl := Std.LawfulEqOrd.eq_of_compare hwarehouse
  obtain rfl := Std.LawfulEqOrd.eq_of_compare hitem
  obtain rfl := Std.LawfulEqOrd.eq_of_compare hcode
  subst hdays hexpiry hrisk
  rfl

/-! ## Points -/

/-- For thirty days or more a batch adds to the weights of the report what it adds to the score. -/
theorem weight_ofBatch? (h : 30 ≤ within) (today : Date) (b : Batch) :
    ((ofBatch? today within b).map (fun row => row.risk.weight)).getD 0 =
      ((b.daysLeft today).map RiskLevel.pointsOf).getD 0 := by
  by_cases hb : b.isAgeing today within = true
  · obtain ⟨row, hrow, hshows⟩ := exists_ofBatch? hb
    rw [hrow, Batch.daysLeft, hshows.expiry, Option.map_some, Option.map_some, Option.map_some,
      ← hshows.daysLeft, RiskLevel.pointsOf, RiskLevel.ofDaysLeft_eq_some_iff.mpr hshows.risk]
    rfl
  · rw [ofBatch?_eq_none hb]
    cases hdays : b.daysLeft today with
    | none => rfl
    | some days =>
      rw [Batch.isAgeing, hdays, Option.any_some, decide_eq_true_iff, min_eq_right h,
        not_le] at hb
      rw [Option.map_some, RiskLevel.pointsOf, RiskLevel.ofDaysLeft_eq_none_iff.mpr hb]
      rfl

end BatchAgeing

/-! ## The report -/

section Report

variable {batches others : List Batch} {today : Date} {within : Int}

theorem ageing_perm :
    (ageing batches today within).Perm (batches.filterMap (BatchAgeing.ofBatch? today within)) :=
  sortBy_perm _ _

/-- Whatever stands in the report behind a row is not to stand before it. -/
theorem pairwise_ageing :
    (ageing batches today within).Pairwise (fun a b => ¬ b.Before a) :=
  (pairwise_sortBy_isLE BatchAgeing.order _).imp BatchAgeing.isLE_order_iff.mp

/-- It does not matter how the batches were listed. -/
theorem ageing_eq_of_perm (h : others.Perm batches) :
    ageing others today within = ageing batches today within := by
  refine sortBy_eq_of_perm (fun _ _ _ => Std.TransCmp.isLE_trans)
    (isLE_total BatchAgeing.order) (fun a ha b hb hab hba => ?_) (h.filterMap _)
  obtain ⟨x, -, hx⟩ := List.mem_filterMap.mp ha
  obtain ⟨y, -, hy⟩ := List.mem_filterMap.mp hb
  have hsame : BatchAgeing.order a b = .eq := Std.OrientedCmp.isLE_antisymm hab hba
  exact BatchAgeing.eq_of_order_eq (BatchAgeing.ofBatch?_eq_some_iff.mp hx).1
    (BatchAgeing.ofBatch?_eq_some_iff.mp hy).1 hsame

/-- For thirty days or more the weights of the report add up to the points of the score. -/
theorem natSumOf_weight_ageing (h : 30 ≤ within) (counts : InsightCounts) :
    natSumOf (fun row => row.risk.weight) (ageing batches today within) =
      (counts.withBatchRisk batches today).riskPoints := by
  have hpoints : (counts.withBatchRisk batches today).riskPoints =
      natSumOf RiskLevel.pointsOf (batches.filterMap (fun b => b.daysLeft today)) := rfl
  rw [hpoints, natSumOf_perm _ ageing_perm, natSumOf_filterMap, natSumOf_filterMap]
  exact congrArg (natSumOf · batches) (funext (BatchAgeing.weight_ofBatch? h today))

end Report

/-- Take any batches, any day and any window, which may lie in the past. But for its order the
report has one row for each batch that expires and has no more days left than the window has, and
no more than thirty: the row shows this batch, the days it has left, and its risk. The rows stand in
the order of days left, warehouse, item and code, however the batches were listed. For a window of
thirty days or more their weights add up to the points of risk that the score counts. -/
theorem ageing_exact (batches : List Batch) (today : Date) (within : Int) :
    let report := ageing batches today within
    (∃ rows, report.Perm rows ∧
      List.Forall₂ (BatchAgeing.Shows today) (batches.filter (Batch.isAgeing today within)) rows) ∧
    report.Pairwise (fun a b => ¬ b.Before a) ∧
    (∀ others : List Batch, others.Perm batches → ageing others today within = report) ∧
    (30 ≤ within → ∀ counts : InsightCounts,
      natSumOf (fun row => row.risk.weight) report =
        (counts.withBatchRisk batches today).riskPoints) :=
  ⟨⟨_, ageing_perm, BatchAgeing.forall₂_shows today within batches⟩, pairwise_ageing,
    fun _ h => ageing_eq_of_perm h, fun h counts => natSumOf_weight_ageing h counts⟩

namespace Sample

/-- A batch of item 10. -/
def crate (id : Int) (warehouse : WarehouseId) (code : String) (expiry : Option Date) : Batch :=
  ⟨id, ⟨10⟩, warehouse, code, none, expiry, .epoch⟩

/-- On the tenth day of 1970 batches A and B of the first warehouse have eleven days left, C has
expired, and batch A of the second warehouse has twenty-six days left. D lasts as long as there are
days, and E does not expire. -/
def shelf : List Batch :=
  [crate 1 ⟨1⟩ "B" (some late), crate 2 ⟨2⟩ "A" (some (midnight ⟨35, by decide⟩).date),
    crate 3 ⟨1⟩ "A" (some late), crate 4 ⟨1⟩ "C" (some past),
    crate 5 ⟨1⟩ "D" (some .last), crate 6 ⟨1⟩ "E" none]

end Sample

open Sample in
/-- Four batches are listed, B after A, also if they are listed the other way round. Their weights
are three, two, two and one. -/
theorem ageing_exact_shelf :
    (ageing shelf soon 30).map (fun row => (row.warehouse.val, row.code, row.daysLeft, row.risk)) =
      [(1, "C", -7, .high), (1, "A", 11, .medium), (1, "B", 11, .medium), (2, "A", 26, .low)] ∧
    shelf.reverse.Perm shelf ∧ ageing shelf.reverse soon 30 = ageing shelf soon 30 ∧
    (30 : Int) ≤ 30 ∧ (({} : InsightCounts).withBatchRisk shelf soon).riskPoints = 8 := by
  obtain ⟨-, -, hothers, hpoints⟩ := ageing_exact shelf soon 30
  refine ⟨by decide +kernel, shelf.reverse_perm, hothers _ shelf.reverse_perm, le_refl _, ?_⟩
  rw [← hpoints (le_refl _)]
  decide +kernel

end Stockroom
