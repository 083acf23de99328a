/-
Stockroom.Proofs.Stock.Independence — what plans and repetitions do not depend on.

* A plan does not depend on the order in which the candidates are listed, nor on the numbers of
  their slots as long as these go up in the same order (`planAllocation_renumbered`). Nor does it
  depend on candidates that may not serve: stores that list the same stock, each in its own order
  and with whatever else they hold, get the same plan (`plan_from_eligible_stock`).
* A repetition finds the same legs in whatever order the entries of the reference are listed, and
  does not look at their numbers (`priorLegs_congr`).
-/
import Stockroom.Proofs.Stock.Plan
import Stockroom.Proofs.Stock.Repetition

namespace Stockroom

/-! ## Plans -/

/-- The candidate with the number that its key has elsewhere. -/
def Candidate.renumbered (number : StockKey → Int) (c : Candidate) : Candidate :=
  { c with sequence := number c.key }

section Plans

variable {item : ItemId} {warehouse : WarehouseId} {options : PlanOptions}
  {number : StockKey → Int} {cs ds : List Candidate}

/-- Whether the numbers go up in the order in which the slots were created. -/
def SameOrder (number : StockKey → Int) (cs : List Candidate) : Prop :=
  ∀ c ∈ cs, ∀ d ∈ cs, c.sequence < d.sequence → number c.key < number d.key

/-- Whether each candidate has a number of its own. -/
def Apart (cs : List Candidate) : Prop :=
  ∀ c ∈ cs, ∀ d ∈ cs, c.sequence = d.sequence → c = d

theorem Apart.renumbered (hcs : Apart cs) (hnumber : SameOrder number cs) :
    Apart (cs.map (·.renumbered number)) := by
  intro c' hc' d' hd' heq
  obtain ⟨c, hc, rfl⟩ := List.mem_map.mp hc'
  obtain ⟨d, hd, rfl⟩ := List.mem_map.mp hd'
  replace heq : number c.key = number d.key := heq
  have hcd : c.sequence = d.sequence := by
    rcases Int.lt_trichotomy c.sequence d.sequence with h | h | h
    · have := hnumber c hc d hd h
      omega
    · exact h
    · have := hnumber d hd c hc h
      omega
  rw [hcs c hc d hd hcd]

theorem precedes_renumbered (hcs : Apart cs) (hnumber : SameOrder number cs) :
    ∀ c ∈ cs, ∀ d ∈ cs,
      (c.renumbered number).precedes (d.renumbered number) = c.precedes d := by
  intro c hc d hd
  have hcompare : compare (number c.key) (number d.key) = compare c.sequence d.sequence := by
    rcases Int.lt_trichotomy c.sequence d.sequence with h | h | h
    · rw [Int.compare_eq_lt.mpr h, Int.compare_eq_lt.mpr (hnumber c hc d hd h)]
    · rw [hcs c hc d hd h, Int.compare_eq_eq.mpr rfl, Int.compare_eq_eq.mpr rfl]
    · rw [Int.compare_eq_gt.mpr h, Int.compare_eq_gt.mpr (hnumber d hd c hc h)]
  simp only [Candidate.precedes, Candidate.renumbered, hcompare]

/-- Candidates that stand before each other are the same one. -/
theorem Apart.eq_of_precedes (hcs : Apart cs) {c d : Candidate} (hc : c ∈ cs) (hd : d ∈ cs)
    (hcd : c.precedes d = true) (hdc : d.precedes c = true) : c = d :=
  hcs c hc d hd (Candidate.due_eq_of_precedes hcd hdc).2

theorem Apart.filter (hcs : Apart cs) (p : Candidate → Bool) : Apart (cs.filter p) :=
  fun c hc d hd => hcs c (List.mem_filter.mp hc).1 d (List.mem_filter.mp hd).1

/-- The queue is made of the eligible candidates, however they are listed. -/
theorem queue_congr (hcs : Apart (cs.filter (Candidate.isEligible item warehouse options)))
    (h : (cs.filter (Candidate.isEligible item warehouse options)).Perm
      (ds.filter (Candidate.isEligible item warehouse options))) :
    queue item warehouse options cs = queue item warehouse options ds :=
  sortBy_eq_of_perm Candidate.precedes_trans Candidate.precedes_total
    (fun _ hc _ hd => hcs.eq_of_precedes hc hd) h

theorem queue_perm (hcs : Apart cs) (h : cs.Perm ds) :
    queue item warehouse options cs = queue item warehouse options ds :=
  queue_congr (hcs.filter _) (h.filter _)

theorem queue_renumbered (hcs : Apart cs) (hnumber : SameOrder number cs) :
    queue item warehouse options (cs.map (·.renumbered number)) =
      (queue item warehouse options cs).map (·.renumbered number) := by
  rw [queue, List.filter_map]
  refine sortBy_map fun c hc d hd => ?_
  exact precedes_renumbered hcs hnumber c (List.mem_filter.mp hc).1 d (List.mem_filter.mp hd).1

theorem offered_renumbered (q : List Candidate) :
    offered (q.map (·.renumbered number)) = offered q := sumOf_map ..

theorem prefer_renumbered (preferred : Option BatchKey) (q : List Candidate) :
    prefer preferred (q.map (·.renumbered number)) =
      ((prefer preferred q).1, (prefer preferred q).2.map (·.renumbered number)) := by
  cases preferred with
  | none => rfl
  | some batch =>
    cases q with
    | nil => rfl
    | cons head rest =>
      have hfind : (rest.map (·.renumbered number)).find? (fun c => c.key.batch == batch) =
          (rest.find? (fun c => c.key.batch == batch)).map (·.renumbered number) := List.find?_map
      have herase : (rest.map (·.renumbered number)).eraseP (fun c => c.key.batch == batch) =
          (rest.eraseP (fun c => c.key.batch == batch)).map (·.renumbered number) :=
        List.eraseP_map ..
      by_cases hhead : head.key.batch = batch
      · simp only [List.map_cons, prefer, Candidate.renumbered, hhead, if_true]
      · have hhead' : (head.renumbered number).key.batch ≠ batch := hhead
        simp only [List.map_cons, prefer, hhead, hhead', if_false, hfind, herase]
        cases rest.find? (fun c => c.key.batch == batch) <;> rfl

theorem takeLegs_renumbered (n : Int) (q : List Candidate) :
    takeLegs n (q.map (·.renumbered number)) = takeLegs n q := by
  induction q generalizing n with
  | nil => rfl
  | cons c rest ih =>
    rw [List.map_cons, takeLegs, takeLegs]
    simp only [ih]
    rfl

/-- A plan depends neither on how the candidates are listed nor on what their numbers are, as
long as these go up in the same order. -/
theorem planAllocation_renumbered (hcs : Apart cs) (hnumber : SameOrder number cs)
    (h : ds.Perm (cs.map (·.renumbered number))) (n : Int) :
    planAllocation item warehouse n ds options = planAllocation item warehouse n cs options := by
  have hqueue : queue item warehouse options ds =
      (queue item warehouse options cs).map (·.renumbered number) := by
    rw [← queue_renumbered hcs hnumber, queue_perm (hcs.renumbered hnumber) h.symm]
  simp only [planAllocation, hqueue, offered_renumbered, prefer_renumbered, takeLegs_renumbered]

/-- A plan depends on nothing but the candidates that may serve, if each of them has a number of
its own: lists that have these in common, in whatever order and whatever else they hold, give the
same plan or the same refusal. -/
theorem plan_from_eligible_stock (item : ItemId) (warehouse : WarehouseId) (n : Int)
    (options : PlanOptions) {cs ds : List Candidate}
    (hsame : (cs.filter fun c => decide (c.MayServe item warehouse options)).Perm
      (ds.filter fun c => decide (c.MayServe item warehouse options)))
    (hnumbers : ((cs.filter fun c => decide (c.MayServe item warehouse options)).map
      (·.sequence)).Nodup) :
    planAllocation item warehouse n cs options = planAllocation item warehouse n ds options := by
  simp only [filter_mayServe] at hsame hnumbers
  have hapart : Apart (cs.filter (Candidate.isEligible item warehouse options)) :=
    fun c hc d hd hcd => List.inj_on_of_nodup_map hnumbers hc hd hcd
  have hqueue : queue item warehouse options cs = queue item warehouse options ds :=
    queue_congr hapart hsame
  simp only [planAllocation, hqueue]

namespace Sample

/-- Stock of item 10 in warehouse 1, in the batch with the given code and the slot with the given
number. -/
def candidate (code : String) (quantity : Int) (expiry : Date) (number : Int) : Candidate :=
  ⟨key code, quantity, some expiry, number⟩

/-- An order may use what it may, but batch B is preferred. -/
def preferringB : PlanOptions := { (order 1 6).planOptions with preferred := some ⟨"B"⟩ }

/-- Three slots by the code of their batch. -/
def byCode : List Candidate :=
  [candidate "A" 4 soon 2, candidate "B" 3 late 1, candidate "C" 5 soon 3]

/-- The same slots in another order, among an empty slot, one that has expired, and one of another
item. Two of these bear numbers that are taken. -/
def byNumber : List Candidate :=
  [candidate "B" 3 late 1, candidate "D" 0 soon 1, candidate "E" 7 past 4, candidate "C" 5 soon 3,
    { candidate "F" 6 soon 2 with key := ⟨⟨1⟩, ⟨11⟩, ⟨"F"⟩⟩ }, candidate "A" 4 soon 2]

end Sample

open Sample in
/-- All of batch B goes out first, then batch A, whose slot was there before that of batch C. -/
theorem plan_from_eligible_stock_shuffled :
    (byCode.filter fun c => decide (c.MayServe ⟨10⟩ ⟨1⟩ preferringB)).Perm
      (byNumber.filter fun c => decide (c.MayServe ⟨10⟩ ⟨1⟩ preferringB)) ∧
    ((byCode.filter fun c => decide (c.MayServe ⟨10⟩ ⟨1⟩ preferringB)).map
      (·.sequence)).Nodup ∧
    planAllocation ⟨10⟩ ⟨1⟩ 6 byCode preferringB =
      .ok ⟨⟨10⟩, ⟨1⟩, 6, [⟨key "B", 3, some late⟩, ⟨key "A", 3, some soon⟩],
        .fallback ⟨"B"⟩ ⟨"A"⟩⟩ ∧
    planAllocation ⟨10⟩ ⟨1⟩ 6 byCode preferringB =
      planAllocation ⟨10⟩ ⟨1⟩ 6 byNumber preferringB := by
  have hsame : (byCode.filter fun c => decide (c.MayServe ⟨10⟩ ⟨1⟩ preferringB)).Perm
      (byNumber.filter fun c => decide (c.MayServe ⟨10⟩ ⟨1⟩ preferringB)) := by decide
  have hnumbers : ((byCode.filter fun c => decide (c.MayServe ⟨10⟩ ⟨1⟩ preferringB)).map
      (·.sequence)).Nodup := by decide
  exact ⟨hsame, hnumbers, by decide, plan_from_eligible_stock ⟨10⟩ ⟨1⟩ 6 preferringB hsame hnumbers⟩

open Sample in
/-- Slots that bear the same number go out as they are listed. -/
example :
    planAllocation ⟨10⟩ ⟨1⟩ 1 [candidate "A" 1 soon 1, candidate "B" 1 soon 1]
        (order 1 1).planOptions ≠
      planAllocation ⟨10⟩ ⟨1⟩ 1 [candidate "B" 1 soon 1, candidate "A" 1 soon 1]
        (order 1 1).planOptions := by decide

end Plans

/-! ## Repetitions -/

/-- The entry without its number. -/
def LedgerEntry.unnumbered (e : LedgerEntry) : LedgerEntry := { e with id := 0 }

/-- The answer without the numbers of its entries. -/
def AllocationResult.unnumbered (a : AllocationResult) : AllocationResult :=
  { a with entries := a.entries.map LedgerEntry.unnumbered }

section Repetitions

variable {r : AllocationRequest} {es es' : List LedgerEntry}

theorem map_line_unnumbered (es : List LedgerEntry) :
    (es.map LedgerEntry.unnumbered).map (·.line) = es.map (·.line) := List.map_map ..

theorem consecutiveFrom_unnumbered (line : Int) (es : List LedgerEntry) :
    consecutiveFrom line (es.map LedgerEntry.unnumbered) =
      (consecutiveFrom line es).map LedgerEntry.unnumbered := by
  induction es generalizing line with
  | nil => rfl
  | cons e rest ih =>
    by_cases he : e.line = line
    · simp only [List.map_cons, consecutiveFrom, LedgerEntry.unnumbered, he, if_true, ← ih]
    · simp only [List.map_cons, consecutiveFrom, LedgerEntry.unnumbered, he, if_false, ← ih]

/-- The numbers of the entries are carried along and not looked at. -/
theorem priorLegs_unnumbered (r : AllocationRequest) (es : List LedgerEntry) :
    priorLegs (es.map LedgerEntry.unnumbered) r =
      (priorLegs es r).map (·.map (·.map LedgerEntry.unnumbered)) := by
  have hsort (legs : List LedgerEntry) : sortOn (·.line) (legs.map LedgerEntry.unnumbered) =
      (sortOn (·.line) legs).map LedgerEntry.unnumbered := sortBy_map fun _ _ _ _ => rfl
  have hfind : (es.map LedgerEntry.unnumbered).find? (fun e => e.line == r.startLine) =
      (es.find? (fun e => e.line == r.startLine)).map LedgerEntry.unnumbered := List.find?_map
  have hfilter : (es.map LedgerEntry.unnumbered).filter
        (fun e => decide (r.startLine ≤ e.line) && r.isLeg e) =
      (es.filter (fun e => decide (r.startLine ≤ e.line) && r.isLeg e)).map
        LedgerEntry.unnumbered := List.filter_map
  simp only [priorLegs, hfind, hfilter, hsort, consecutiveFrom_unnumbered]
  cases es.find? (fun e => e.line == r.startLine) with
  | none => rfl
  | some head =>
    have hleg : r.isLeg head.unnumbered = r.isLeg head := rfl
    simp only [Option.map_some, hleg]
    split <;> rfl

/-- Where each line has one entry, it does not matter how the entries are listed. -/
theorem priorLegs_perm (hone : (es.map (·.line)).Nodup) (h : es.Perm es')
    (r : AllocationRequest) : priorLegs es r = priorLegs es' r := by
  have hsort (p : LedgerEntry → Bool) : sortOn (·.line) (es.filter p) =
      sortOn (·.line) (es'.filter p) := by
    have hp : ((es.filter p).map (·.line)).Nodup := hone.sublist (List.filter_sublist.map _)
    have hp' : ((es'.filter p).map (·.line)).Nodup :=
      ((((h.filter p).map _).nodup_iff).mp hp)
    have hperm : (sortOn (·.line) (es.filter p)).Perm (sortOn (·.line) (es'.filter p)) :=
      (sortBy_perm _ _).trans ((h.filter p).trans (sortBy_perm _ _).symm)
    refine hperm.eq_of_pairwise (fun a b _ _ hab hba => ?_) (pairwise_lt_sortOn hp)
      (pairwise_lt_sortOn hp')
    omega
  simp only [priorLegs, find?_key_eq_of_perm h hone, hsort]

/-- A repetition finds the same legs in whatever order the entries are listed, whatever their
numbers are. -/
theorem priorLegs_congr (hone : (es'.map (·.line)).Nodup)
    (h : (es.map LedgerEntry.unnumbered).Perm (es'.map LedgerEntry.unnumbered))
    (r : AllocationRequest) :
    (priorLegs es r).map (·.map (·.map LedgerEntry.unnumbered)) =
      (priorLegs es' r).map (·.map (·.map LedgerEntry.unnumbered)) := by
  have hone' : ((es.map LedgerEntry.unnumbered).map (·.line)).Nodup := by
    rw [(h.map _).nodup_iff, map_line_unnumbered]
    exact hone
  rw [← priorLegs_unnumbered, ← priorLegs_unnumbered, priorLegs_perm hone' h]

/-- The plan of a repetition does not show the numbers of the legs either. -/
theorem unnumbered_ofPrior (r : AllocationRequest) (legs : List LedgerEntry) :
    (AllocationResult.ofPrior r legs).unnumbered =
      .ofPrior r (legs.map LedgerEntry.unnumbered) := by
  have hplan : planOfLegs r (legs.map LedgerEntry.unnumbered) = planOfLegs r legs := by
    simp only [planOfLegs, sumOf_map, List.map_map]
    rfl
  simp only [AllocationResult.ofPrior, AllocationResult.unnumbered, hplan]

end Repetitions

end Stockroom
