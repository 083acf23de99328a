/-
Stockroom.Proofs.Stock.Queue — what a plan takes from the queue.

* `DueBefore` is the order of the queue, said without the code's comparison; `queue` is in
  that order (`pairwise_queue`).
* `takeLegs_eq` says what a plan takes: it empties the front of the queue and takes the rest
  of the demand from the next candidate. So whatever is due before a slot that was used is
  emptied (`wholeLeg_mem_of_before`).
* `planAllocation_eq_ok_iff` says when there is a plan and which one.
-/
import Mathlib.Data.List.Nodup
import Stockroom.Stock.Fefo

namespace Stockroom

/-! ## The order of the queue -/

/-- Whether stock that expires on `e`, in the slot numbered `n`, is to go out before stock
that expires on `e'`, in the slot numbered `n'`: dates first, no date last, and of stock that
expires together the slot that was created first. -/
def DueBefore (e : Option Date) (n : Int) (e' : Option Date) (n' : Int) : Prop :=
  match e, e' with
  | some d, some d' => d < d' ∨ d = d' ∧ n < n'
  | some _, none => True
  | none, some _ => False
  | none, none => n < n'

/-- Two dates by their numbers. -/
theorem Date.compare_eq (a b : Date) : compare a b = compare a.number b.number := rfl

theorem Date.lt_iff (a b : Date) : a < b ↔ a.number < b.number := .rfl

namespace Candidate

/-- Whether the candidate is due before another one. -/
def Before (a b : Candidate) : Prop := DueBefore a.expiry a.sequence b.expiry b.sequence

/-- A candidate may stand before another one unless that one is due before it. -/
theorem precedes_iff (a b : Candidate) : a.precedes b = true ↔ ¬ b.Before a := by
  unfold precedes Before DueBefore expiryOrder
  rcases a.expiry with _ | d <;> rcases b.expiry with _ | d'
  · simp [Int.isLE_compare]
  · simp
  · simp
  · simp only [Date.compare_eq, Date.ext_iff, Date.lt_iff]
    rcases Int.lt_trichotomy d.number d'.number with h | h | h
    · rw [Int.compare_eq_lt.mpr h]
      simp
      omega
    · rw [Int.compare_eq_eq.mpr h]
      simp [Int.isLE_compare]
      omega
    · rw [Int.compare_eq_gt.mpr h]
      simp
      omega

theorem precedes_trans (a b c : Candidate) (hab : a.precedes b = true)
    (hbc : b.precedes c = true) : a.precedes c = true := by
  rw [precedes_iff] at *
  revert hab hbc
  unfold Before DueBefore
  rcases a.expiry with _ | d <;> rcases b.expiry with _ | d' <;> rcases c.expiry with _ | d'' <;>
    simp [Date.ext_iff, Date.lt_iff] <;> omega

theorem precedes_total (a b : Candidate) : a.precedes b = true ∨ b.precedes a = true := by
  rw [precedes_iff, precedes_iff]
  unfold Before DueBefore
  rcases a.expiry with _ | d <;> rcases b.expiry with _ | d' <;>
    simp [Date.ext_iff, Date.lt_iff] <;> omega

theorem precedes_refl (c : Candidate) : c.precedes c = true :=
  (precedes_total c c).elim id id

/-- Candidates that stand before each other are due together. -/
theorem due_eq_of_precedes {a b : Candidate} (hab : a.precedes b = true)
    (hba : b.precedes a = true) : a.expiry = b.expiry ∧ a.sequence = b.sequence := by
  rw [precedes_iff] at hab hba
  revert hab hba
  unfold Before DueBefore
  rcases a.expiry with _ | d <;> rcases b.expiry with _ | d' <;>
    simp [Date.ext_iff, Date.lt_iff] <;> omega

/-- The leg that takes all of the candidate. -/
def wholeLeg (c : Candidate) : AllocationLeg := ⟨c.key, c.quantity, c.expiry⟩

end Candidate

section Queue

variable {item : ItemId} {warehouse : WarehouseId} {options : PlanOptions}
  {candidates : List Candidate}

theorem mem_queue_iff {c : Candidate} :
    c ∈ queue item warehouse options candidates ↔
      c ∈ candidates ∧ c.isEligible item warehouse options = true := by
  rw [queue, mem_sortBy, List.mem_filter]

/-- Whatever stands in the queue after a candidate is not due before it. -/
theorem pairwise_queue :
    (queue item warehouse options candidates).Pairwise (fun a b => ¬ b.Before a) :=
  (pairwise_sortBy Candidate.precedes_trans Candidate.precedes_total _).imp
    fun h => (Candidate.precedes_iff _ _).mp h

theorem pos_of_mem_queue {c : Candidate} (h : c ∈ queue item warehouse options candidates) :
    0 < c.quantity := by
  have h := (mem_queue_iff.mp h).2
  simp only [Candidate.isEligible, Bool.and_eq_true, decide_eq_true_eq] at h
  exact h.1.2

/-- Candidates with a key each give a queue with a key each. -/
theorem nodup_queue (h : (candidates.map (·.key)).Nodup) :
    ((queue item warehouse options candidates).map (·.key)).Nodup := by
  refine (((sortBy_perm _ _).map _).nodup_iff).mpr ?_
  exact h.sublist (List.filter_sublist.map _)

end Queue

/-! ## Preferred batches -/

theorem prefer_perm (preferred : Option BatchKey) (q : List Candidate) :
    (prefer preferred q).2.Perm q := by
  unfold prefer
  split
  · rename_i batch head rest
    split
    · exact .refl _
    · split
      · exact .refl _
      · rename_i chosen hfound
        obtain ⟨hchosen, front, back, rfl, hfront⟩ := List.find?_eq_some_iff_append.mp hfound
        have herase : (front ++ chosen :: back).eraseP (fun c => c.key.batch == batch) =
            front ++ back := by
          rw [List.eraseP_append_right _ (by simpa using hfront)]
          simp only [List.eraseP_cons, hchosen, cond_true]
        show (chosen :: head :: _).Perm _
        rw [herase]
        exact (List.Perm.swap head chosen _).trans (List.perm_middle.symm.cons head)
  · exact .refl _

/-- A plan that kept to the queue took it as it was. -/
theorem prefer_of_strict {preferred : Option BatchKey} {q : List Candidate}
    (h : (prefer preferred q).1 = .strict) : (prefer preferred q).2 = q := by
  unfold prefer at h ⊢
  split
  · rename_i batch head rest
    split
    · rfl
    · rename_i hne
      simp only [hne, if_false] at h
      split
      · rfl
      · rename_i chosen hfound
        simp only [hfound] at h
        cases h
  · rfl

/-! ## Taking legs -/

theorem offered_cons (c : Candidate) (q : List Candidate) :
    offered (c :: q) = c.quantity + offered q := rfl

theorem takeLegs_zero : ∀ q : List Candidate, takeLegs 0 q = []
  | [] => rfl
  | _ :: _ => rfl

/-- A demand that the queue can cover empties its front, and takes the rest of what is wanted
from the next candidate. -/
theorem takeLegs_eq {q : List Candidate} (hpos : ∀ c ∈ q, 0 < c.quantity) {n : Int} (hn : 0 < n)
    (hle : n ≤ offered q) :
    ∃ front last back, q = front ++ last :: back ∧
      takeLegs n q =
        front.map Candidate.wholeLeg ++ [⟨last.key, n - offered front, last.expiry⟩] ∧
      0 < n - offered front ∧ n - offered front ≤ last.quantity := by
  induction q generalizing n with
  | nil =>
    simp only [offered, sumOf_nil] at hle
    omega
  | cons c rest ih =>
    simp only [takeLegs, if_neg (by omega : ¬ n = 0)]
    by_cases hc : n ≤ c.quantity
    · -- the demand ends here
      rw [Int.min_eq_left hc, Int.sub_self, takeLegs_zero]
      refine ⟨[], c, rest, rfl, ?_, ?_, ?_⟩ <;> simp [offered] <;> omega
    · rw [offered_cons] at hle
      rw [Int.min_eq_right (by omega)]
      obtain ⟨front, last, back, rfl, hlegs, hlow, hhigh⟩ :=
        ih (fun d hd => hpos d (List.mem_cons_of_mem _ hd)) (n := n - c.quantity) (by omega)
          (by omega)
      have hsub : n - c.quantity - offered front = n - offered (c :: front) := by
        rw [offered_cons]
        omega
      rw [hsub] at hlegs hlow hhigh
      exact ⟨c :: front, last, back, rfl, by rw [hlegs]; rfl, hlow, hhigh⟩

section Legs

variable {q : List Candidate} {n : Int} (hpos : ∀ c ∈ q, 0 < c.quantity) (hn : 0 < n)
  (hle : n ≤ offered q)

include hpos hn hle

/-- The legs add up to the demand. -/
theorem sumOf_takeLegs : sumOf (·.quantity) (takeLegs n q) = n := by
  obtain ⟨front, last, back, -, hlegs, -, -⟩ := takeLegs_eq hpos hn hle
  have hfront : sumOf (·.quantity) (front.map Candidate.wholeLeg) = offered front := sumOf_map ..
  rw [hlegs, sumOf_append, hfront]
  simp only [sumOf_cons, sumOf_nil]
  omega

/-- The legs follow the queue: their keys are the first ones of it. -/
theorem prefix_keys_takeLegs : (takeLegs n q).map (·.key) <+: q.map (·.key) := by
  obtain ⟨front, last, back, rfl, hlegs, -, -⟩ := takeLegs_eq hpos hn hle
  refine ⟨back.map (·.key), ?_⟩
  rw [hlegs]
  simp [Candidate.wholeLeg]

/-- Every leg takes something from a candidate, and no more than is there. -/
theorem exists_of_mem_takeLegs {leg : AllocationLeg} (h : leg ∈ takeLegs n q) :
    ∃ c ∈ q, c.key = leg.key ∧ 0 < leg.quantity ∧ leg.quantity ≤ c.quantity := by
  obtain ⟨front, last, back, rfl, hlegs, hlow, hhigh⟩ := takeLegs_eq hpos hn hle
  rw [hlegs, List.mem_append, List.mem_singleton] at h
  rcases h with h | rfl
  · obtain ⟨c, hc, rfl⟩ := List.mem_map.mp h
    exact ⟨c, List.mem_append_left _ hc, rfl, hpos c (List.mem_append_left _ hc), Int.le_refl _⟩
  · exact ⟨last, by simp, rfl, hlow, hhigh⟩

/-- A candidate that is due before one that was used is emptied, if the queue is in order and
has a key for each candidate. -/
theorem wholeLeg_mem_of_before (hkeys : (q.map (·.key)).Nodup)
    (hsorted : q.Pairwise (fun a b => ¬ b.Before a)) {c d : Candidate} (hc : c ∈ q) (hd : d ∈ q)
    (hused : d.key ∈ (takeLegs n q).map (·.key)) (hbefore : c.Before d) :
    c.wholeLeg ∈ takeLegs n q := by
  obtain ⟨front, last, back, rfl, hlegs, -, -⟩ := takeLegs_eq hpos hn hle
  rw [hlegs] at hused ⊢
  have hinj : ∀ x ∈ front ++ last :: back, x.key = d.key → x = d := fun x hx hk =>
    List.inj_on_of_nodup_map hkeys hx hd hk
  obtain ⟨-, hrest, hfront⟩ := List.pairwise_append.mp hsorted
  have hback := (List.pairwise_cons.mp hrest).1
  -- the candidate that was used stands in the front, or is the last one touched
  have hplace : d ∈ front ∨ d = last := by
    simp only [List.map_append, List.map_map, List.mem_append, List.mem_map, List.map_cons,
      List.map_nil, List.mem_singleton] at hused
    rcases hused with ⟨x, hx, hk⟩ | hk
    · exact .inl (hinj x (List.mem_append_left _ hx) hk ▸ hx)
    · exact .inr (hinj last (by simp) hk.symm).symm
  have hself : ∀ x : Candidate, ¬ x.Before x := fun x =>
    (Candidate.precedes_iff x x).mp x.precedes_refl
  -- what is due before it therefore stands in the front
  have hmem : c ∈ front := by
    rcases List.mem_append.mp hc with hc | hc
    · exact hc
    · exfalso
      rcases hplace with hd | rfl
      · exact hfront d hd c hc hbefore
      · rcases List.mem_cons.mp hc with rfl | hc
        · exact hself _ hbefore
        · exact hback c hc hbefore
  exact List.mem_append_left _ (List.mem_map_of_mem hmem)

end Legs

/-! ## Plans -/

/-- There is a plan exactly if something is asked for and the queue offers enough; it takes
its legs from the queue, the preferred batch in front. -/
theorem planAllocation_eq_ok_iff {item : ItemId} {warehouse : WarehouseId} {n : Int}
    {candidates : List Candidate} {options : PlanOptions} {p : AllocationPlan} :
    planAllocation item warehouse n candidates options = .ok p ↔
      0 < n ∧ n ≤ offered (queue item warehouse options candidates) ∧
        p = ⟨item, warehouse, n,
          takeLegs n (prefer options.preferred (queue item warehouse options candidates)).2,
          (prefer options.preferred (queue item warehouse options candidates)).1⟩ := by
  unfold planAllocation
  dsimp only
  by_cases hn : n ≤ 0
  · rw [if_pos hn]
    constructor
    · intro h
      cases h
    · rintro ⟨h, -, -⟩
      omega
  · rw [if_neg hn]
    by_cases hq : offered (queue item warehouse options candidates) < n
    · rw [if_pos hq]
      constructor
      · intro h
        cases h
      · rintro ⟨-, h, -⟩
        omega
    · rw [if_neg hq, Except.ok.injEq]
      constructor
      · rintro rfl
        exact ⟨by omega, by omega, rfl⟩
      · rintro ⟨-, -, rfl⟩
        rfl

end Stockroom
