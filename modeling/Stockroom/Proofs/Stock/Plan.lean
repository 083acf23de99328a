/-
Stockroom.Proofs.Stock.Plan — what planning answers, whatever the candidates.

* `Candidate.MayServe` says which candidates may feed an allocation, and `Queued` what it is to
  list candidates in the order of the queue, those that are due together as they were listed.
  There is one such list only, and it is `queue` (`queued_iff`).
* `preferredFirst` moves the first candidate of the preferred batch to the front, as `prefer`
  does; `prefer_head` says what that does to the outcome.
* `AllocationPlan.Serves` says what a plan takes, and `plan_first_expiry_first` when there is one
  and what is answered where there is none. Nothing is asked of the candidates: they may be of any
  item, empty, listed twice or bear the same number.
-/
import Stockroom.Proofs.Stock.Queue

namespace Stockroom

variable {item : ItemId} {warehouse : WarehouseId} {options : PlanOptions} {n : Int}
  {candidates cs q : List Candidate} {preferred : Option BatchKey}

/-! ## The queue -/

namespace Candidate

/-- Whether the candidate is stock of the item in the warehouse, and has not expired before the
day of the plan unless that does not matter. -/
def MayServe (item : ItemId) (warehouse : WarehouseId) (options : PlanOptions) (c : Candidate) :
    Prop :=
  c.key.item = item ∧ c.key.warehouse = warehouse ∧ 0 < c.quantity ∧
    (options.allowExpired = true ∨ ∀ d ∈ c.expiry, options.onDate ≤ d)

instance (c : Candidate) : Decidable (c.MayServe item warehouse options) :=
  inferInstanceAs (Decidable (_ ∧ _ ∧ _ ∧ (_ ∨ _)))

theorem isEligible_iff (c : Candidate) :
    c.isEligible item warehouse options = true ↔ c.MayServe item warehouse options := by
  simp only [isEligible, StockKey.isOf, Bool.and_eq_true, beq_iff_eq, decide_eq_true_eq,
    Bool.or_eq_true, MayServe, and_assoc]
  cases c.expiry <;> simp

/-- When the stock is due: its expiry date, and the number of its slot. -/
def due (c : Candidate) : Option Date × Int := (c.expiry, c.sequence)

end Candidate

/-- Whether `q` lists the candidates `cs` in the order of the queue, and those that are due
together as they were listed. -/
structure Queued (cs q : List Candidate) : Prop where
  perm : q.Perm cs
  ascending : q.Pairwise (fun a b => ¬ b.Before a)
  stable : ∀ place, q.filter (fun c => c.due == place) = cs.filter (fun c => c.due == place)

theorem queued_sortBy (cs : List Candidate) : Queued cs (sortBy Candidate.precedes cs) where
  perm := sortBy_perm _ cs
  ascending := (pairwise_sortBy Candidate.precedes_trans Candidate.precedes_total cs).imp
    fun h => (Candidate.precedes_iff _ _).mp h
  stable := by
    intro place
    refine filter_sortBy (fun a b ha hb => ?_) cs
    -- what is due together does not come before itself
    have hdue : a.due = b.due := (beq_iff_eq.mp ha).trans (beq_iff_eq.mp hb).symm
    obtain ⟨hexpiry, hsequence⟩ := Prod.mk.inj hdue
    have hself := a.precedes_refl
    unfold Candidate.precedes at hself ⊢
    rwa [← hexpiry, ← hsequence]

/-- There is one way only to list candidates in the order of the queue. -/
theorem Queued.eq_sortBy (h : Queued cs q) : q = sortBy Candidate.precedes cs := by
  have hsorted := queued_sortBy cs
  refine eq_of_perm_of_filter_eq Candidate.due Candidate.precedes_refl (fun a b hab hba => ?_)
    (h.perm.trans hsorted.perm.symm) ?_ ?_ fun place => ?_
  · exact Prod.ext_iff.mpr (Candidate.due_eq_of_precedes hab hba)
  · exact h.ascending.imp fun hba => (Candidate.precedes_iff _ _).mpr hba
  · exact hsorted.ascending.imp fun hba => (Candidate.precedes_iff _ _).mpr hba
  · rw [h.stable, hsorted.stable]

/-- The eligible candidates are those that may serve. -/
theorem filter_mayServe :
    candidates.filter (fun c => decide (c.MayServe item warehouse options)) =
      candidates.filter (Candidate.isEligible item warehouse options) :=
  List.filter_congr fun c _ => by
    rw [Bool.eq_iff_iff, decide_eq_true_eq, Candidate.isEligible_iff]

theorem queued_iff :
    Queued (candidates.filter (fun c => decide (c.MayServe item warehouse options))) q ↔
      q = queue item warehouse options candidates := by
  rw [filter_mayServe]
  constructor
  · intro h
    exact h.eq_sortBy
  · rintro rfl
    exact queued_sortBy _

/-! ## The preferred batch -/

/-- The queue with the first candidate of the preferred batch, if there is one, in front. -/
def preferredFirst (preferred : Option BatchKey) (q : List Candidate) : List Candidate :=
  match preferred with
  | none => q
  | some batch =>
    match q.find? (fun c => c.key.batch == batch) with
    | none => q
    | some chosen => chosen :: q.eraseP (fun c => c.key.batch == batch)

theorem prefer_snd (preferred : Option BatchKey) (q : List Candidate) :
    (prefer preferred q).2 = preferredFirst preferred q := by
  rcases preferred with _ | batch
  · rfl
  cases q with
  | nil => rfl
  | cons head rest =>
    unfold prefer preferredFirst
    by_cases hhead : head.key.batch = batch
    · -- the first of its batch is in front already
      simp [hhead]
    · have hfind : (head :: rest).find? (fun c => c.key.batch == batch) =
          rest.find? (fun c => c.key.batch == batch) :=
        List.find?_cons_of_neg (by simpa using hhead)
      have herase : (head :: rest).eraseP (fun c => c.key.batch == batch) =
          head :: rest.eraseP (fun c => c.key.batch == batch) :=
        List.eraseP_cons_of_neg (by simpa using hhead)
      simp only [if_neg hhead, hfind, herase]
      cases rest.find? (fun c => c.key.batch == batch) <;> rfl

/-- Either the head of the queue stays in front and the plan has kept to the queue, or a
candidate of another batch goes before it and the plan says so. -/
theorem prefer_head (preferred : Option BatchKey) (head : Candidate) (rest : List Candidate) :
    ∃ first others, (prefer preferred (head :: rest)).2 = first :: others ∧
      (first = head ∧ (prefer preferred (head :: rest)).1 = .strict ∨
        first.key.batch ≠ head.key.batch ∧ (prefer preferred (head :: rest)).1 =
          .fallback first.key.batch head.key.batch) := by
  rcases preferred with _ | batch
  · exact ⟨head, rest, rfl, .inl ⟨rfl, rfl⟩⟩
  by_cases hhead : head.key.batch = batch
  · rw [prefer, if_pos hhead]
    exact ⟨head, rest, rfl, .inl ⟨rfl, rfl⟩⟩
  · rw [prefer, if_neg hhead]
    cases hfound : rest.find? (fun c => c.key.batch == batch) with
    | none => exact ⟨head, rest, rfl, .inl ⟨rfl, rfl⟩⟩
    | some chosen =>
      have hchosen : chosen.key.batch = batch := by simpa using List.find?_some hfound
      exact ⟨chosen, _, rfl, .inr ⟨fun h => hhead (h.symm.trans hchosen), by rw [hchosen]⟩⟩

/-! ## Plans -/

/-- A plan that takes `n` of the item from the warehouse, out of the candidates `served` from
the front, where `q` is what the queue would have been without a preferred batch. -/
structure AllocationPlan.Serves (p : AllocationPlan) (item : ItemId) (warehouse : WarehouseId)
    (n : Int) (q served : List Candidate) : Prop where
  request : p.item = item ∧ p.warehouse = warehouse ∧ p.requested = n
  /-- All candidates that are used but the last one are emptied, in the order they stand in. -/
  legs : ∃ front last rest taken, served = front ++ last :: rest ∧
    p.legs = front.map Candidate.wholeLeg ++ [⟨last.key, taken, last.expiry⟩] ∧
    1 ≤ taken ∧ taken ≤ last.quantity
  total : sumOf (·.quantity) p.legs = n
  outcome : ∃ first head, served.head? = some first ∧ q.head? = some head ∧
    (p.outcome = .strict ↔ first = head) ∧
    (first ≠ head → p.outcome = .fallback first.key.batch head.key.batch ∧
      first.key.batch ≠ head.key.batch)

theorem planAllocation_of_nonpos (hn : n ≤ 0) :
    planAllocation item warehouse n candidates options =
      .error (.validation s!"allocation qty must be positive, got {n}") :=
  if_pos hn

theorem planAllocation_of_short (hn : 0 < n)
    (hshort : offered (queue item warehouse options candidates) < n) :
    planAllocation item warehouse n candidates options =
      .error (.insufficientStock n (offered (queue item warehouse options candidates))) := by
  unfold planAllocation
  rw [if_neg (by omega)]
  exact if_pos hshort

theorem planAllocation_of_offered (hn : 0 < n)
    (hle : n ≤ offered (queue item warehouse options candidates)) :
    ∃ p, planAllocation item warehouse n candidates options = .ok p ∧
      p.Serves item warehouse n (queue item warehouse options candidates)
        (preferredFirst options.preferred (queue item warehouse options candidates)) := by
  refine ⟨_, planAllocation_eq_ok_iff.mpr ⟨hn, hle, rfl⟩, ?_⟩
  have hpos : ∀ c ∈ queue item warehouse options candidates, 0 < c.quantity :=
    fun c hc => pos_of_mem_queue hc
  generalize queue item warehouse options candidates = q at *
  -- what is offered and what there is to empty stay the same, whichever batch is in front
  have hperm := prefer_perm options.preferred q
  have hpos' : ∀ c ∈ (prefer options.preferred q).2, 0 < c.quantity :=
    fun c hc => hpos c (hperm.mem_iff.mp hc)
  have hle' : n ≤ offered (prefer options.preferred q).2 := by
    rwa [offered, sumOf_perm _ hperm]
  rw [← prefer_snd]
  refine { request := ⟨rfl, rfl, rfl⟩, legs := ?legs, total := sumOf_takeLegs hpos' hn hle',
           outcome := ?outcome }
  case legs =>
    obtain ⟨front, last, rest, hserved, hlegs, hlow, hhigh⟩ := takeLegs_eq hpos' hn hle'
    exact ⟨front, last, rest, _, hserved, hlegs, hlow, hhigh⟩
  case outcome =>
    cases q with
    | nil =>
      simp only [offered, sumOf_nil] at hle
      omega
    | cons head rest =>
      obtain ⟨first, others, hserved, houtcome⟩ := prefer_head options.preferred head rest
      refine ⟨first, head, by rw [hserved]; rfl, rfl, ?_⟩
      rcases houtcome with ⟨rfl, hstrict⟩ | ⟨hbatch, hfallback⟩
      · simp [hstrict]
      · have hne : first ≠ head := fun h => hbatch (congrArg (·.key.batch) h)
        simp [hfallback, hne, hbatch]

/-- What planning answers. There is one list of the candidates that may serve in the order of
the queue. A demand that is not positive is refused as such, one that the list does not cover is
answered with what it offers, and any other is served from the list with the first candidate of
the preferred batch in front. -/
theorem plan_first_expiry_first (item : ItemId) (warehouse : WarehouseId) (n : Int)
    (candidates : List Candidate) (options : PlanOptions) :
    ∃ q, (∀ q', Queued (candidates.filter fun c => decide (c.MayServe item warehouse options)) q' ↔
        q' = q) ∧
      ((∃ text, planAllocation item warehouse n candidates options = .error (.validation text)) ↔
        n ≤ 0) ∧
      (0 < n → (planAllocation item warehouse n candidates options =
        .error (.insufficientStock n (offered q)) ↔ offered q < n)) ∧
      (0 < n → n ≤ offered q → ∃ p, planAllocation item warehouse n candidates options = .ok p ∧
        p.Serves item warehouse n q (preferredFirst options.preferred q)) := by
  refine ⟨queue item warehouse options candidates, fun q' => queued_iff, ?refused, ?short,
    planAllocation_of_offered⟩
  case refused =>
    constructor
    · rintro ⟨text, h⟩
      by_contra hn
      have hpos : 0 < n := Int.not_le.mp hn
      by_cases hle : n ≤ offered (queue item warehouse options candidates)
      · obtain ⟨p, hp, -⟩ := planAllocation_of_offered hpos hle
        rw [hp] at h
        cases h
      · rw [planAllocation_of_short hpos (Int.not_le.mp hle)] at h
        cases h
    · exact fun hn => ⟨_, planAllocation_of_nonpos hn⟩
  case short =>
    intro hn
    constructor
    · intro h
      by_contra hle
      obtain ⟨p, hp, -⟩ := planAllocation_of_offered hn (Int.not_lt.mp hle)
      rw [hp] at h
      cases h
    · exact planAllocation_of_short hn

/-- Batch B is preferred, and what it cannot cover comes from batch A, which was there first. -/
example (onDate : Date) :
    let candidate := fun (code : String) (quantity sequence : Int) =>
      (⟨⟨⟨1⟩, ⟨10⟩, ⟨code⟩⟩, quantity, none, sequence⟩ : Candidate)
    planAllocation ⟨10⟩ ⟨1⟩ 5 [candidate "B" 3 2, candidate "A" 4 1] ⟨onDate, false, some ⟨"B"⟩⟩ =
      .ok ⟨⟨10⟩, ⟨1⟩, 5, [⟨⟨⟨1⟩, ⟨10⟩, ⟨"B"⟩⟩, 3, none⟩, ⟨⟨⟨1⟩, ⟨10⟩, ⟨"A"⟩⟩, 2, none⟩],
        .fallback ⟨"B"⟩ ⟨"A"⟩⟩ := rfl

end Stockroom
