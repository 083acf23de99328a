/-
Stockroom.Proofs.Stock.Allocation — what an allocation does to stock.

* `allocate_eq_ok` takes a successful allocation apart: it is a repetition, or it plans,
  checks its legs and writes them down.
* `Planned` says what a plan takes from the slots: from slots of the item only, from none
  twice, no more than is there, as much as was asked for, first expiry first.
* `admitsAll_legMovements`: legs of a plan that pass the check may all be entered. So what is
  checked once more while they are written never fails, and an allocation that was not a
  repetition comes to entering its legs (`allocate_fresh`).
* `Executed` says what such an allocation has done to stock, and `allocation_executed` that it
  has done so in all stock there can be.
-/
import Stockroom.Proofs.Stock.Balance
import Stockroom.Proofs.Stock.Legs
import Stockroom.Proofs.Stock.Queue
import Stockroom.Proofs.Stock.Slots

namespace Stockroom

open StoreM MemoryStock

/-! ## The movements of legs -/

namespace AllocationRequest

/-- The legs take consecutive lines. -/
theorem legMovementsFrom_eq (r : AllocationRequest) (line : Int) (legs : List AllocationLeg) :
    r.legMovementsFrom line legs = legs.mapIdx (fun i leg => r.legMovement leg (line + i)) := by
  induction legs generalizing line with
  | nil => rfl
  | cons leg rest ih =>
    rw [legMovementsFrom, ih, List.mapIdx_cons]
    congr 1
    · simp
    · congr 1
      funext i leg
      congr 1
      omega

theorem map_key_legMovementsFrom (r : AllocationRequest) (line : Int)
    (legs : List AllocationLeg) :
    (r.legMovementsFrom line legs).map (·.key) = legs.map (·.key) := by
  induction legs generalizing line with
  | nil => rfl
  | cons leg rest ih =>
    rw [legMovementsFrom, List.map_cons, List.map_cons, ih]
    rfl

theorem sumOf_legMovementsFrom (r : AllocationRequest) (line : Int)
    (legs : List AllocationLeg) :
    sumOf (fun m => -m.delta) (r.legMovementsFrom line legs) = sumOf (·.quantity) legs := by
  induction legs generalizing line with
  | nil => rfl
  | cons leg rest ih =>
    rw [legMovementsFrom, sumOf_cons, sumOf_cons, ih, legMovement, Int.neg_neg]

theorem exists_leg_of_mem {r : AllocationRequest} {legs : List AllocationLeg} {m : Movement}
    (h : m ∈ r.legMovements legs) : ∃ leg ∈ legs, ∃ line, m = r.legMovement leg line := by
  rw [legMovements, legMovementsFrom_eq, List.mem_mapIdx] at h
  obtain ⟨i, hi, rfl⟩ := h
  exact ⟨legs[i], List.getElem_mem hi, _, rfl⟩

theorem pairwise_line_legMovements (r : AllocationRequest) (legs : List AllocationLeg) :
    (r.legMovements legs).Pairwise (fun a b => a.documentLine ≠ b.documentLine) := by
  rw [legMovements, legMovementsFrom_eq, List.pairwise_iff_getElem]
  intro i j hi hj hij heq
  simp only [List.getElem_mapIdx, legMovement, Movement.documentLine,
    DocumentLine.mk.injEq] at heq
  omega

end AllocationRequest

/-! ## Checks -/

theorem Movement.check_eq_ok_iff {m : Movement} :
    m.check = .ok () ↔ Text.isBlankText m.reference = false ∧ 1 ≤ m.line ∧
      ¬ (m.reason.direction = .inbound ∧ m.delta < 0) ∧
      ¬ (m.reason.direction = .outbound ∧ 0 < m.delta) := by
  unfold Movement.check
  by_cases hblank : Text.isBlankText m.reference = true
  · rw [if_pos hblank]
    exact iff_of_false (fun h => nomatch h) fun h => by simp [hblank] at h
  rw [if_neg hblank]
  by_cases hline : m.line < 1
  · rw [if_pos hline]
    exact iff_of_false (fun h => nomatch h) fun h => absurd hline (Int.not_lt.mpr h.2.1)
  rw [if_neg hline]
  by_cases hin : m.reason.direction = .inbound ∧ m.delta < 0
  · rw [if_pos hin]
    exact iff_of_false (fun h => nomatch h) fun h => h.2.2.1 hin
  rw [if_neg hin]
  by_cases hout : m.reason.direction = .outbound ∧ 0 < m.delta
  · rw [if_pos hout]
    exact iff_of_false (fun h => nomatch h) fun h => h.2.2.2 hout
  rw [if_neg hout]
  exact iff_of_true rfl ⟨eq_false_of_ne_true hblank, Int.not_lt.mp hline, hin, hout⟩

/-- If a leg passes the check, so do all legs on later lines. -/
theorem AllocationRequest.check_legMovement {r : AllocationRequest} {leg leg' : AllocationLeg}
    {line line' : Int} (h : (r.legMovement leg line).check = .ok ()) (hle : line ≤ line')
    (hpos : 0 < leg.quantity) (hpos' : 0 < leg'.quantity) :
    (r.legMovement leg' line').check = .ok () := by
  rw [Movement.check_eq_ok_iff] at h ⊢
  obtain ⟨hblank, hline, hin, -⟩ := h
  simp only [legMovement] at hline hin ⊢
  refine ⟨hblank, by omega, fun h' => hin ⟨h'.1, by omega⟩, fun h' => ?_⟩
  have := h'.2
  omega

/-! ## Taking an allocation apart -/

theorem checkLegs_eq_ok {s : StockState} {ms : List Movement} (h : checkLegs s ms = .ok ()) :
    ∀ m ∈ ms, m.check = .ok () ∧ s.index.get? m.documentLine = none := by
  induction ms with
  | nil =>
    intro m hm
    cases hm
  | cons m rest ih =>
    rw [checkLegs] at h
    cases hm : m.check with
    | error e =>
      rw [hm] at h
      cases h
    | ok _ =>
      rw [hm] at h
      replace h : (if s.index.contains m.documentLine then _ else checkLegs s rest) = .ok () := h
      split at h
      · cases h
      · rename_i hfree
        intro m' hm'
        rcases List.mem_cons.mp hm' with rfl | hm'
        · exact ⟨hm, by simpa [OrderedMap.contains] using hfree⟩
        · exact ih h m' hm'

theorem checkLegs_of_forall {s : StockState} {ms : List Movement}
    (h : ∀ m ∈ ms, m.check = .ok () ∧ s.index.get? m.documentLine = none) :
    checkLegs s ms = .ok () := by
  induction ms with
  | nil => rfl
  | cons m rest ih =>
    obtain ⟨⟨hcheck, hfree⟩, hrest⟩ := List.forall_mem_cons.mp h
    rw [checkLegs, hcheck, OrderedMap.contains, hfree]
    exact ih hrest

/-- Legs are refused for the first line that is taken, if they all pass the check until then. -/
theorem checkLegs_taken {s : StockState} {before : List Movement} {m : Movement}
    (after : List Movement)
    (hbefore : ∀ b ∈ before, b.check = .ok () ∧ s.index.get? b.documentLine = none)
    (hcheck : m.check = .ok ()) (htaken : s.index.contains m.documentLine = true) :
    checkLegs s (before ++ m :: after) =
      .error (.conflict s!"ref_line {m.line} of {m.reference} is already used") := by
  induction before with
  | nil =>
    rw [List.nil_append, checkLegs, hcheck]
    exact if_pos htaken
  | cons b rest ih =>
    obtain ⟨⟨hb, hfree⟩, hrest⟩ := List.forall_mem_cons.mp hbefore
    rw [List.cons_append, checkLegs, hb, OrderedMap.contains, hfree]
    exact ih hrest

/-- An allocation that succeeds is a repetition and changes nothing, or its first line is free
and it plans, checks its legs and writes them down. -/
theorem allocate_eq_ok {s t : StockState} {r : AllocationRequest} {a : AllocationResult}
    (h : (allocate r).runFrom s = (.ok a, t)) :
    (∃ legs, priorLegs (s.entriesOf r.reference) r = .ok (some legs) ∧ a = .ofPrior r legs ∧
      t = s) ∨
    (priorLegs (s.entriesOf r.reference) r = .ok none ∧ a.replayed = false ∧
      planAllocation r.item r.warehouse r.quantity (s.candidates r.item r.warehouse)
        r.planOptions = .ok a.plan ∧
      checkLegs s (r.legMovements a.plan.legs) = .ok () ∧
      (writeLegs (r.legMovements a.plan.legs)).runFrom s = (.ok a.entries, t)) := by
  rw [allocate, runFrom_get_bind, runFrom_ofRule_bind_ok_iff] at h
  obtain ⟨prior, hprior, h⟩ := h
  cases prior with
  | some legs =>
    cases h
    exact .inl ⟨legs, hprior, rfl, rfl⟩
  | none =>
    obtain ⟨p, u, hrun, h⟩ := runFrom_bind_ok_iff.mp h
    rw [plan, runFrom_get_bind, runFrom_ofRule_ok_iff] at hrun
    obtain ⟨hp, rfl⟩ := hrun
    obtain ⟨_, hcheck, h⟩ := runFrom_ofRule_bind_ok_iff.mp h
    obtain ⟨entries, v, hwrite, h⟩ := runFrom_bind_ok_iff.mp h
    cases h
    exact .inr ⟨hprior, rfl, hp, hcheck, hwrite⟩

/-! ## What a plan takes -/

/-- Whether the request may use stock that expires on the given day, if on any. -/
def AllocationRequest.MayUse (r : AllocationRequest) (expiry : Option Date) : Prop :=
  r.allowExpired = true ∨ ∀ d, expiry = some d → r.occurredAt.date ≤ d

/-- What a plan for the request takes from the slots of a state. -/
structure Planned (s : StockState) (r : AllocationRequest) (p : AllocationPlan) : Prop where
  positive : 0 < r.quantity
  /-- Each leg takes something from a slot of the item, and no more than is there. -/
  covered : ∀ leg ∈ p.legs, leg.key.isOf r.item r.warehouse = true ∧ 0 < leg.quantity ∧
    ∃ slot, s.slots.get? leg.key = some slot ∧ leg.quantity ≤ slot.quantity
  /-- No two legs take from the same slot. -/
  apart : (p.legs.map (·.key)).Nodup
  total : sumOf (·.quantity) p.legs = r.quantity
  /-- A plan that kept to the queue takes all of what is due before a slot it uses. -/
  inOrder : p.outcome = .strict → ∀ k slot, s.slots.get? k = some slot →
    k.isOf r.item r.warehouse = true → 0 < slot.quantity → r.MayUse (s.expiryOf k) →
    ∀ leg ∈ p.legs, ∀ used, s.slots.get? leg.key = some used →
      DueBefore (s.expiryOf k) slot.sequence (s.expiryOf leg.key) used.sequence →
      ⟨k, slot.quantity, s.expiryOf k⟩ ∈ p.legs

theorem AllocationRequest.isEligible_candidateOf {s : StockState} {r : AllocationRequest}
    {k : StockKey} {slot : Slot} (hof : k.isOf r.item r.warehouse = true)
    (hpos : 0 < slot.quantity) (hmay : r.MayUse (s.expiryOf k)) :
    (s.candidateOf k slot).isEligible r.item r.warehouse r.planOptions = true := by
  simp only [Candidate.isEligible, StockState.candidateOf, planOptions, hof, hpos, decide_true,
    Bool.and_self, Bool.true_and, Bool.or_eq_true]
  rcases hmay with hall | hdate
  · exact .inl hall
  · right
    cases he : s.expiryOf k with
    | none => rfl
    | some d => exact decide_eq_true (hdate d he)

/-- Something is taken. -/
theorem Planned.legs_ne_nil {s : StockState} {r : AllocationRequest} {p : AllocationPlan}
    (h : Planned s r p) : p.legs ≠ [] := by
  intro hnil
  have := h.positive
  rw [← h.total, hnil, sumOf_nil] at this
  omega

theorem planned_of_planAllocation {s : StockState} {r : AllocationRequest} {p : AllocationPlan}
    (h : planAllocation r.item r.warehouse r.quantity (s.candidates r.item r.warehouse)
      r.planOptions = .ok p) : Planned s r p := by
  obtain ⟨hn, hle, rfl⟩ := planAllocation_eq_ok_iff.mp h
  generalize hq : queue r.item r.warehouse r.planOptions (s.candidates r.item r.warehouse) = q
    at hle
  have hkeys : (q.map (·.key)).Nodup := hq ▸ nodup_queue (s.nodup_candidates _ _)
  have hperm := prefer_perm r.planOptions.preferred q
  -- moving the preferred batch to the front changes nothing about what there is to take
  have hpos : ∀ c ∈ (prefer r.planOptions.preferred q).2, 0 < c.quantity := by
    intro c hc
    have hc := hperm.mem_iff.mp hc
    rw [← hq] at hc
    exact pos_of_mem_queue hc
  have hoffered : r.quantity ≤ offered (prefer r.planOptions.preferred q).2 := by
    rw [offered, sumOf_perm _ hperm]
    exact hle
  have hslot : ∀ c ∈ q, c.key.isOf r.item r.warehouse = true ∧
      ∃ slot, s.slots.get? c.key = some slot ∧ c = s.candidateOf c.key slot := by
    intro c hc
    rw [← hq] at hc
    obtain ⟨k, slot, hget, hof, -, rfl⟩ := StockState.mem_candidates_iff.mp (mem_queue_iff.mp hc).1
    exact ⟨hof, slot, hget, rfl⟩
  constructor
  case positive => exact hn
  case covered =>
    intro leg hleg
    obtain ⟨c, hc, hk, hlow, hhigh⟩ := exists_of_mem_takeLegs hpos hn hoffered hleg
    obtain ⟨hof, slot, hget, hceq⟩ := hslot c (hperm.mem_iff.mp hc)
    rw [hk] at hof hget hceq
    refine ⟨hof, hlow, slot, hget, ?_⟩
    rw [hceq] at hhigh
    exact hhigh
  case apart =>
    exact ((hperm.map _).nodup_iff.mpr hkeys).sublist
      (prefix_keys_takeLegs hpos hn hoffered).sublist
  case total => exact sumOf_takeLegs hpos hn hoffered
  case inOrder =>
    intro hstrict k slot hget hof hslotpos hmay leg hleg used hused hdue
    replace hstrict : (prefer r.planOptions.preferred q).1 = .strict := hstrict
    replace hleg : leg ∈ takeLegs r.quantity (prefer r.planOptions.preferred q).2 := hleg
    show _ ∈ takeLegs r.quantity (prefer r.planOptions.preferred q).2
    rw [prefer_of_strict hstrict] at hleg hpos hoffered ⊢
    obtain ⟨c, hc, hck, -, -⟩ := exists_of_mem_takeLegs hpos hn hoffered hleg
    obtain ⟨-, slot', hget', hceq⟩ := hslot c hc
    rw [hck] at hget' hceq
    obtain rfl : used = slot' := Option.some.inj (hused.symm.trans hget')
    have hsorted : q.Pairwise (fun a b => ¬ b.Before a) := hq ▸ pairwise_queue
    have hmem : s.candidateOf k slot ∈ q := by
      rw [← hq, mem_queue_iff, StockState.mem_candidates_iff]
      exact ⟨⟨k, slot, hget, hof, hslotpos, rfl⟩,
        AllocationRequest.isEligible_candidateOf hof hslotpos hmay⟩
    refine wholeLeg_mem_of_before hpos hn hoffered hkeys hsorted hmem hc ?_ ?_
    · rw [hck]
      exact List.mem_map_of_mem hleg
    · rw [hceq]
      exact hdue

/-! ## Writing a plan down -/

/-- The slot of a leg covers it. -/
theorem quantityAfter_leg {s : StockState} {r : AllocationRequest} {p : AllocationPlan}
    (hs : s.Attained) (hp : Planned s r p) {m : Movement} (hm : m ∈ r.legMovements p.legs) :
    quantityAfter (s.quantity m.key) m = .ok (s.quantity m.key + m.delta) := by
  obtain ⟨leg, hleg, line, rfl⟩ := AllocationRequest.exists_leg_of_mem hm
  obtain ⟨-, hlow, slot, hget, hhigh⟩ := hp.covered leg hleg
  have hq : s.quantity leg.key = slot.quantity := StockState.quantity_of_get? hget
  have hrange := hs.balanced.fits s.ledger (List.prefix_refl _) leg.key
  rw [← hs.balanced.slot, hq] at hrange
  simp only [IntegerRange.contains, Bool.and_eq_true, decide_eq_true_eq] at hrange
  refine quantityAfter_eq_ok_iff.mpr ⟨rfl, ?_, ?_⟩
  · simp only [AllocationRequest.legMovement, hq, IntegerRange.contains, Bool.and_eq_true,
      decide_eq_true_eq]
    have : IntegerRange.signed64.least ≤ 0 := by decide
    omega
  · simp only [AllocationRequest.legMovement, hq]
    omega

/-- The legs of a plan may all be entered, if they pass the check that is made beforehand. -/
theorem admitsAll_legMovements {s : StockState} {r : AllocationRequest} {p : AllocationPlan}
    (hs : s.Attained) (hp : Planned s r p) (hc : checkLegs s (r.legMovements p.legs) = .ok ()) :
    s.AdmitsAll (r.legMovements p.legs) := by
  have hcheck := checkLegs_eq_ok hc
  constructor
  case each =>
    intro m hm
    have hfits := quantityAfter_leg hs hp hm
    obtain ⟨leg, hleg, line, rfl⟩ := AllocationRequest.exists_leg_of_mem hm
    obtain ⟨-, hlow, slot, hget, -⟩ := hp.covered leg hleg
    constructor
    case valid => exact (hcheck _ hm).1
    case fresh => simp only [StockState.entryAt?, (hcheck _ hm).2, Option.bind_none]
    case moves => simp only [AllocationRequest.legMovement]; omega
    case fits => exact hfits
    case batch => exact hs.stocked _ _ hget
  case free => exact fun m hm => (hcheck m hm).2
  case apart =>
    refine List.Pairwise.and ?_ (r.pairwise_line_legMovements p.legs)
    have := hp.apart
    rw [← r.map_key_legMovementsFrom r.startLine] at this
    exact List.pairwise_map.mp this

/-- An allocation that succeeds and is not a repetition enters the legs of its plan. -/
theorem allocate_fresh {s t : StockState} {r : AllocationRequest} {a : AllocationResult}
    (hs : s.Attained) (h : (allocate r).runFrom s = (.ok a, t)) (fresh : a.replayed = false) :
    (plan r.item r.warehouse r.quantity r.planOptions).runFrom s = (.ok a.plan, s) ∧
    Planned s r a.plan ∧ a.entries = s.entriesFor (r.legMovements a.plan.legs) ∧
    t = s.enterAll (r.legMovements a.plan.legs) := by
  rcases allocate_eq_ok h with ⟨_, _, rfl, _⟩ | ⟨_, _, hplan, hcheck, hwrite⟩
  · cases fresh
  · have hp := planned_of_planAllocation hplan
    -- all that is checked while the legs are written has been made sure of before
    rw [writeLegs_admitted (admitsAll_legMovements hs hp hcheck)] at hwrite
    obtain ⟨hentries, rfl⟩ := Prod.mk.inj hwrite
    refine ⟨?_, hp, (Except.ok.inj hentries).symm, rfl⟩
    rw [plan, runFrom_get_bind, hplan, runFrom_ofRule_ok]

/-- Each leg has its entry, on the next line of the document. -/
theorem map_entriesFor_legMovements (s : StockState) (r : AllocationRequest)
    (legs : List AllocationLeg) :
    (s.entriesFor (r.legMovements legs)).map (fun e => (e.key, e.delta, e.reference, e.line)) =
      legs.mapIdx (fun i leg => (leg.key, -leg.quantity, r.reference, r.startLine + i)) := by
  rw [StockState.map_entriesFor, AllocationRequest.legMovements, r.legMovementsFrom_eq, eq_comm,
    List.mapIdx_eq_iff]
  intro i
  simp only [List.getElem?_map, List.getElem?_mapIdx, Option.map_map]
  rfl

/-- What an allocation of the request `r`, not a repetition, with the answer `a` has done to
stock that was `s` and now is `t`. -/
structure Executed (s : StockState) (r : AllocationRequest) (a : AllocationResult)
    (t : StockState) : Prop where
  /-- The plan is the one that planning alone gives. -/
  plan : (store.plan r.item r.warehouse r.quantity r.planOptions).runFrom s = (.ok a.plan, s)
  /-- Each leg has its entry, on the next line of the document. -/
  entries : a.entries.map (fun e => (e.key, e.delta, e.reference, e.line)) =
    a.plan.legs.mapIdx (fun i leg => (leg.key, -leg.quantity, r.reference, r.startLine + i))
  /-- The entries end the ledger. -/
  ledger : t.ledger = s.ledger ++ a.entries
  /-- Exactly what was asked for has gone out. -/
  total : sumOf (fun e => -e.delta) a.entries = r.quantity
  /-- The slot of each leg drops by the leg, and not below zero. -/
  taken : ∀ leg ∈ a.plan.legs, ∃ slot, s.slots.get? leg.key = some slot ∧
    0 ≤ slot.quantity - leg.quantity ∧
    t.slots.get? leg.key = some { slot with quantity := slot.quantity - leg.quantity }
  /-- All other slots stay, -/
  slots : ∀ k, k ∉ a.plan.legs.map (·.key) → t.slots.get? k = s.slots.get? k
  /-- all batches stay, -/
  batches : t.batches = s.batches
  /-- and all snapshots. -/
  snapshots : t.snapshots = s.snapshots
  /-- If the plan kept to the queue, all that might go out and is due before a slot that was
  used has gone out. The slots bear numbers in the order of their creation
  (`StockState.Attained.sequence_lt`). -/
  inOrder : a.plan.outcome = .strict → ∀ k slot, s.slots.get? k = some slot →
    k.isOf r.item r.warehouse = true → 0 < slot.quantity → r.MayUse (s.expiryOf k) →
    ∀ leg ∈ a.plan.legs, ∀ used, s.slots.get? leg.key = some used →
      DueBefore (s.expiryOf k) slot.sequence (s.expiryOf leg.key) used.sequence →
      t.quantity k = 0

/-- In all stock there can be, an allocation that succeeds and is not a repetition has done
what its plan says, first expiry first, and nothing else. -/
theorem allocation_executed {s t : StockState} {r : AllocationRequest} {a : AllocationResult}
    (hs : s.Reachable) (h : (store.allocate r).runFrom s = (.ok a, t))
    (fresh : a.replayed = false) : Executed s r a t := by
  obtain ⟨hplan, hp, hentries, rfl⟩ := allocate_fresh hs.attained h fresh
  have hkeys : (r.legMovements a.plan.legs).map (·.key) = a.plan.legs.map (·.key) :=
    r.map_key_legMovementsFrom _ _
  have htaken : ∀ leg ∈ a.plan.legs, ∀ slot, s.slots.get? leg.key = some slot →
      (s.enterAll (r.legMovements a.plan.legs)).slots.get? leg.key =
        some { slot with quantity := slot.quantity - leg.quantity } := by
    intro leg hleg slot hget
    obtain ⟨i, hi, rfl⟩ := List.getElem_of_mem hleg
    have hm : r.legMovement a.plan.legs[i] (r.startLine + i) ∈ r.legMovements a.plan.legs := by
      rw [AllocationRequest.legMovements, r.legMovementsFrom_eq]
      exact List.mem_mapIdx.mpr ⟨i, hi, rfl⟩
    exact StockState.get?_slots_enterAll_of_mem (hkeys ▸ hp.apart) hm hget
  constructor
  case plan => exact hplan
  case entries => rw [hentries, map_entriesFor_legMovements]
  case ledger => rw [StockState.ledger_enterAll, hentries]
  case total =>
    have hdelta := congrArg (sumOf (fun x => -x.2.1))
      (s.map_entriesFor (r.legMovements a.plan.legs))
    rw [sumOf_map, sumOf_map, ← hentries] at hdelta
    rw [hdelta, ← hp.total]
    exact r.sumOf_legMovementsFrom _ _
  case taken =>
    intro leg hleg
    obtain ⟨-, -, slot, hget, hle⟩ := hp.covered leg hleg
    exact ⟨slot, hget, by omega, htaken leg hleg slot hget⟩
  case slots =>
    intro k hk
    exact StockState.get?_slots_enterAll_of_not_mem (hkeys ▸ hk)
  case batches => exact s.batches_enterAll _
  case snapshots => exact s.snapshots_enterAll _
  case inOrder =>
    intro hstrict k slot hget hof hpos hmay leg hleg used hused hdue
    have hleg := hp.inOrder hstrict k slot hget hof hpos hmay leg hleg used hused hdue
    rw [StockState.quantity_of_get? (htaken _ hleg slot hget)]
    exact Int.sub_self _

namespace Sample

/-- The answer to an order of six: all of batch B, which expires first, and two of batch A. -/
def shipment : AllocationResult :=
  let r := order 1 6
  let legB : AllocationLeg := ⟨key "B", 4, stock.expiryOf (key "B")⟩
  let legA : AllocationLeg := ⟨key "A", 2, stock.expiryOf (key "A")⟩
  ⟨⟨r.item, r.warehouse, 6, [legB, legA], .strict⟩,
    [(r.legMovement legB 1).toEntry 3 0, (r.legMovement legA 2).toEntry 4 3], false⟩

theorem allocate_order :
    (store.allocate (order 1 6)).runFrom stock = (.ok shipment, shipped) := by rfl

end Sample

theorem allocation_executed_shipped :
    Sample.shipment.replayed = false ∧
    Executed Sample.stock (Sample.order 1 6) Sample.shipment Sample.shipped :=
  ⟨rfl, allocation_executed Sample.reachable_stock Sample.allocate_order rfl⟩

end Stockroom
