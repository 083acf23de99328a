/-
Stockroom.Proofs.Sql.Collisions — an allocation whose plan needs a line that is taken.

* Memory looks at all lines before it writes the first leg, and finds a conflict
  (`checkLegs_taken`).
* A server is not asked about the lines behind the first one. It is `KeepingLines`: a leg on a free
  line is inserted, and one on a line that is taken violates the unique key of the ledger. That
  comes up only when the turn of that leg has come (`asked_writeLegs_taken`), behind legs that were
  written, and it is taken for a race with another writer.
* `allocate_collides`: nothing remains in either case, and the failures are of different kinds.
-/
import Stockroom.Proofs.Refusal
import Stockroom.Proofs.Sql.Allocations

namespace Stockroom

namespace Sql

open StoreM

/-! ## The server -/

/-- Whether a server answers what the request reads out of the state, and keeps the lines of the
ledger apart: an entry on a line that is taken there violates the unique key. -/
structure KeepingLines (server : Server) (s : StockState) (r : AllocationRequest)
    (number : StockKey → Int) : Prop extends AnswersReads server s r number where
  sets : ∀ slot quantity past, ∃ rs, server past (.updateQuantity slot quantity) = .rows rs
  inserts : ∀ m after past, s.entryAt? m.documentLine = none → ∃ id : Int,
    server past (.insertEntry m after) = .rows [[("id", .integer id)]]
  refuses : ∀ m after past, (s.entryAt? m.documentLine).isSome = true → ∃ e : ServerError,
    server past (.insertEntry m after) = .error e ∧ e.isUniqueViolation = true

/-! ## The leg whose line is taken -/

section Collision

variable {u : Session} {s : StockState} {r : AllocationRequest} {number : StockKey → Int}
  {p : AllocationPlan} {locked : List Candidate} {before after : List Movement} {m : Movement}

/-- The failure that the server's refusal of an entry is taken for. -/
def lostRace (m : Movement) : StoreError :=
  .concurrency s!"ledger entry ({m.reference}, {m.line}) written concurrently"

/-- An entry on a line that is taken is refused. -/
theorem asked_writeMovement_taken (hserver : KeepingLines u.server s r number)
    (htaken : (s.entryAt? m.documentLine).isSome = true) (slot quantity : Int) :
    Says u (Stock.writeMovement slot m quantity)
      (Asked [.updateQuantity slot quantity, .insertEntry m quantity]
        (· = .error (lostRace m))) := by
  refine asked_execute_bind (hserver.sets slot quantity) ?_
  refine Says.asked_bind_error (e := lostRace m)
    ((Stock.asks_insertEntry m quantity).asked fun past => ?_) rfl
  obtain ⟨e, he, hunique⟩ := hserver.refuses m quantity past htaken
  rw [he]
  exact if_pos hunique

/-- What a leg needs to be written, its line apart. -/
structure Writable (number : StockKey → Int) (locked : List Candidate) (s : StockState)
    (m : Movement) : Prop where
  held : Held number locked s m
  valid : m.check = .ok ()
  fits : quantityAfter (s.quantity m.key) m = .ok (s.quantity m.key + m.delta)

/-- The legs before the first line that is taken are written, and the leg of that line fails. -/
theorem asked_writeLegs_taken (hserver : KeepingLines u.server s r number)
    (hbefore : ∀ b ∈ before, Writable number locked s b ∧ s.entryAt? b.documentLine = none)
    (hm : Writable number locked s m) (htaken : (s.entryAt? m.documentLine).isSome = true) :
    Says u (Stock.writeLegs locked (before ++ m :: after))
      (Asked (before.flatMap (legWrite number s) ++ legWrite number s m)
        (· = .error (lostRace m))) := by
  induction before with
  | nil =>
    obtain ⟨c, hfind, hnumber, hquantity⟩ := hm.held
    rw [List.nil_append, Stock.writeLegs]
    simp only [hfind]
    refine says_ofRule_ok hm.valid ?_
    refine says_ofRule_ok (a := s.quantity m.key + m.delta) ?_ ?_
    · rw [hquantity]
      exact hm.fits
    · rw [hnumber]
      exact (asked_writeMovement_taken hserver htaken _ _).asked_bind_error rfl
  | cons b rest ih =>
    obtain ⟨⟨hb, hfree⟩, hrest⟩ := List.forall_mem_cons.mp hbefore
    rw [List.cons_append, List.flatMap_cons, List.append_assoc]
    refine (asked_writeLegs_cons hb.held hb.valid hb.fits (hserver.sets _ _)
      (fun past => hserver.inserts b _ past hfree) (ih hrest)).imp ?_
    rintro xs out ⟨hxs, id, _, rfl, rfl⟩
    exact ⟨hxs, rfl⟩

/-- A list with a line that is taken has a first one. -/
theorem exists_first_taken {ms : List Movement}
    (h : ∃ m ∈ ms, (s.entryAt? m.documentLine).isSome = true) :
    ∃ before m after, ms = before ++ m :: after ∧
      (∀ b ∈ before, s.entryAt? b.documentLine = none) ∧
      (s.entryAt? m.documentLine).isSome = true := by
  obtain ⟨m, hm⟩ := Option.isSome_iff_exists.mp
    (List.find?_isSome (p := fun m : Movement => (s.entryAt? m.documentLine).isSome) |>.mpr h)
  obtain ⟨htaken, before, after, rfl, hbefore⟩ := List.find?_eq_some_iff_append.mp hm
  exact ⟨before, m, after, rfl, fun b hb => by simpa using hbefore b hb, htaken⟩

/-- All legs of a plan pass the check, if the request is one for an outbound reason with a reference
and lines from one on. -/
theorem check_of_mem_legMovements (hreference : Text.isBlankText r.reference = false)
    (hreason : r.reason.direction = .outbound) (hstart : 1 ≤ r.startLine) (hp : Planned s r p) :
    ∀ m ∈ r.legMovements p.legs, m.check = .ok () := by
  intro m hm
  rw [AllocationRequest.legMovements, r.legMovementsFrom_eq, List.mem_mapIdx] at hm
  obtain ⟨i, hi, rfl⟩ := hm
  have hpos := (hp.covered _ (List.getElem_mem hi)).2.1
  refine Movement.check_eq_ok_iff.mpr ⟨hreference, ?_, ?_, ?_⟩
  · simp only [AllocationRequest.legMovement]
    omega
  · rintro ⟨hin, -⟩
    rw [AllocationRequest.legMovement, hreason] at hin
    cases hin
  · rintro ⟨-, hlow⟩
    simp only [AllocationRequest.legMovement] at hlow
    omega

variable (hs : s.Attained) (hprior : priorLegs (s.entriesOf r.reference) r = .ok none)
  (hplan : planAllocation r.item r.warehouse r.quantity (s.candidates r.item r.warehouse)
    r.planOptions = .ok p)
  (hcheck : ∀ b ∈ before ++ m :: after, b.check = .ok ())
  (hsplit : r.legMovements p.legs = before ++ m :: after)
  (hbefore : ∀ b ∈ before, s.entryAt? b.documentLine = none)
  (htaken : (s.entryAt? m.documentLine).isSome = true)

include hs hprior hplan hcheck hsplit hbefore htaken

/-- In memory all lines are looked at before the first leg is written. -/
theorem allocate_taken :
    (MemoryStock.allocate r).runFrom s =
      (.error (.domain (.conflict s!"ref_line {m.line} of {m.reference} is already used")),
        s) := by
  obtain ⟨hvalid, hrest⟩ := List.forall_mem_append.mp hcheck
  have hrefused := checkLegs_taken after
    (fun b hb => ⟨hvalid b hb, hs.indexed.get?_eq_none (hbefore b hb)⟩)
    (hrest m List.mem_cons_self) (StockState.contains_index htaken)
  simp only [MemoryStock.allocate, MemoryStock.plan, runFrom_bind, runFrom_get, hprior, hplan,
    runFrom_ofRule_ok, hsplit, hrefused, runFrom_ofRule_error]

/-- On a server the legs before the first line that is taken are written first. -/
theorem asked_allocationBody_taken (hserver : KeepingLines u.server s r number)
    (hkeys : s.Storable) :
    Says u (allocationBody r)
      (Asked (.selectEntries r.reference :: .selectCandidates r.item r.warehouse true ::
        .selectEntries r.reference ::
          (before.flatMap (legWrite number s) ++ legWrite number s m))
        (· = .error (lostRace m))) := by
  have hp := planned_of_planAllocation hplan
  refine asked_allocationBody hserver.toAnswersReads hs hkeys hprior fun locked hlocked => ?_
  refine says_ofRule_ok (a := p) ?_ ?_
  · rw [planAllocation_locked hserver.toAnswersReads hs hlocked, hplan]
  · have hwritable : ∀ b ∈ before ++ m :: after, Writable number locked s b := by
      intro b hb
      have hleg : b ∈ r.legMovements p.legs := hsplit ▸ hb
      exact ⟨held_of_planned hlocked hp b hleg, hcheck b hb, quantityAfter_leg hs hp hleg⟩
    obtain ⟨hwrites, hrest⟩ := List.forall_mem_append.mp hwritable
    rw [hsplit]
    exact (asked_writeLegs_taken hserver (fun b hb => ⟨hwrites b hb, hbefore b hb⟩)
      (hrest m List.mem_cons_self) htaken).asked_bind_error rfl

end Collision

/-! ## The allocation -/

/-- If the plan of a request needs a line that is taken, its first line being free, nothing of the
allocation remains. Memory has found a conflict before it wrote anything. The server has been asked
to write the legs before that line, and its refusal of the next one is answered as a race that was
lost to another writer. -/
theorem allocate_collides {u : Session} {s : StockState} {r : AllocationRequest}
    {number : StockKey → Int} {p : AllocationPlan} (hopen : u.isOpen = true) (hs : s.Reachable)
    (hkeys : s.Storable) (hserver : KeepingLines u.server s r number)
    (hreference : Text.isBlankText r.reference = false)
    (hreason : r.reason.direction = .outbound) (hstart : 1 ≤ r.startLine)
    (hplan : (MemoryStock.store.plan r.item r.warehouse r.quantity r.planOptions).runFrom s =
      (.ok p, s))
    (hfree : s.entryAt? ⟨r.reference, r.startLine⟩ = none)
    (htaken : ∃ m ∈ r.legMovements p.legs, (s.entryAt? m.documentLine).isSome = true) :
    ∃ before m after, r.legMovements p.legs = before ++ m :: after ∧ before ≠ [] ∧
      (∀ b ∈ before, s.entryAt? b.documentLine = none) ∧
      (s.entryAt? m.documentLine).isSome = true ∧
      (MemoryStock.store.allocate r).runFrom s =
        (.error (.domain (.conflict s!"ref_line {m.line} of {m.reference} is already used")),
          s) ∧
      ∃ said, (Stock.store.allocate r).runFrom u = (.error (lostRace m), u.said said) ∧
        said.map (·.statement) =
          [.begin, .selectEntries r.reference, .selectCandidates r.item r.warehouse true,
            .selectEntries r.reference] ++ before.flatMap (legWrite number s) ++
          legWrite number s m ++ [.rollback] := by
  have hatt := hs.attained
  have hprior := (priorLegs_eq_none_iff hatt).mpr hfree
  replace hplan : planAllocation r.item r.warehouse r.quantity
      (s.candidates r.item r.warehouse) r.planOptions = .ok p :=
    (runFrom_ofRule_ok_iff.mp hplan).1
  have hp := planned_of_planAllocation hplan
  have hcheck := check_of_mem_legMovements hreference hreason hstart hp
  obtain ⟨before, m, after, hsplit, hbefore, hm⟩ := exists_first_taken htaken
  rw [hsplit] at hcheck
  have hne : before ≠ [] := by
    -- the first leg is on the first line
    rintro rfl
    obtain ⟨leg, rest, hcons⟩ := List.exists_cons_of_ne_nil hp.legs_ne_nil
    rw [hcons] at hsplit
    obtain ⟨rfl, -⟩ := List.cons.inj hsplit
    replace hm : (s.entryAt? ⟨r.reference, r.startLine⟩).isSome = true := hm
    rw [hfree] at hm
    cases hm
  have hbody := asked_allocationBody_taken hatt hprior hplan hcheck hsplit hbefore hm
    hserver hkeys
  obtain ⟨said, hsaid, o, rfl, hqs, hout⟩ :=
    (asked_transaction hopen hserver.toObliging hbody).here
  have hmemory := allocate_taken hatt hprior hplan hcheck hsplit hbefore hm
  refine ⟨before, m, after, hsplit, hne, hbefore, hm, hmemory, said, ?_, ?_⟩
  · show (Stock.allocate r).runFrom u = _
    rw [allocate_eq]
    exact Prod.ext hout hsaid
  · rw [hqs]
    simp [closing]

/-- The server that mirrors a state, and keeps the lines of its ledger apart. -/
def Server.keeping (s : StockState) : Server
  | past, .insertEntry m after =>
    if (s.entryAt? m.documentLine).isSome then
      .error ⟨"23505", "duplicate key value violates unique constraint"⟩
    else Server.mirroring s past (.insertEntry m after)
  | past, q => Server.mirroring s past q

theorem keepingLines_keeping (s : StockState) (r : AllocationRequest) :
    KeepingLines (.keeping s) s r (slotNumber s) where
  toObliging := ⟨fun _ => ⟨_, rfl⟩, fun _ => ⟨_, rfl⟩⟩
  entries := (answersRequest_mirroring s r).entries
  candidates := (answersRequest_mirroring s r).candidates
  order := (answersRequest_mirroring s r).order
  sets _ _ _ := ⟨_, rfl⟩
  inserts m after past h := by
    simp only [Server.keeping, h]
    exact ⟨_, rfl⟩
  refuses m after past h := by
    simp only [Server.keeping, h, if_true]
    exact ⟨_, rfl, rfl⟩

namespace Collision

open Stockroom.Sample

theorem reachable_taken : taken.Reachable := reachable_stock.run _

theorem storable_taken : taken.Storable := by decide +kernel

theorem plan_taken : (MemoryStock.store.plan (order 1 6).item (order 1 6).warehouse
    (order 1 6).quantity (order 1 6).planOptions).runFrom taken = (.ok shipment.plan, taken) := by
  rfl

theorem first_free : taken.entryAt? ⟨(order 1 6).reference, (order 1 6).startLine⟩ = none := by
  rfl

theorem second_taken : ∃ m ∈ (order 1 6).legMovements shipment.plan.legs,
    (taken.entryAt? m.documentLine).isSome = true := by decide +kernel

theorem race_lost : ((Stock.store.allocate (order 1 6)).runFrom (.start (.keeping taken))).1 =
    .error (.concurrency "ledger entry (SO-1, 2) written concurrently") := by rfl

end Collision

open Collision Stockroom.Sample in
/-- All of batch B would go out on the first line, and two of batch A on the second one, which is
taken by a pick. -/
theorem allocate_collides_pick :
    taken.Reachable ∧ taken.Storable ∧
    KeepingLines (.keeping taken) taken (order 1 6) (slotNumber taken) ∧
    Text.isBlankText (order 1 6).reference = false ∧ (order 1 6).reason.direction = .outbound ∧
    1 ≤ (order 1 6).startLine ∧
    taken.entryAt? ⟨(order 1 6).reference, (order 1 6).startLine⟩ = none ∧
    ∃ before m after, (order 1 6).legMovements shipment.plan.legs = before ++ m :: after ∧
      before ≠ [] ∧ (∀ b ∈ before, taken.entryAt? b.documentLine = none) ∧
      (taken.entryAt? m.documentLine).isSome = true ∧
      (MemoryStock.store.allocate (order 1 6)).runFrom taken =
        (.error (.domain (.conflict s!"ref_line {m.line} of {m.reference} is already used")),
          taken) ∧
      ∃ said, (Stock.store.allocate (order 1 6)).runFrom (.start (.keeping taken)) =
          (.error (lostRace m), (Session.start (.keeping taken)).said said) ∧
        said.map (·.statement) =
          [.begin, .selectEntries "SO-1", .selectCandidates ⟨10⟩ ⟨1⟩ true,
            .selectEntries "SO-1"] ++ before.flatMap (legWrite (slotNumber taken) taken) ++
          legWrite (slotNumber taken) taken m ++ [.rollback] := by
  have hserver := keepingLines_keeping taken (order 1 6)
  exact ⟨reachable_taken, storable_taken, hserver, by decide, by decide, by decide, first_free,
    allocate_collides (u := .start (.keeping taken)) rfl reachable_taken storable_taken hserver
      (by decide) (by decide) (by decide) plan_taken first_free second_taken⟩

open Collision Stockroom.Sample in
/-- Who asks for what is taken is not told the same by both: a conflict in memory is a lost race on
the server. -/
theorem allocate_collides_apart :
    ¬ ∀ (u : Session) (s : StockState) (r : AllocationRequest) (number : StockKey → Int)
        (p : AllocationPlan), u.isOpen = true → s.Reachable → s.Storable →
      KeepingLines u.server s r number → Text.isBlankText r.reference = false →
      r.reason.direction = .outbound → 1 ≤ r.startLine →
      (MemoryStock.store.plan r.item r.warehouse r.quantity r.planOptions).runFrom s =
        (.ok p, s) →
      s.entryAt? ⟨r.reference, r.startLine⟩ = none →
      (∃ m ∈ r.legMovements p.legs, (s.entryAt? m.documentLine).isSome = true) →
      (∃ detail, ((MemoryStock.store.allocate r).runFrom s).1 =
        .error (.domain (.conflict detail))) ∧
      ∃ detail, ((Stock.store.allocate r).runFrom u).1 = .error (.domain (.conflict detail)) := by
  intro h
  obtain ⟨-, detail, hserver⟩ := h (.start (.keeping taken)) taken (order 1 6) (slotNumber taken)
    shipment.plan rfl reachable_taken storable_taken (keepingLines_keeping taken (order 1 6))
    (by decide) (by decide) (by decide) plan_taken first_free second_taken
  rw [race_lost] at hserver
  cases hserver

end Sql

end Stockroom
