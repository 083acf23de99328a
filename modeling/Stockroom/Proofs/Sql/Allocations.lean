/-
Stockroom.Proofs.Sql.Allocations — an allocation comes to the same on a server as in memory.

* `AnswersReads`: the server answers what an allocation reads out of a state: the entries of the
  reference, and the slots of the item that hold something. The rows may come in any order, and the
  rows of slots bear numbers that go up as the slots were created. `AnswersRequest`: besides, writes
  are carried out.
* Both sides find the same earlier legs (`readPrior_agrees`) and make the same plan
  (`planAllocation_renumbered`). What a locked slot holds is still there when the turn of its leg
  comes, since no two legs take from one slot (`asked_writeLegs`).
* `allocate_agrees`: the answers are the same but for the numbers of ledger rows, and each leg is
  written with the quantity and the entry that it has in memory. The lines that the plan needs have
  to be free: in memory all of them are looked at beforehand, and the server is not asked for them.
-/
import Stockroom.Proofs.Sql.Movements
import Stockroom.Proofs.Stock.Independence

namespace Stockroom

namespace Sql

open StoreM

/-! ## The server -/

/-- Whether a server answers what the request reads out of the state, whatever it does about
writes. The rows of slots bear the given numbers, those of the ledger any. -/
structure AnswersReads (server : Server) (s : StockState) (r : AllocationRequest)
    (number : StockKey → Int) : Prop extends server.Obliging where
  entries : ∀ past, ∃ es : List LedgerEntry,
    (es.map LedgerEntry.unnumbered).Perm
      ((s.entriesOf r.reference).map LedgerEntry.unnumbered) ∧
    server past (.selectEntries r.reference) = .rows (es.map Row.ofEntry)
  candidates : ∀ past, ∃ cs : List Candidate,
    cs.Perm ((s.candidates r.item r.warehouse).map (·.renumbered number)) ∧
    server past (.selectCandidates r.item r.warehouse true) = .rows (cs.map Row.ofCandidate)
  /-- The numbers go up as the slots were created. -/
  order : SameOrder number (s.candidates r.item r.warehouse)

/-- Whether a server answers all that the request asks for: it carries out the writes as well. -/
structure AnswersRequest (server : Server) (s : StockState) (r : AllocationRequest)
    (number : StockKey → Int) : Prop extends AnswersReads server s r number where
  sets : ∀ slot quantity past, ∃ rs, server past (.updateQuantity slot quantity) = .rows rs
  numbers : ∀ m after past, ∃ id : Int,
    server past (.insertEntry m after) = .rows [[("id", .integer id)]]

/-- Whether the lines of a request are clear: its first line is taken, or every line that its plan
needs is free. -/
def LinesClear (s : StockState) (r : AllocationRequest) : Prop :=
  (∃ e, s.entryAt? ⟨r.reference, r.startLine⟩ = some e) ∨
    ∀ p, (MemoryStock.store.plan r.item r.warehouse r.quantity r.planOptions).runFrom s =
        (.ok p, s) →
      ∀ m ∈ r.legMovements p.legs, s.entryAt? m.documentLine = none

/-! ## What is compared -/

/-- The statements that write movements down as the given entries, a pair for each. -/
def legWrites (number : StockKey → Int) : List Movement → List LedgerEntry → List Statement
  | m :: ms, e :: es =>
    .updateQuantity (number e.key) e.after :: .insertEntry m e.after :: legWrites number ms es
  | _, _ => []

theorem settles_of_mem_legWrites {number : StockKey → Int} {ms : List Movement}
    {es : List LedgerEntry} {q : Statement} (h : q ∈ legWrites number ms es) :
    q.settles = true := by
  induction ms generalizing es with
  | nil => cases h
  | cons m ms ih =>
    cases es with
    | nil => cases h
    | cons e es =>
      rcases List.mem_cons.mp h with rfl | h
      · rfl
      · rcases List.mem_cons.mp h with rfl | h
        · rfl
        · exact ih h

/-- Whether an allocation is written down on the server as in memory, where it has left the state
`t`: each leg has its entry with the quantity that its slot has now, and its slot is set and its
entry is written accordingly. -/
structure SameLegs (number : StockKey → Int) (r : AllocationRequest) (a : AllocationResult)
    (t : StockState) (qs : List Statement) : Prop where
  entries : List.Forall₂ (fun m e => e = m.toEntry e.id (t.quantity m.key))
    (r.legMovements a.plan.legs) a.entries
  writes : qs.filter Statement.settles =
    legWrites number (r.legMovements a.plan.legs) a.entries ++ [.commit]

/-- Whether an allocation comes to the same on the server as in memory: the answer is the same but
for the numbers of ledger rows, and so is what is written. -/
structure SameAllocation (number : StockKey → Int) (r : AllocationRequest) (s : StockState)
    (memory : Except StoreError AllocationResult × StockState)
    (out : Except StoreError AllocationResult) (qs : List Statement) : Prop where
  answer : out.map (·.unnumbered) = memory.1.map (·.unnumbered)
  legs : ∀ a, memory.1 = .ok a → a.replayed = false → SameLegs number r a memory.2 qs
  /-- An allocation that fails, and one that is a repetition, writes nothing. -/
  idle : (∀ a, memory.1 = .ok a → a.replayed = true) →
    memory.2 = s ∧ qs.filter Statement.settles = []

section Agreement

variable {u : Session} {s t : StockState} {r : AllocationRequest} {number : StockKey → Int}
  {p : AllocationPlan} {e : DomainError} {locked : List Candidate} {ms : List Movement}
  {qs : List Statement}

/-! ## Earlier legs -/

/-- The answer that earlier legs make. -/
def priorAnswer (r : AllocationRequest) (prior : Except DomainError (Option (List LedgerEntry))) :
    Except StoreError (Option AllocationResult) :=
  (prior.mapError .domain).map (·.map (.ofPrior r))

theorem unnumbered_priorAnswer (r : AllocationRequest)
    (prior : Except DomainError (Option (List LedgerEntry))) :
    (priorAnswer r prior).map (·.map (·.unnumbered)) =
      priorAnswer r (prior.map (·.map (·.map LedgerEntry.unnumbered))) := by
  rcases prior with e | _ | legs
  · rfl
  · rfl
  · exact congrArg (fun a => Except.ok (some a)) (unnumbered_ofPrior r legs)

/-- What an earlier request has left is the same but for the numbers of the legs. -/
theorem readPrior_agrees (hserver : AnswersReads u.server s r number) (hs : s.Attained)
    (hkeys : s.Storable) (past : List Exchange) :
    (Stock.readPrior r (u.server past (.selectEntries r.reference))).map
        (·.map (·.unnumbered)) =
      (priorAnswer r (priorLegs (s.entriesOf r.reference) r)).map (·.map (·.unnumbered)) := by
  obtain ⟨es, hperm, hrows⟩ := hserver.entries past
  have hread : (u.server past (.selectEntries r.reference)).all "allocation_replay" Row.entry =
      .ok es := by
    rw [hrows]
    refine Reply.all_map fun e he => Row.entry_ofEntry ?_
    obtain ⟨e', he', heq⟩ := List.mem_map.mp (hperm.mem_iff.mp (List.mem_map_of_mem he))
    have hkey : e'.unnumbered.key = e.unnumbered.key := congrArg LedgerEntry.key heq
    show e.unnumbered.key.Storable
    rw [← hkey]
    exact hkeys.ledger e' (List.mem_filter.mp he').1
  have hprior : Stock.readPrior r (u.server past (.selectEntries r.reference)) =
      priorAnswer r (priorLegs es r) := by
    rw [Stock.readPrior, hread]
    show ((priorLegs es r).mapError StoreError.domain >>= fun legs =>
      pure (legs.map (AllocationResult.ofPrior r))) = _
    cases priorLegs es r <;> rfl
  rw [hprior, unnumbered_priorAnswer, unnumbered_priorAnswer,
    priorLegs_congr (hs.indexed.nodup_line_entriesOf r.reference) hperm r]

/-- Without earlier legs in memory there are none on the server. -/
theorem readPrior_eq_none (hserver : AnswersReads u.server s r number)
    (hs : s.Attained) (hkeys : s.Storable)
    (hprior : priorLegs (s.entriesOf r.reference) r = .ok none) (past : List Exchange) :
    Stock.readPrior r (u.server past (.selectEntries r.reference)) = .ok none := by
  have h := readPrior_agrees hserver hs hkeys past
  rw [hprior] at h
  obtain ⟨o, ho, hnone⟩ := map_eq_ok_iff.mp h
  rw [ho, Option.map_eq_none_iff.mp hnone]

/-- There are no earlier legs exactly if the first line is free. -/
theorem priorLegs_eq_none_iff (hs : s.Attained) :
    priorLegs (s.entriesOf r.reference) r = .ok none ↔
      s.entryAt? ⟨r.reference, r.startLine⟩ = none := by
  have hmem (e : LedgerEntry) : s.entryAt? ⟨r.reference, r.startLine⟩ = some e ↔
      e ∈ s.entriesOf r.reference ∧ (e.line == r.startLine) = true := by
    rw [hs.indexed.entryAt?_eq_some_iff, StockState.entriesOf, List.mem_filter, and_assoc]
    simp [LedgerEntry.documentLine]
  unfold priorLegs
  cases hfind : (s.entriesOf r.reference).find? (fun e => e.line == r.startLine) with
  | none =>
    refine iff_of_true rfl (Option.eq_none_iff_forall_ne_some.mpr fun e he => ?_)
    obtain ⟨hof, hline⟩ := (hmem e).mp he
    exact List.find?_eq_none.mp hfind e hof hline
  | some head =>
    have hline : (head.line == r.startLine) = true :=
      List.find?_some (p := fun e : LedgerEntry => e.line == r.startLine) hfind
    rw [(hmem head).mpr ⟨List.mem_of_find?_eq_some hfind, hline⟩]
    refine iff_of_false (fun hnone => ?_) (fun hnone => by cases hnone)
    dsimp only at hnone
    split at hnone <;> cases hnone

/-! ## Legs -/

/-- Both sides make the same plan. -/
theorem planAllocation_locked (hserver : AnswersReads u.server s r number) (hs : s.Attained)
    (hlocked : locked.Perm
      ((s.candidates r.item r.warehouse).map (·.renumbered number))) :
    planAllocation r.item r.warehouse r.quantity locked r.planOptions =
      planAllocation r.item r.warehouse r.quantity (s.candidates r.item r.warehouse)
        r.planOptions :=
  planAllocation_renumbered (fun _ hc _ hd => hs.candidate_eq_of_sequence_eq hc hd) hserver.order
    hlocked r.quantity

/-- Whether the slot of a movement is among those that are locked, with its number and with what it
holds in the state. -/
def Held (number : StockKey → Int) (locked : List Candidate) (t : StockState) (m : Movement) :
    Prop :=
  ∃ c, locked.find? (fun c => c.key == m.key) = some c ∧ c.sequence = number m.key ∧
    c.quantity = t.quantity m.key

theorem nodup_locked
    (hlocked : locked.Perm ((s.candidates r.item r.warehouse).map (·.renumbered number))) :
    (locked.map (·.key)).Nodup := by
  rw [(hlocked.map _).nodup_iff, List.map_map]
  exact s.nodup_candidates r.item r.warehouse

/-- The slots that a plan takes from are held. -/
theorem held_of_planned
    (hlocked : locked.Perm ((s.candidates r.item r.warehouse).map (·.renumbered number)))
    (hp : Planned s r p) : ∀ m ∈ r.legMovements p.legs, Held number locked s m := by
  intro m hm
  obtain ⟨leg, hleg, line, rfl⟩ := AllocationRequest.exists_leg_of_mem hm
  obtain ⟨hof, hlow, slot, hget, hhigh⟩ := hp.covered leg hleg
  have hmem : (s.candidateOf leg.key slot).renumbered number ∈ locked := by
    refine hlocked.mem_iff.mpr (List.mem_map_of_mem (StockState.mem_candidates_iff.mpr ?_))
    exact ⟨leg.key, slot, hget, hof, by omega, rfl⟩
  have hfind := (find?_key_eq_some_iff (nodup_locked hlocked)).mpr ⟨hmem, rfl⟩
  exact ⟨_, hfind, rfl, (StockState.quantity_of_get? hget).symm⟩

/-- One leg is written with whatever number the server gives to its row. -/
theorem asked_writeLeg {slot : Int} {m : Movement} {after : Int}
    (hset : ∀ past, ∃ rs, u.server past (.updateQuantity slot after) = .rows rs)
    (hinsert : ∀ past, ∃ id : Int,
      u.server past (.insertEntry m after) = .rows [[("id", .integer id)]]) :
    Says u (Stock.writeMovement slot m after)
      (Asked [.updateQuantity slot after, .insertEntry m after]
        fun o => ∃ e, o = .ok e ∧ ∃ id, e = m.toEntry id after) := by
  refine asked_execute_bind hset ?_
  refine Says.asked_bind (r := fun _ => True)
    ((Stock.asks_insertEntry m after).asked fun past => ?_) fun id _ => asked_pure ⟨_, rfl, id, rfl⟩
  obtain ⟨id, hid⟩ := hinsert past
  rw [hid]
  exact ⟨id, rfl, trivial⟩

/-- The statements that write a leg down. -/
def legWrite (number : StockKey → Int) (t : StockState) (m : Movement) : List Statement :=
  [.updateQuantity (number m.key) (t.quantity m.key + m.delta),
    .insertEntry m (t.quantity m.key + m.delta)]

/-- A leg whose slot is held is written, and the other legs after it. -/
theorem asked_writeLegs_cons {m : Movement} {p : Except StoreError (List LedgerEntry) → Prop}
    (hheld : Held number locked t m) (hcheck : m.check = .ok ())
    (hfits : quantityAfter (t.quantity m.key) m = .ok (t.quantity m.key + m.delta))
    (hset : ∀ past, ∃ rs, u.server past
      (.updateQuantity (number m.key) (t.quantity m.key + m.delta)) = .rows rs)
    (hinsert : ∀ past, ∃ id : Int, u.server past
      (.insertEntry m (t.quantity m.key + m.delta)) = .rows [[("id", .integer id)]])
    (hrest : Says u (Stock.writeLegs locked ms) (Asked qs p)) :
    Says u (Stock.writeLegs locked (m :: ms)) (Asked (legWrite number t m ++ qs) fun o =>
      ∃ id o', p o' ∧ o = o'.map (m.toEntry id (t.quantity m.key + m.delta) :: ·)) := by
  obtain ⟨c, hfind, hnumber, hquantity⟩ := hheld
  rw [Stock.writeLegs]
  simp only [hfind]
  refine says_ofRule_ok hcheck ?_
  refine says_ofRule_ok (a := t.quantity m.key + m.delta) ?_ ?_
  · rw [hquantity]
    exact hfits
  · rw [hnumber]
    refine (asked_writeLeg hset hinsert).asked_bind fun e he => ?_
    obtain ⟨id, rfl⟩ := he
    exact hrest.asked_mapped.imp fun _ _ h => ⟨h.1, id, h.2⟩

/-- Legs of different slots are written one after another as in memory: what was locked for a leg
is still what its slot holds when its turn comes. -/
theorem asked_writeLegs (hserver : AnswersRequest u.server s r number) (hms : t.AdmitsAll ms)
    (hheld : ∀ m ∈ ms, Held number locked t m) :
    Says u (Stock.writeLegs locked ms) (Asked (legWrites number ms (t.entriesFor ms))
      fun o => ∃ es, o = .ok es ∧ es.map LedgerEntry.unnumbered =
        (t.entriesFor ms).map LedgerEntry.unnumbered) := by
  induction ms generalizing t with
  | nil => exact asked_pure ⟨[], rfl, rfl⟩
  | cons m rest ih =>
    have hadmits := hms.each m List.mem_cons_self
    have hrest : ∀ m' ∈ rest,
        Held number locked (t.enter m (t.quantity m.key + m.delta)) m' := by
      intro m' hm'
      have hne : m.key ≠ m'.key := ((List.pairwise_cons.mp hms.apart).1 m' hm').1
      rw [Held, StockState.quantity_enter, if_neg hne]
      exact hheld m' (List.mem_cons_of_mem _ hm')
    refine (asked_writeLegs_cons (hheld m List.mem_cons_self) hadmits.valid hadmits.fits
      (hserver.sets _ _) (hserver.numbers m _) (ih hms.tail hrest)).imp ?_
    rintro xs out ⟨hxs, id, _, ⟨es, rfl, hes⟩, rfl⟩
    refine ⟨hxs, _, rfl, ?_⟩
    rw [List.map_cons, hes]
    rfl

/-- The answer to an allocation that has been written is the one in memory but for the numbers of
the entries. -/
theorem asked_writeAllocation (hserver : AnswersRequest u.server s r number)
    (hms : t.AdmitsAll ms) (hheld : ∀ m ∈ ms, Held number locked t m) :
    Says u (do
      let entries ← Stock.writeLegs locked ms
      pure (Ending.keep (AllocationResult.mk p entries false)))
      (Asked (legWrites number ms (t.entriesFor ms)) fun o =>
        ∃ es, o = .ok (.keep ⟨p, es, false⟩) ∧ es.map LedgerEntry.unnumbered =
          (t.entriesFor ms).map LedgerEntry.unnumbered) :=
  (asked_writeLegs hserver hms hheld).asked_map fun es hes => ⟨es, rfl, hes⟩

/-- The entries of movements of different slots say what their slots hold afterwards. -/
theorem forall₂_entriesFor (h : (ms.map (·.key)).Nodup) :
    List.Forall₂ (fun m e => e = m.toEntry e.id ((t.enterAll ms).quantity m.key)) ms
      (t.entriesFor ms) := by
  induction ms generalizing t with
  | nil => exact .nil
  | cons m rest ih =>
    obtain ⟨hhead, hrest⟩ := List.nodup_cons.mp h
    refine .cons ?_ (ih hrest)
    have hquantity : (t.enterAll (m :: rest)).quantity m.key = t.quantity m.key + m.delta := by
      rw [StockState.enterAll, StockState.quantity,
        StockState.get?_slots_enterAll_of_not_mem hhead, StockState.get?_slots_enter, if_pos rfl]
      rfl
    rw [hquantity]
    rfl

/-! ## Courses -/

/-- The body of the transaction of an allocation. -/
def allocationBody (r : AllocationRequest) : SqlM (Ending AllocationResult) := do
  match ← Stock.priorAllocation r with
  | some result => pure (.leave result)
  | none => Stock.allocateLocked r

theorem allocate_eq (r : AllocationRequest) :
    Stock.allocate r = transaction (allocationBody r) := rfl

/-- With nothing on the first line the slots are locked, and the reference is read once more. -/
theorem asked_allocationBody {po : Except StoreError (Ending AllocationResult) → Prop}
    (hserver : AnswersReads u.server s r number) (hs : s.Attained) (hkeys : s.Storable)
    (hprior : priorLegs (s.entriesOf r.reference) r = .ok none)
    (hrest : ∀ locked : List Candidate,
      locked.Perm ((s.candidates r.item r.warehouse).map (·.renumbered number)) →
      Says u (do
        let plan ← StoreM.ofRule
          (planAllocation r.item r.warehouse r.quantity locked r.planOptions)
        let entries ← Stock.writeLegs locked (r.legMovements plan.legs)
        pure (.keep ⟨plan, entries, false⟩)) (Asked qs po)) :
    Says u (allocationBody r) (Asked (.selectEntries r.reference ::
      .selectCandidates r.item r.warehouse true :: .selectEntries r.reference :: qs) po) := by
  have hnone := readPrior_eq_none hserver hs hkeys hprior
  refine (Stock.asks_priorAllocation r).asked_bind hnone ?_
  refine Says.asked_bind (r := fun locked : List Candidate =>
      locked.Perm ((s.candidates r.item r.warehouse).map (·.renumbered number)))
    ((Stock.asks_candidates _ _ _).asked fun past => ?_) fun locked hlocked =>
      (Stock.asks_priorAllocation r).asked_bind hnone (hrest locked hlocked)
  obtain ⟨cs, hperm, hrows⟩ := hserver.candidates past
  refine ⟨cs, ?_, hperm⟩
  rw [hrows]
  refine Reply.all_map fun c hc => Row.candidate_ofCandidate ?_
  obtain ⟨d, hd, rfl⟩ := List.mem_map.mp (hperm.mem_iff.mp hc)
  obtain ⟨k, slot, hget, -, -, rfl⟩ := StockState.mem_candidates_iff.mp hd
  exact hkeys.slots k slot hget

/-- Whether the allocation comes to the same in the session as in memory. -/
def Agrees (u : Session) (s : StockState) (r : AllocationRequest) (number : StockKey → Int) :
    Prop :=
  ∃ said out, (Stock.allocate r).runFrom u = (out, u.said said) ∧
    SameAllocation number r s ((MemoryStock.allocate r).runFrom s) out (said.map (·.statement))

/-- Whatever the body asks for and answers, the transaction has to come to the same as memory. -/
theorem agrees_of_asked {c : Statement} {po : Except StoreError (Ending AllocationResult) → Prop}
    (hopen : u.isOpen = true) (hserver : u.server.Obliging)
    (hbody : Says u (allocationBody r) (Asked qs po))
    (hagree : ∀ o, po o → closing o = c ∧ SameAllocation number r s
      ((MemoryStock.allocate r).runFrom s) (o.map Ending.answer) (.begin :: (qs ++ [c]))) :
    Agrees u s r number := by
  rw [Agrees, allocate_eq]
  obtain ⟨said, hsaid, o, ho, hqs, hout⟩ := (asked_transaction hopen hserver hbody).here
  obtain ⟨rfl, hsame⟩ := hagree o ho
  refine ⟨said, o.map Ending.answer, Prod.ext hout hsaid, ?_⟩
  rw [hqs]
  exact hsame

/-- A failure that changes nothing in memory, and before which nothing lasting is asked for. -/
theorem agrees_of_error {e : StoreError} (hopen : u.isOpen = true) (hserver : u.server.Obliging)
    (hmemory : (MemoryStock.allocate r).runFrom s = (.error e, s))
    (hbody : Says u (allocationBody r) (Asked qs (· = .error e)))
    (hqs : qs.filter Statement.settles = []) : Agrees u s r number := by
  refine agrees_of_asked hopen hserver hbody (c := .rollback) fun o ho => ?_
  subst ho
  rw [hmemory]
  refine ⟨rfl, rfl, nofun, fun _ => ⟨rfl, ?_⟩⟩
  simp [List.filter_append, hqs, Statement.settles, Statement.movesStock]

section Courses

variable (hopen : u.isOpen = true) (hserver : AnswersRequest u.server s r number)
  (hs : s.Attained) (hkeys : s.Storable)

include hopen hserver hs hkeys

/-- Something else stands on the first line. -/
theorem agrees_taken (hprior : priorLegs (s.entriesOf r.reference) r = .error e) :
    Agrees u s r number := by
  have hmemory : (MemoryStock.allocate r).runFrom s = (.error (.domain e), s) := by
    simp only [MemoryStock.allocate, runFrom_bind, runFrom_get, hprior, runFrom_ofRule_error]
  have hread (past : List Exchange) :
      Stock.readPrior r (u.server past (.selectEntries r.reference)) = .error (.domain e) := by
    have h := readPrior_agrees hserver.toAnswersReads hs hkeys past
    rw [hprior] at h
    cases hread : Stock.readPrior r (u.server past (.selectEntries r.reference)) <;>
      rw [hread] at h <;> cases h
    rfl
  have hbody : Says u (allocationBody r)
      (Asked [.selectEntries r.reference] (· = .error (.domain e))) :=
    ((Stock.asks_priorAllocation r).asked hread).asked_bind_error rfl
  exact agrees_of_error hopen hserver.toObliging hmemory hbody rfl

/-- The request is a repetition. -/
theorem agrees_repeated {legs : List LedgerEntry}
    (hprior : priorLegs (s.entriesOf r.reference) r = .ok (some legs)) :
    Agrees u s r number := by
  have hmemory : (MemoryStock.allocate r).runFrom s = (.ok (.ofPrior r legs), s) := by
    simp only [MemoryStock.allocate, runFrom_bind, runFrom_get, hprior, runFrom_ofRule_ok,
      runFrom_pure]
  have hbody : Says u (allocationBody r) (Asked [.selectEntries r.reference] fun o =>
      ∃ a, o = .ok (.leave a) ∧ a.unnumbered = (AllocationResult.ofPrior r legs).unnumbered) := by
    refine Says.asked_bind (r := fun prior => ∃ a, prior = some a ∧
        a.unnumbered = (AllocationResult.ofPrior r legs).unnumbered)
      ((Stock.asks_priorAllocation r).asked fun past => ?_) ?_
    · have h := readPrior_agrees hserver.toAnswersReads hs hkeys past
      rw [hprior] at h
      obtain ⟨prior, hread, hsome⟩ := map_eq_ok_iff.mp h
      obtain ⟨a, rfl, ha⟩ := Option.map_eq_some_iff.mp hsome
      exact ⟨_, hread, a, rfl, ha⟩
    · rintro prior ⟨a, rfl, ha⟩
      exact asked_pure ⟨a, rfl, ha⟩
  refine agrees_of_asked hopen hserver.toObliging hbody (c := .rollback) ?_
  rintro o ⟨a, rfl, ha⟩
  rw [hmemory]
  refine ⟨rfl, congrArg Except.ok ha, ?_, fun _ => ⟨rfl, rfl⟩⟩
  rintro _ ⟨⟩ hfresh
  cases hfresh

variable (hprior : priorLegs (s.entriesOf r.reference) r = .ok none)

include hprior

/-- There is no plan. -/
theorem agrees_unplanned (hplan : planAllocation r.item r.warehouse r.quantity
      (s.candidates r.item r.warehouse) r.planOptions = .error e) : Agrees u s r number := by
  have hmemory : (MemoryStock.allocate r).runFrom s = (.error (.domain e), s) := by
    simp only [MemoryStock.allocate, MemoryStock.plan, runFrom_bind, runFrom_get, hprior, hplan,
      runFrom_ofRule_ok, runFrom_ofRule_error]
  have hbody : Says u (allocationBody r) (Asked [.selectEntries r.reference,
      .selectCandidates r.item r.warehouse true, .selectEntries r.reference]
      (· = .error (.domain e))) := by
    refine asked_allocationBody hserver.toAnswersReads hs hkeys hprior fun locked hlocked => ?_
    refine says_ofRule_error ?_ ⟨rfl, rfl⟩
    rw [planAllocation_locked hserver.toAnswersReads hs hlocked, hplan]
  exact agrees_of_error hopen hserver.toObliging hmemory hbody rfl

variable (hplan : planAllocation r.item r.warehouse r.quantity
  (s.candidates r.item r.warehouse) r.planOptions = .ok p)

include hplan

/-- The first leg does not pass the check, and none is written. -/
theorem agrees_unchecked {leg : AllocationLeg} {rest : List AllocationLeg}
    (hlegs : p.legs = leg :: rest) (hcheck : (r.legMovement leg r.startLine).check = .error e) :
    Agrees u s r number := by
  have hms : r.legMovements p.legs =
      r.legMovement leg r.startLine :: r.legMovementsFrom (r.startLine + 1) rest := by
    rw [hlegs]
    rfl
  have hrefused : MemoryStock.checkLegs s (r.legMovements p.legs) = .error e := by
    rw [hms, MemoryStock.checkLegs, hcheck]
    rfl
  have hmemory : (MemoryStock.allocate r).runFrom s = (.error (.domain e), s) := by
    simp only [MemoryStock.allocate, MemoryStock.plan, runFrom_bind, runFrom_get, hprior, hplan,
      runFrom_ofRule_ok, hrefused, runFrom_ofRule_error]
  have hbody : Says u (allocationBody r) (Asked [.selectEntries r.reference,
      .selectCandidates r.item r.warehouse true, .selectEntries r.reference]
      (· = .error (.domain e))) := by
    refine asked_allocationBody hserver.toAnswersReads hs hkeys hprior fun locked hlocked => ?_
    refine says_ofRule_ok (a := p) ?_ ?_
    · rw [planAllocation_locked hserver.toAnswersReads hs hlocked, hplan]
    · obtain ⟨c, hfind, -, -⟩ := held_of_planned hlocked (planned_of_planAllocation hplan)
        (r.legMovement leg r.startLine) (by simp [hms])
      have hstop : Says u (Stock.writeLegs locked (r.legMovements p.legs))
          (Asked [] (· = .error (.domain e))) := by
        rw [hms, Stock.writeLegs]
        simp only [hfind]
        exact says_ofRule_error hcheck ⟨rfl, rfl⟩
      exact hstop.asked_bind_error rfl
  exact agrees_of_error hopen hserver.toObliging hmemory hbody rfl

/-- All legs pass the check, and they are written. -/
theorem agrees_written (hcheck : MemoryStock.checkLegs s (r.legMovements p.legs) = .ok ()) :
    Agrees u s r number := by
  have hp := planned_of_planAllocation hplan
  have hadmits := admitsAll_legMovements hs hp hcheck
  have hmemory : (MemoryStock.allocate r).runFrom s =
      (.ok ⟨p, s.entriesFor (r.legMovements p.legs), false⟩,
        s.enterAll (r.legMovements p.legs)) := by
    simp only [MemoryStock.allocate, MemoryStock.plan, runFrom_bind, runFrom_get, hprior, hplan,
      runFrom_ofRule_ok, hcheck, MemoryStock.writeLegs_admitted hadmits, runFrom_pure]
  have hbody : Says u (allocationBody r) (Asked (.selectEntries r.reference ::
      .selectCandidates r.item r.warehouse true :: .selectEntries r.reference ::
        legWrites number (r.legMovements p.legs) (s.entriesFor (r.legMovements p.legs)))
      fun o => ∃ es, o = .ok (.keep ⟨p, es, false⟩) ∧ es.map LedgerEntry.unnumbered =
        (s.entriesFor (r.legMovements p.legs)).map LedgerEntry.unnumbered) := by
    refine asked_allocationBody hserver.toAnswersReads hs hkeys hprior fun locked hlocked => ?_
    refine says_ofRule_ok (a := p) ?_ ?_
    · rw [planAllocation_locked hserver.toAnswersReads hs hlocked, hplan]
    · exact asked_writeAllocation hserver hadmits (held_of_planned hlocked hp)
  refine agrees_of_asked hopen hserver.toObliging hbody (c := .commit) ?_
  rintro o ⟨es, rfl, hes⟩
  rw [hmemory]
  refine ⟨rfl, ?_, ?_, fun h => ?_⟩
  · exact congrArg (fun es => Except.ok (AllocationResult.mk p es false)) hes
  · rintro _ ⟨⟩ -
    refine ⟨forall₂_entriesFor ?_, ?_⟩
    · rw [AllocationRequest.legMovements, r.map_key_legMovementsFrom]
      exact hp.apart
    · have hfilter : (legWrites number (r.legMovements p.legs)
          (s.entriesFor (r.legMovements p.legs))).filter Statement.settles = _ :=
        List.filter_eq_self.mpr fun q hq => settles_of_mem_legWrites hq
      simp [List.filter_append, Statement.settles, Statement.movesStock, hfilter]
  · cases h _ rfl

end Courses

end Agreement

/-- A server that answers out of a state gives a request whose lines are clear the answer that it
gets in memory, and is asked to write the same legs. -/
theorem allocate_agrees {u : Session} {s : StockState} {r : AllocationRequest}
    {number : StockKey → Int} (hopen : u.isOpen = true) (hs : s.Reachable) (hkeys : s.Storable)
    (hserver : AnswersRequest u.server s r number) (hlines : LinesClear s r) :
    ∃ said out, (Stock.store.allocate r).runFrom u = (out, u.said said) ∧
      SameAllocation number r s ((MemoryStock.store.allocate r).runFrom s) out
        (said.map (·.statement)) := by
  have hatt := hs.attained
  show Agrees u s r number
  rcases hprior : priorLegs (s.entriesOf r.reference) r with e | _ | legs
  · exact agrees_taken hopen hserver hatt hkeys hprior
  · cases hplan : planAllocation r.item r.warehouse r.quantity (s.candidates r.item r.warehouse)
        r.planOptions with
    | error e => exact agrees_unplanned hopen hserver hatt hkeys hprior hplan
    | ok p =>
      have hp := planned_of_planAllocation hplan
      have hfree : ∀ m ∈ r.legMovements p.legs, s.entryAt? m.documentLine = none := by
        obtain ⟨e, htaken⟩ | hfree := hlines
        · rw [(priorLegs_eq_none_iff hatt).mp hprior] at htaken
          cases htaken
        · refine hfree p ?_
          show (MemoryStock.plan r.item r.warehouse r.quantity r.planOptions).runFrom s = _
          simp only [MemoryStock.plan, runFrom_bind, runFrom_get, hplan, runFrom_ofRule_ok]
      obtain ⟨leg, rest, hlegs⟩ := List.exists_cons_of_ne_nil hp.legs_ne_nil
      cases hcheck : (r.legMovement leg r.startLine).check with
      | error e => exact agrees_unchecked hopen hserver hatt hkeys hprior hplan hlegs hcheck
      | ok _ =>
        refine agrees_written hopen hserver hatt hkeys hprior hplan ?_
        refine checkLegs_of_forall fun m hm => ⟨?_, hatt.indexed.get?_eq_none (hfree m hm)⟩
        rw [AllocationRequest.legMovements, r.legMovementsFrom_eq, List.mem_mapIdx] at hm
        obtain ⟨i, hi, rfl⟩ := hm
        exact AllocationRequest.check_legMovement hcheck (by omega)
          (hp.covered leg (by simp [hlegs])).2.1 (hp.covered _ (List.getElem_mem hi)).2.1
  · exact agrees_repeated hopen hserver hatt hkeys hprior

theorem slotNumber_of_mem_candidates {s : StockState} {item : ItemId} {warehouse : WarehouseId}
    {c : Candidate} (h : c ∈ s.candidates item warehouse) : slotNumber s c.key = c.sequence := by
  obtain ⟨k, slot, hget, -, -, rfl⟩ := StockState.mem_candidates_iff.mp h
  simp [slotNumber, StockState.slotOf, StockState.candidateOf, hget]

theorem answersRequest_mirroring (s : StockState) (r : AllocationRequest) :
    AnswersRequest (.mirroring s) s r (slotNumber s) where
  toObliging := obliging_mirroring s
  entries _ := ⟨_, (sortBy_perm _ _).map _, rfl⟩
  candidates _ := by
    have hsame : (s.candidates r.item r.warehouse).map (·.renumbered (slotNumber s)) =
        s.candidates r.item r.warehouse := by
      rw [List.map_congr_left fun c hc => ?_, List.map_id]
      rw [Candidate.renumbered, slotNumber_of_mem_candidates hc]
      rfl
    rw [hsame]
    exact ⟨_, sortBy_perm _ _, rfl⟩
  order c hc d hd h := by
    rw [slotNumber_of_mem_candidates hc, slotNumber_of_mem_candidates hd]
    exact h
  sets _ _ _ := ⟨_, rfl⟩
  numbers _ _ _ := ⟨_, rfl⟩

namespace Example

theorem linesClear_order : LinesClear Stockroom.Sample.stock (Stockroom.Sample.order 1 6) := by
  refine .inr fun p _ m hm => ?_
  obtain ⟨leg, -, line, rfl⟩ := AllocationRequest.exists_leg_of_mem hm
  rw [Option.eq_none_iff_forall_ne_some]
  intro e he
  obtain ⟨hmem, hline⟩ :=
    Stockroom.Sample.reachable_stock.attained.indexed.entryAt?_eq_some_iff.mp he
  have hall : ∀ e ∈ Stockroom.Sample.stock.ledger, e.reference = "PO-1" := by decide +kernel
  have href : e.reference = "SO-1" := congrArg DocumentLine.reference hline
  rw [hall e hmem] at href
  exact absurd href (by decide)

end Example

open Example in
/-- All of batch B goes out, and two of batch A. -/
theorem allocate_agrees_shipped :
    Stockroom.Sample.stock.Storable ∧
    AnswersRequest (.mirroring Stockroom.Sample.stock) Stockroom.Sample.stock
      (Stockroom.Sample.order 1 6) (slotNumber Stockroom.Sample.stock) ∧
    LinesClear Stockroom.Sample.stock (Stockroom.Sample.order 1 6) ∧
    ∃ said out, (Stock.store.allocate (Stockroom.Sample.order 1 6)).runFrom
          (.start (.mirroring Stockroom.Sample.stock)) =
        (out, (Session.start (.mirroring Stockroom.Sample.stock)).said said) ∧
      SameAllocation (slotNumber Stockroom.Sample.stock) (Stockroom.Sample.order 1 6)
        Stockroom.Sample.stock (.ok Stockroom.Sample.shipment, Stockroom.Sample.shipped) out
        (said.map (·.statement)) := by
  have hserver := answersRequest_mirroring Stockroom.Sample.stock (Stockroom.Sample.order 1 6)
  obtain ⟨said, out, hrun, hsame⟩ :=
    allocate_agrees (u := .start (.mirroring Stockroom.Sample.stock)) rfl
      Stockroom.Sample.reachable_stock storable_stock hserver linesClear_order
  rw [Stockroom.Sample.allocate_order] at hsame
  exact ⟨storable_stock, hserver, linesClear_order, said, out, hrun, hsame⟩

end Sql

end Stockroom
