/-
Stockroom.Proofs.Sql.Movements — a movement comes to the same on a server as in memory.

* `AnswersMovement`: the server answers what a movement asks for out of a state: the entry of its
  line, its slot and its batch; writes are carried out, and new rows are numbered as in memory.
* The batch of the movement is found, created or refused on both sides alike (`BatchCourse`,
  `batch_courses`).
* `apply_agrees`: the answers are the same, the server is asked to set the slot and to write the
  ledger row exactly if the entry is written in memory, with the same quantity and the same entry,
  and to create a batch exactly if one is created in memory, with the same dates.
-/
import Stockroom.Proofs.Sql.Guards
import Stockroom.Proofs.Sql.Mirror
import Stockroom.Proofs.Stock.History

namespace Stockroom

namespace Sql

open StoreM

/-! ## The server -/

/-- The batch that a key with this code names. -/
abbrev batchOf (k : StockKey) (code : String) : BatchIdentity := ⟨k.item, k.warehouse, code⟩

/-- Whether a server answers what the movement asks for out of the state. The row of its slot
bears the number `slot`. -/
structure AnswersMovement (server : Server) (s : StockState) (m : Movement) (slot : Int) : Prop
    extends server.Obliging where
  entry : ∀ past, server past (.selectEntry m.documentLine) =
    .rows ((s.entryAt? m.documentLine).map Row.ofEntry).toList
  /-- A slot that is not stored may have no row. -/
  quantity : ∀ past, server past (.selectQuantity m.key) =
      .rows [[("qty", .integer (s.quantity m.key))]] ∨
    s.slots.get? m.key = none ∧ server past (.selectQuantity m.key) = .rows []
  ensures : ∀ past, ∃ rs, server past (.insertSlot m.key) = .rows rs
  locks : ∀ past, server past (.lockSlot m.key) =
    .rows [[("id", .integer slot), ("qty", .integer (s.quantity m.key))]]
  batch : ∀ code past, server past (.selectBatch (batchOf m.key code) false) =
    .rows ((s.batches.get? (batchOf m.key code)).map Row.ofBatch).toList
  creates : ∀ code production expiry past, ∃ b : Batch, b.identity = batchOf m.key code ∧
    b.production = production ∧ b.expiry = expiry ∧
    server past (.insertBatch (batchOf m.key code) production expiry) = .rows [Row.ofBatch b]
  sets : ∀ quantity past, ∃ rs, server past (.updateQuantity slot quantity) = .rows rs
  numbers : ∀ after past, server past (.insertEntry m after) =
    .rows [[("id", .integer (s.ledger.length + 1))]]

/-! ## Batches -/

/-- Whether the batches created on the way to another state are those that a list of statements
creates, with the same dates. -/
def SameBatches (s t : StockState) (qs : List Statement) : Prop :=
  ∀ i production expiry, .insertBatch i production expiry ∈ qs ↔
    s.batches.get? i = none ∧
      ∃ b, t.batches.get? i = some b ∧ b.production = production ∧ b.expiry = expiry

/-- What becomes of the batch of a movement: it is known or not needed, its dates are refused, or
it is created. -/
inductive BatchCourse (m : Movement) (s : StockState) : List Statement → Except StoreError Unit →
    StockState → Prop where
  | idle (none : m.key.batch.code? = .none) : BatchCourse m s [] (.ok ()) s
  | known {code : String} {b : Batch} (named : m.key.batch.code? = some code)
      (found : s.batches.get? (batchOf m.key code) = some b) :
      BatchCourse m s [.selectBatch (batchOf m.key code) false] (.ok ()) s
  | refused {code : String} {e : DomainError} (named : m.key.batch.code? = some code)
      (unknown : s.batches.get? (batchOf m.key code) = .none)
      (dates : inboundDates m.production m.expiry m.occurredAt.date = .error e) :
      BatchCourse m s [.selectBatch (batchOf m.key code) false] (.error (.domain e)) s
  | created {code : String} {b : Batch} (named : m.key.batch.code? = some code)
      (unknown : s.batches.get? (batchOf m.key code) = .none)
      (identity : b.identity = batchOf m.key code)
      (dates :
        inboundDates m.production m.expiry m.occurredAt.date = .ok (b.production, b.expiry)) :
      BatchCourse m s
        [.selectBatch (batchOf m.key code) false,
         .insertBatch (batchOf m.key code) b.production b.expiry] (.ok ()) (s.putBatch b)

namespace BatchCourse

variable {m : Movement} {s t : StockState} {qs : List Statement} {o : Except StoreError Unit}

theorem sameBatches (h : BatchCourse m s qs o t) : SameBatches s t qs := by
  intro i production expiry
  cases h with
  | idle | known | refused =>
    constructor
    · intro h
      simp at h
    · rintro ⟨hnone, b, hsome, -⟩
      simp [hnone] at hsome
  | @created code b named unknown identity dates =>
    simp only [StockState.putBatch, identity, OrderedMap.get?_insert, List.mem_cons, reduceCtorEq,
      Statement.insertBatch.injEq, List.not_mem_nil, or_false, false_or]
    constructor
    · rintro ⟨rfl, rfl, rfl⟩
      exact ⟨unknown, b, by simp, rfl, rfl⟩
    · rintro ⟨hnone, b', hb', rfl, rfl⟩
      split at hb'
      · rename_i hi
        cases hb'
        exact ⟨hi.symm, rfl, rfl⟩
      · simp [hnone] at hb'

/-- Nothing but batches is touched. -/
theorem aside (h : BatchCourse m s qs o t) :
    t.ledger = s.ledger ∧ (∀ k, t.quantity k = s.quantity k) ∧ ∀ q ∈ qs, Stock.Aside q := by
  cases h <;> refine ⟨rfl, fun _ => rfl, ?_⟩ <;>
    simp [Stock.Aside, Statement.isControl, Statement.movesStock]

end BatchCourse

section Agreement

variable {u : Session} {s : StockState} {m : Movement} {slot : Int}

/-- A batch that is known is found. -/
theorem asked_ensureBatch_known {code : String} {b : Batch} {on : Date}
    (hserver : AnswersMovement u.server s m slot) (hs : s.Storable)
    (found : s.batches.get? (batchOf m.key code) = some b) :
    Says u (Stock.ensureBatch (batchOf m.key code) m.production m.expiry on)
      (Asked [.selectBatch (batchOf m.key code) false] fun o => ∃ a, o = .ok a ∧ a = b) := by
  obtain ⟨hw, hi⟩ := hs.batches _ b found
  refine (Stock.asks_findBatch _ _).asked_bind (a := some b) (fun past => ?_)
    (asked_pure ⟨b, rfl, rfl⟩)
  rw [hserver.batch, found]
  exact Reply.first?_toList fun a ha => by cases ha; exact Row.batch_ofBatch hw hi

/-- A batch that is not known is asked for in vain. -/
theorem asks_unknown {code : String} (hserver : AnswersMovement u.server s m slot)
    (unknown : s.batches.get? (batchOf m.key code) = none) (past : List Exchange) :
    (u.server past (.selectBatch (batchOf m.key code) false)).first? "find_batch" Row.batch =
      .ok none := by
  rw [hserver.batch, unknown]
  rfl

theorem asked_ensureBatch_refused {code : String} {e : DomainError} {on : Date}
    (hserver : AnswersMovement u.server s m slot)
    (unknown : s.batches.get? (batchOf m.key code) = none)
    (dates : inboundDates m.production m.expiry on = .error e) :
    Says u (Stock.ensureBatch (batchOf m.key code) m.production m.expiry on)
      (Asked [.selectBatch (batchOf m.key code) false] (· = .error (.domain e))) := by
  refine (Stock.asks_findBatch _ _).asked_bind (asks_unknown hserver unknown) ?_
  exact says_ofRule_error dates ⟨rfl, rfl⟩

theorem asked_ensureBatch_created {code : String} {production expiry : Option Date} {on : Date}
    (hserver : AnswersMovement u.server s m slot) (hm : m.key.Storable)
    (unknown : s.batches.get? (batchOf m.key code) = none)
    (dates : inboundDates m.production m.expiry on = .ok (production, expiry)) :
    Says u (Stock.ensureBatch (batchOf m.key code) m.production m.expiry on)
      (Asked [.selectBatch (batchOf m.key code) false,
        .insertBatch (batchOf m.key code) production expiry] fun o => ∃ b, o = .ok b ∧ True) := by
  refine (Stock.asks_findBatch _ _).asked_bind (asks_unknown hserver unknown) ?_
  refine says_ofRule_ok dates ?_
  refine (asks_row? _ _).bind_talk (fun past e h => ?_) fun past row hrow => ?_
  · obtain ⟨b, -, -, -, hb⟩ := hserver.creates code production expiry past
    rw [hb] at h
    cases h
  · obtain ⟨b, hid, -, -, hb⟩ := hserver.creates code production expiry past
    rw [hb] at hrow
    cases hrow
    have hread : (Row.ofBatch b).batch = .ok b := by
      refine Row.batch_ofBatch ?_ ?_
      · rw [show b.warehouse = m.key.warehouse from congrArg BatchIdentity.warehouse hid]
        exact hm.warehouse
      · rw [show b.item = m.key.item from congrArg BatchIdentity.item hid]
        exact hm.item
    refine says_of_silent (fun s => runFrom_ofResult _ s) ⟨rfl, b, hread, trivial⟩

/-- The batch of a movement takes the same course on both sides. -/
theorem batch_courses (hserver : AnswersMovement u.server s m slot) (hs : s.Storable)
    (hm : m.key.Storable) :
    ∃ qs o t, BatchCourse m s qs o t ∧
      (MemoryStock.ensureMovementBatch m).runFrom s = (o, t) ∧
      Says u (Stock.ensureMovementBatch m) (Asked qs (· = o)) := by
  unfold MemoryStock.ensureMovementBatch Stock.ensureMovementBatch
  cases named : m.key.batch.code? with
  | none => exact ⟨_, _, _, .idle named, rfl, asked_pure rfl⟩
  | some code =>
    simp only [runFrom_bind]
    cases found : s.batches.get? (batchOf m.key code) with
    | some b =>
      refine ⟨_, _, _, .known named found, ?_, ?_⟩
      · rw [MemoryStock.ensureBatch_known found]
        rfl
      · exact (asked_ensureBatch_known hserver hs found).asked_bind fun _ _ => asked_pure rfl
    | none =>
      cases dates : inboundDates m.production m.expiry m.occurredAt.date with
      | error e =>
        refine ⟨_, _, _, .refused named found dates, ?_, ?_⟩
        · simp only [MemoryStock.ensureBatch, runFrom_bind, runFrom_get, found, dates,
            runFrom_ofRule_error]
        · exact (asked_ensureBatch_refused hserver found dates).asked_bind_error rfl
      | ok d =>
        refine ⟨_, _, _, .created (b := ⟨s.batches.size + 1, m.key.item, m.key.warehouse, code,
          d.1, d.2, s.clock⟩) named found rfl dates, ?_, ?_⟩
        · simp only [MemoryStock.ensureBatch, runFrom_bind, runFrom_get, found, dates,
            runFrom_ofRule_ok, runFrom_set, runFrom_pure]
        · exact (asked_ensureBatch_created hserver hm found dates).asked_bind
            fun _ _ => asked_pure rfl

/-! ## Slots and entries -/

theorem mem_of_entryAt? {l : DocumentLine} {e : LedgerEntry} (h : s.entryAt? l = some e) :
    e ∈ s.ledger := by
  obtain ⟨i, -, hi⟩ := Option.bind_eq_some_iff.mp h
  exact List.mem_of_getElem? hi

theorem asked_entryAt? (hserver : AnswersMovement u.server s m slot) (hs : s.Storable)
    (past : List Exchange) :
    (u.server past (.selectEntry m.documentLine)).first? "find_ledger_entry" Row.entry =
      .ok (s.entryAt? m.documentLine) := by
  rw [hserver.entry]
  exact Reply.first?_toList fun e he => Row.entry_ofEntry (hs.ledger e (mem_of_entryAt? he))

theorem asked_quantityOf (hserver : AnswersMovement u.server s m slot) (past : List Exchange) :
    ((u.server past (.selectQuantity m.key)).first? "read_slot" Stock.readQuantity).map
      (·.getD 0) = .ok (s.quantity m.key) := by
  obtain h | ⟨hnone, h⟩ := hserver.quantity past
  · rw [h]
    rfl
  · rw [h, StockState.quantity, hnone]
    rfl

/-- The slot is set and the row is written, with the number it has in memory. -/
theorem asked_writeMovement (hserver : AnswersMovement u.server s m slot) (after : Int) :
    Says u (Stock.writeMovement slot m after)
      (Asked [.updateQuantity slot after, .insertEntry m after]
        fun o => ∃ e, o = .ok e ∧ e = s.entryFor m after) := by
  refine asked_execute_bind (hserver.sets after) ?_
  refine (Stock.asks_insertEntry m after).asked_bind (a := (s.ledger.length : Int) + 1)
    (fun past => ?_) (asked_pure ⟨_, rfl, rfl⟩)
  rw [hserver.numbers]
  rfl

/-- What is asked once more behind the lock. -/
theorem asked_applyLocked {qs : List Statement} {p : Except StoreError (Ending Outcome) → Prop}
    (hserver : AnswersMovement u.server s m slot) (hs : s.Storable)
    (fresh : s.entryAt? m.documentLine = none)
    (hrest : Says u (do
      let after ← StoreM.ofRule (quantityAfter (s.quantity m.key) m)
      Stock.ensureMovementBatch m
      let e ← Stock.writeMovement slot m after
      pure (Ending.keep (Outcome.ofApplied e))) (Asked qs p)) :
    Says u (Stock.applyLocked m)
      (Asked (.insertSlot m.key :: .lockSlot m.key :: .selectEntry m.documentLine :: qs) p) := by
  rw [Stock.applyLocked, Stock.lockSlot_eq, bind_assoc]
  refine asked_execute_bind hserver.ensures ?_
  refine (asks_row_read _ _ _).asked_bind (a := (slot, s.quantity m.key)) (fun past => ?_) ?_
  · rw [hserver.locks]
    rfl
  · refine (Stock.asks_entryAt? _).asked_bind (a := none) (fun past => ?_) hrest
    rw [asked_entryAt? hserver hs, fresh]

end Agreement

/-! ## Whole movements -/

/-- Whether the statement writes a movement down or makes it last. -/
def Statement.settles (q : Statement) : Bool := q.movesStock || decide (q = .commit)

/-- Whether what is asked of the server for a movement is what has changed in memory: the slot is
set, the entry is written and both are committed exactly if there is a new entry, and the same
batches are created. -/
structure SameWrites (m : Movement) (slot : Int) (s t : StockState) (qs : List Statement) :
    Prop where
  entries : (t.ledger = s.ledger ∧ qs.filter Statement.settles = []) ∨
    ∃ e, t.ledger = s.ledger ++ [e] ∧ e = m.toEntry e.id (t.quantity m.key) ∧
      qs.filter Statement.settles =
        [.updateQuantity slot (t.quantity m.key), .insertEntry m e.after, .commit]
  batches : SameBatches s t qs

section Movements

variable {u : Session} {s t : StockState} {m : Movement} {slot : Int} {qs qs' : List Statement}

theorem SameBatches.congr (h : SameBatches s t qs) {t' : StockState} (ht : t'.batches = t.batches)
    (hqs : ∀ i production expiry, .insertBatch i production expiry ∈ qs' ↔
      .insertBatch i production expiry ∈ qs) : SameBatches s t' qs' := by
  intro i production expiry
  rw [hqs, ht]
  exact h i production expiry

/-- Nothing is changed, and nothing lasting is asked for. -/
theorem sameWrites_self (hsettles : qs.filter Statement.settles = [])
    (hbatch : ∀ i production expiry, .insertBatch i production expiry ∉ qs) :
    SameWrites m slot s s qs where
  entries := .inl ⟨rfl, hsettles⟩
  batches i production expiry := by
    refine iff_of_false (hbatch i production expiry) ?_
    rintro ⟨hnone, b, hsome, -⟩
    simp [hnone] at hsome

theorem settles_of_aside {q : Statement} (h : Stock.Aside q) : q.settles = false := by
  have hcommit : q ≠ .commit := by
    rintro rfl
    exact Bool.noConfusion h.1
  simp [Statement.settles, h.2, hcommit]

/-- Looking after the batch settles nothing. -/
theorem BatchCourse.filter_settles {o : Except StoreError Unit} (h : BatchCourse m s qs o t) :
    qs.filter Statement.settles = [] :=
  List.filter_eq_nil_iff.mpr fun q hq => by simp [settles_of_aside (h.aside.2.2 q hq)]

/-- The body of the transaction of a movement. -/
def movementBody (m : Movement) : SqlM (Ending Outcome) := do
  match ← Stock.entryAt? m.documentLine with
  | some e => pure (.leave (.ofReplayed e))
  | none =>
    if m.delta = 0 then do
      let quantity ← Stock.quantityOf m.key
      pure (.leave (.unchanged m.key quantity))
    else Stock.applyLocked m

theorem apply_eq (m : Movement) :
    Stock.apply m = (do StoreM.ofRule m.check; transaction (movementBody m)) := rfl

/-- How a body compares with memory: the answer is the same, and so are the writes. -/
structure Compares (u : Session) (m : Movement) (slot : Int) (s : StockState)
    (o : Except StoreError (Ending Outcome)) (t : StockState) (qs : List Statement) : Prop where
  memory : (MemoryStock.apply m).runFrom s = (o.map Ending.answer, t)
  asked : Says u (movementBody m) (Asked qs (· = o))
  writes : SameWrites m slot s t (.begin :: (qs ++ [closing o]))

section Courses

variable (hserver : AnswersMovement u.server s m slot) (hs : s.Storable)

include hserver hs

theorem compares_replayed {e : LedgerEntry} (valid : m.check = .ok ())
    (found : s.entryAt? m.documentLine = some e) :
    Compares u m slot s (.ok (.leave (.ofReplayed e))) s [.selectEntry m.documentLine] where
  memory := by
    rw [MemoryStock.apply, runFrom_bind, MemoryStock.write_replayed valid found]
    rfl
  asked := by
    refine (Stock.asks_entryAt? _).asked_bind (a := some e) (fun past => ?_) (asked_pure rfl)
    rw [asked_entryAt? hserver hs, found]
  writes := sameWrites_self rfl (by simp [closing])

variable (fresh : s.entryAt? m.documentLine = none)

include fresh

/-- The first look-up finds nothing. -/
theorem asked_movementBody {p : Except StoreError (Ending Outcome) → Prop}
    (hrest : Says u (if m.delta = 0 then do
        let quantity ← Stock.quantityOf m.key
        pure (.leave (.unchanged m.key quantity))
      else Stock.applyLocked m) (Asked qs p)) :
    Says u (movementBody m) (Asked (.selectEntry m.documentLine :: qs) p) := by
  refine (Stock.asks_entryAt? _).asked_bind (a := none) (fun past => ?_) hrest
  rw [asked_entryAt? hserver hs, fresh]

theorem compares_zero (valid : m.check = .ok ()) (zero : m.delta = 0) :
    Compares u m slot s (.ok (.leave (.unchanged m.key (s.quantity m.key)))) s
      [.selectEntry m.documentLine, .selectQuantity m.key] where
  memory := by
    simp only [MemoryStock.apply, MemoryStock.write, runFrom_bind, valid, runFrom_ofRule_ok,
      runFrom_get, fresh, zero, if_true, runFrom_pure]
    rfl
  asked := by
    refine asked_movementBody hserver hs fresh ?_
    rw [if_pos zero]
    exact (Stock.asks_quantityOf _).asked_bind (asked_quantityOf hserver) (asked_pure rfl)
  writes := sameWrites_self rfl (by simp [closing])

variable (moves : m.delta ≠ 0)

include moves

theorem compares_short (valid : m.check = .ok ()) {e : DomainError}
    (short : quantityAfter (s.quantity m.key) m = .error e) :
    Compares u m slot s (.error (.domain e)) s
      [.selectEntry m.documentLine, .insertSlot m.key, .lockSlot m.key,
        .selectEntry m.documentLine] where
  memory := by
    simp only [MemoryStock.apply, MemoryStock.write, runFrom_bind, valid, runFrom_ofRule_ok,
      runFrom_get, fresh, moves, if_false, short, runFrom_ofRule_error]
    rfl
  asked := by
    refine asked_movementBody hserver hs fresh ?_
    rw [if_neg moves]
    exact asked_applyLocked hserver hs fresh (says_ofRule_error short ⟨rfl, rfl⟩)
  writes := sameWrites_self rfl (by simp [closing])

variable {after : Int} (fits : quantityAfter (s.quantity m.key) m = .ok after)

include fits

/-- With enough in the slot the batch comes next. -/
theorem asked_movementBody_fits {p : Except StoreError (Ending Outcome) → Prop}
    (hrest : Says u (Stock.ensureMovementBatch m >>= fun _ => do
      let e ← Stock.writeMovement slot m after
      pure (Ending.keep (Outcome.ofApplied e))) (Asked qs p)) :
    Says u (movementBody m) (Asked (.selectEntry m.documentLine :: .insertSlot m.key ::
      .lockSlot m.key :: .selectEntry m.documentLine :: qs) p) := by
  refine asked_movementBody hserver hs fresh ?_
  rw [if_neg moves]
  exact asked_applyLocked hserver hs fresh (says_ofRule_ok fits hrest)

theorem compares_undated (valid : m.check = .ok ()) {e : StoreError}
    (hcourse : BatchCourse m s qs (.error e) t)
    (hmemory : (MemoryStock.ensureMovementBatch m).runFrom s = (.error e, t))
    (hbatch : Says u (Stock.ensureMovementBatch m) (Asked qs (· = .error e))) :
    Compares u m slot s (.error e) t (.selectEntry m.documentLine :: .insertSlot m.key ::
      .lockSlot m.key :: .selectEntry m.documentLine :: qs) where
  memory := by
    simp only [MemoryStock.apply, MemoryStock.write, runFrom_bind, valid, runFrom_ofRule_ok,
      runFrom_get, fresh, moves, if_false, fits, hmemory]
    rfl
  asked := asked_movementBody_fits hserver hs fresh moves fits (hbatch.asked_bind_error rfl)
  writes := by
    constructor
    · exact .inl ⟨hcourse.aside.1, by simp [hcourse.filter_settles, closing, Statement.settles,
        Statement.movesStock]⟩
    · exact hcourse.sameBatches.congr rfl (by simp [closing])

theorem compares_entered (valid : m.check = .ok ()) (hcourse : BatchCourse m s qs (.ok ()) t)
    (hmemory : (MemoryStock.ensureMovementBatch m).runFrom s = (.ok (), t))
    (hbatch : Says u (Stock.ensureMovementBatch m) (Asked qs (· = .ok ()))) :
    Compares u m slot s (.ok (.keep (.ofApplied (s.entryFor m after)))) (t.enter m after)
      (.selectEntry m.documentLine :: .insertSlot m.key :: .lockSlot m.key ::
        .selectEntry m.documentLine ::
          (qs ++ [.updateQuantity slot after, .insertEntry m after])) where
  memory := by
    simp only [MemoryStock.apply, MemoryStock.write, runFrom_bind, valid, runFrom_ofRule_ok,
      runFrom_get, fresh, moves, if_false, fits, hmemory, runFrom_modify, runFrom_pure,
      StockState.enter, StockState.entryFor, hcourse.aside.1]
    rfl
  asked := by
    refine asked_movementBody_fits hserver hs fresh moves fits (hbatch.asked_bind_eq ?_)
    exact (asked_writeMovement hserver after).asked_bind fun e he => asked_pure (by rw [he])
  writes := by
    have hledger := hcourse.aside.1
    have hquantity : (t.enter m after).quantity m.key = after := by
      rw [StockState.quantity_enter, if_pos rfl]
    constructor
    · refine .inr ⟨s.entryFor m after, ?_, ?_, ?_⟩
      · rw [StockState.ledger_enter, StockState.entryFor, StockState.entryFor, hledger]
      · rw [hquantity]
        rfl
      · rw [hquantity]
        simp [hcourse.filter_settles, closing, Statement.settles, Statement.movesStock,
          StockState.entryFor, Movement.toEntry]
    · exact hcourse.sameBatches.congr (StockState.batches_enter ..) (by simp [closing])

end Courses

/-- In each of its courses a movement compares with memory. -/
theorem exists_compares (hserver : AnswersMovement u.server s m slot) (hs : s.Storable)
    (hm : m.key.Storable) (valid : m.check = .ok ()) :
    ∃ o t qs, Compares u m slot s o t qs := by
  cases found : s.entryAt? m.documentLine with
  | some e => exact ⟨_, _, _, compares_replayed hserver hs valid found⟩
  | none =>
    by_cases zero : m.delta = 0
    · exact ⟨_, _, _, compares_zero hserver hs found valid zero⟩
    cases fits : quantityAfter (s.quantity m.key) m with
    | error e => exact ⟨_, _, _, compares_short hserver hs found zero valid fits⟩
    | ok after =>
      obtain ⟨qs, o, t, hcourse, hmemory, hbatch⟩ := batch_courses hserver hs hm
      cases o with
      | error e =>
        exact ⟨_, _, _, compares_undated hserver hs found zero fits valid hcourse hmemory hbatch⟩
      | ok _ =>
        exact ⟨_, _, _, compares_entered hserver hs found zero fits valid hcourse hmemory hbatch⟩

end Movements

/-- A server that answers out of a state gives a movement the answer that it gets in memory, and
is asked for the writes that are made in memory. -/
theorem apply_agrees {u : Session} {s : StockState} {m : Movement} {slot : Int}
    (hopen : u.isOpen = true) (hs : s.Storable) (hm : m.key.Storable)
    (hserver : AnswersMovement u.server s m slot) :
    ∃ said, (Stock.store.apply m).runFrom u =
        (((MemoryStock.store.apply m).runFrom s).1, u.said said) ∧
      SameWrites m slot s ((MemoryStock.store.apply m).runFrom s).2 (said.map (·.statement)) := by
  show ∃ said, (Stock.apply m).runFrom u = (((MemoryStock.apply m).runFrom s).1, u.said said) ∧
    SameWrites m slot s ((MemoryStock.apply m).runFrom s).2 (said.map (·.statement))
  rw [apply_eq]
  cases valid : m.check with
  | error e =>
    have hmemory : (MemoryStock.apply m).runFrom s = (.error (.domain e), s) := by
      simp only [MemoryStock.apply, MemoryStock.write, runFrom_bind, valid, runFrom_ofRule_error]
    refine ⟨[], ?_, ?_⟩
    · rw [hmemory, Session.said_nil]
      rfl
    · rw [hmemory]
      exact sameWrites_self rfl (by simp)
  | ok _ =>
    obtain ⟨o, t, qs, h⟩ := exists_compares hserver hs hm valid
    obtain ⟨said, hsaid, o', rfl, hqs, hout⟩ :=
      (asked_transaction hopen hserver.toObliging h.asked).here
    refine ⟨said, ?_, ?_⟩
    · rw [h.memory, ← hout, ← hsaid]
      rfl
    · rw [h.memory, hqs]
      exact h.writes

theorem answersMovement_mirroring (s : StockState) (m : Movement) :
    AnswersMovement (.mirroring s) s m (slotNumber s m.key) where
  toObliging := obliging_mirroring s
  entry _ := rfl
  quantity _ := .inl rfl
  ensures _ := ⟨_, rfl⟩
  locks _ := rfl
  batch _ _ := rfl
  creates _ _ _ _ := ⟨_, rfl, rfl, rfl, rfl⟩
  sets _ _ := ⟨_, rfl⟩
  numbers _ _ := rfl

namespace Example

/-- Goods of a batch that is not known yet come in. -/
def arrival : Movement :=
  { Stockroom.Sample.pick with
    key := Stockroom.Sample.key "C", line := 5, delta := 4, reason := .receipt }

theorem storable_stock : Stockroom.Sample.stock.Storable := by decide +kernel

end Example

open Example in
/-- The slot and the batch are new, and their entry is the third one. -/
theorem apply_agrees_arrival :
    Stockroom.Sample.stock.Storable ∧ arrival.key.Storable ∧
    AnswersMovement (.mirroring Stockroom.Sample.stock) Stockroom.Sample.stock arrival 3 ∧
    ∃ said, (Stock.store.apply arrival).runFrom (.start (.mirroring Stockroom.Sample.stock)) =
        (.ok ⟨Stockroom.Sample.key "C", 0, 4, 4, true, some 3⟩,
          (Session.start (.mirroring Stockroom.Sample.stock)).said said) ∧
      SameWrites arrival 3 Stockroom.Sample.stock
        ((MemoryStock.store.apply arrival).runFrom Stockroom.Sample.stock).2
        (said.map (·.statement)) := by
  have hserver : AnswersMovement (.mirroring Stockroom.Sample.stock) Stockroom.Sample.stock
      arrival 3 := answersMovement_mirroring _ _
  have hkey : arrival.key.Storable := by decide
  obtain ⟨said, hrun, hwrites⟩ := apply_agrees (u := .start (.mirroring Stockroom.Sample.stock))
    rfl storable_stock hkey hserver
  exact ⟨storable_stock, hkey, hserver, said, hrun, hwrites⟩

end Sql

end Stockroom
