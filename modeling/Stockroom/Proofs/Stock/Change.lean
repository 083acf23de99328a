/-
Stockroom.Proofs.Stock.Change — the few ways in which stored stock ever changes.

* `StockState.enter` writes a movement down: it sets the slot and appends the entry.
  `StockState.Admits` says when that is allowed.
* `Change` lists every single change: the clock moves on, a batch is created, an expiry date
  is corrected, a movement is entered, a day's snapshot is stored.
* `Writing` lists the ways in which writing one movement can end (`writing`), the `…_cases`
  theorems those of the calls about batches. The `…_moves` theorems say that every operation,
  also one that fails half way, comes to a chain of changes. What a single change preserves is
  thereby preserved by them all.
-/
import Stockroom.Proofs.Step
import Stockroom.Stock.Memory

namespace Stockroom

namespace StockState

/-! ## Setting a slot -/

/-- The slot of a key; a key without one gets an empty slot with the next number. -/
def slotOf (s : StockState) (k : StockKey) : Slot :=
  (s.slots.get? k).getD ⟨0, s.lastSequence + 1⟩

theorem quantity_of_get? {s : StockState} {k : StockKey} {slot : Slot}
    (h : s.slots.get? k = some slot) : s.quantity k = slot.quantity := by
  simp [quantity, h]

theorem get?_slots_setQuantity (s : StockState) (k j : StockKey) (q : Int) :
    (s.setQuantity k q).slots.get? j =
      if k = j then some { s.slotOf k with quantity := q } else s.slots.get? j := by
  unfold setQuantity slotOf
  cases h : s.slots.get? k <;> exact OrderedMap.get?_insert ..

@[simp] theorem ledger_setQuantity (s : StockState) (k : StockKey) (q : Int) :
    (s.setQuantity k q).ledger = s.ledger := by
  unfold setQuantity
  split <;> rfl

@[simp] theorem index_setQuantity (s : StockState) (k : StockKey) (q : Int) :
    (s.setQuantity k q).index = s.index := by
  unfold setQuantity
  split <;> rfl

@[simp] theorem batches_setQuantity (s : StockState) (k : StockKey) (q : Int) :
    (s.setQuantity k q).batches = s.batches := by
  unfold setQuantity
  split <;> rfl

@[simp] theorem snapshots_setQuantity (s : StockState) (k : StockKey) (q : Int) :
    (s.setQuantity k q).snapshots = s.snapshots := by
  unfold setQuantity
  split <;> rfl

/-! ## Entering a movement -/

/-- The entry that a movement is written down as, next in the ledger. -/
def entryFor (s : StockState) (m : Movement) (after : Int) : LedgerEntry :=
  m.toEntry (s.ledger.length + 1) after

/-- Writes a movement down: its slot is set, and the entry ends the ledger. -/
def enter (s : StockState) (m : Movement) (after : Int) : StockState :=
  (s.setQuantity m.key after).append (s.entryFor m after)

@[simp] theorem ledger_enter (s : StockState) (m : Movement) (after : Int) :
    (s.enter m after).ledger = s.ledger ++ [s.entryFor m after] := by
  simp [enter, append]

@[simp] theorem index_enter (s : StockState) (m : Movement) (after : Int) :
    (s.enter m after).index = s.index.insert m.documentLine s.ledger.length := by
  simp [enter, append, entryFor, Movement.toEntry, LedgerEntry.documentLine,
    Movement.documentLine]

@[simp] theorem batches_enter (s : StockState) (m : Movement) (after : Int) :
    (s.enter m after).batches = s.batches := by
  simp [enter, append]

@[simp] theorem snapshots_enter (s : StockState) (m : Movement) (after : Int) :
    (s.enter m after).snapshots = s.snapshots := by
  simp [enter, append]

theorem get?_slots_enter (s : StockState) (m : Movement) (after : Int) (k : StockKey) :
    (s.enter m after).slots.get? k =
      if m.key = k then some { s.slotOf k with quantity := after } else s.slots.get? k := by
  show (s.setQuantity m.key after).slots.get? k = _
  rw [get?_slots_setQuantity]
  by_cases h : m.key = k
  · simp [h]
  · simp [h]

theorem quantity_enter (s : StockState) (m : Movement) (after : Int) (k : StockKey) :
    (s.enter m after).quantity k = if m.key = k then after else s.quantity k := by
  unfold quantity
  rw [get?_slots_enter]
  by_cases h : m.key = k <;> simp [h]

/-- Whether the batch that a key names, if it names one, is known. -/
def HasBatch (s : StockState) (k : StockKey) : Prop :=
  ∀ code, k.batch.code? = some code →
    ∃ b, s.batches.get? ⟨k.item, k.warehouse, code⟩ = some b

/-- When a movement may be entered, leaving its slot with the quantity `after`. -/
structure Admits (s : StockState) (m : Movement) (after : Int) : Prop where
  valid : m.check = .ok ()
  fresh : s.entryAt? m.documentLine = none
  moves : m.delta ≠ 0
  fits : quantityAfter (s.quantity m.key) m = .ok after
  batch : s.HasBatch m.key

/-- When a batch may be created: it is not known, it gets the next number, and its dates are
those of a batch first met on some day. -/
structure NewBatch (s : StockState) (b : Batch) : Prop where
  unknown : s.batches.get? b.identity = none
  numbered : b.id = s.batches.size + 1
  dated : ∃ production expiry on, inboundDates production expiry on = .ok (b.production, b.expiry)
  stamped : b.createdAt = s.clock

end StockState

/-- A resulting quantity is the sum, it fits into 64 bits, and it is below zero only where
the movement allows that. -/
theorem quantityAfter_eq_ok_iff {before after : Int} {m : Movement} :
    quantityAfter before m = .ok after ↔
      after = before + m.delta ∧ IntegerRange.signed64.contains after = true ∧
        (after < 0 → m.allowNegative = true) := by
  unfold quantityAfter
  dsimp only
  split
  · rename_i h
    constructor
    · intro h'
      cases h'
    · rintro ⟨rfl, hr, -⟩
      rw [h] at hr
      cases hr
  · split
    · rename_i h
      constructor
      · intro h'
        cases h'
      · rintro ⟨rfl, -, hn⟩
        have := hn h.1
        simp [h.2] at this
    · rename_i hr hn
      constructor
      · intro h
        cases h
        refine ⟨rfl, by simpa using hr, fun h => ?_⟩
        cases hm : m.allowNegative with
        | true => rfl
        | false => exact absurd ⟨h, hm⟩ hn
      · rintro ⟨rfl, -, -⟩
        rfl

/-! ## Single changes -/

/-- One change of stored stock. -/
inductive Change : StockState → StockState → Prop where
  | tick (s : StockState) (clock : Instant) : Change s { s with clock }
  | created {s : StockState} {b : Batch} (new : s.NewBatch b) : Change s (s.putBatch b)
  | corrected {s : StockState} {i : BatchIdentity} {b : Batch} {expiry : Option Date}
      (known : s.batches.get? i = some b) (dated : checkDates b.production expiry = .ok ()) :
      Change s (s.putBatch { b with expiry })
  | entered {s : StockState} {m : Movement} {after : Int} (admitted : s.Admits m after) :
      Change s (s.enter m after)
  | photographed (s : StockState) (d : Date) :
      Change s (s.putSnapshot d (snapshotRows d s.ledger))

/-- Any number of changes, one after another. -/
abbrev Changes : StockState → StockState → Prop := Relation.ReflTransGen Change

namespace MemoryStock

open StoreM

/-! ## Batches -/

theorem ensureBatch_known {s : StockState} {i : BatchIdentity} {b : Batch}
    {production expiry : Option Date} {on : Date} (h : s.batches.get? i = some b) :
    (ensureBatch i production expiry on).runFrom s = (.ok b, s) := by
  simp only [ensureBatch, runFrom_bind, runFrom_get, h, runFrom_pure]

/-- An unknown batch is created, or its dates are refused and nothing changes. -/
theorem ensureBatch_unknown {s : StockState} {i : BatchIdentity}
    (h : s.batches.get? i = none) (production expiry : Option Date) (on : Date) :
    (∃ e, inboundDates production expiry on = .error e ∧
      (ensureBatch i production expiry on).runFrom s = (.error (.domain e), s)) ∨
    ∃ b, b.identity = i ∧ s.NewBatch b ∧
      (ensureBatch i production expiry on).runFrom s = (.ok b, s.putBatch b) := by
  simp only [ensureBatch, runFrom_bind, runFrom_get, h]
  cases hd : inboundDates production expiry on with
  | error e => exact .inl ⟨e, rfl, rfl⟩
  | ok dates =>
    refine .inr ⟨⟨s.batches.size + 1, i.item, i.warehouse, i.code, dates.1, dates.2, s.clock⟩,
      rfl, ⟨h, rfl, ⟨production, expiry, on, hd⟩, rfl⟩, rfl⟩

/-- A batch is found, created, or refused. -/
theorem ensureBatch_cases (i : BatchIdentity) (production expiry : Option Date) (on : Date)
    (s : StockState) :
    (∃ e : DomainError,
      (ensureBatch i production expiry on).runFrom s = (.error (.domain e), s)) ∨
    ∃ b t, (ensureBatch i production expiry on).runFrom s = (.ok b, t) ∧
      (t = s ∨ s.NewBatch b ∧ t = s.putBatch b) := by
  cases h : s.batches.get? i with
  | some b => exact .inr ⟨b, s, ensureBatch_known h, .inl rfl⟩
  | none =>
    rcases ensureBatch_unknown h production expiry on with ⟨e, -, he⟩ | ⟨b, -, hb, he⟩
    · exact .inl ⟨e, he⟩
    · exact .inr ⟨b, _, he, .inr ⟨hb, rfl⟩⟩

theorem resolveBatch_cases (item : ItemId) (warehouse : WarehouseId) (code : String)
    (production expiry : Option Date) (on : Date) (s : StockState) :
    (∃ e : DomainError,
      (resolveBatch item warehouse code production expiry on).runFrom s =
        (.error (.domain e), s)) ∨
    ∃ b t, (resolveBatch item warehouse code production expiry on).runFrom s = (.ok b, t) ∧
      (t = s ∨ s.NewBatch b ∧ t = s.putBatch b) := by
  unfold resolveBatch
  cases BatchKey.ofRequiredCode code with
  | error e => exact .inl ⟨e, rfl⟩
  | ok key =>
    rw [runFrom_ofRule_ok_bind]
    exact ensureBatch_cases _ production expiry on s

theorem resolveBatch_moves (item : ItemId) (warehouse : WarehouseId) (code : String)
    (production expiry : Option Date) (on : Date) :
    Moves Change (resolveBatch item warehouse code production expiry on) := by
  intro s
  rcases resolveBatch_cases item warehouse code production expiry on s with
    ⟨e, h⟩ | ⟨b, t, h, rfl | ⟨hb, rfl⟩⟩
  · rw [h]
  · rw [h]
  · rw [h]
    exact .single (.created hb)

/-- The expiry date of a known batch is corrected, or the call is refused. -/
theorem correctExpiry_cases (item : ItemId) (warehouse : WarehouseId) (code : String)
    (expiry : Option Date) (s : StockState) :
    (∃ e : DomainError,
      (correctExpiry item warehouse code expiry).runFrom s = (.error (.domain e), s)) ∨
    ∃ i b, s.batches.get? i = some b ∧ checkDates b.production expiry = .ok () ∧
      (correctExpiry item warehouse code expiry).runFrom s =
        (.ok { b with expiry }, s.putBatch { b with expiry }) := by
  unfold correctExpiry
  cases BatchKey.ofRequiredCode code with
  | error e => exact .inl ⟨e, rfl⟩
  | ok key =>
    rw [runFrom_ofRule_ok_bind, runFrom_get_bind]
    cases h : s.batches.get? ⟨item, warehouse, key.key⟩ with
    | none => exact .inl ⟨_, rfl⟩
    | some b =>
      dsimp only
      cases hd : checkDates b.production expiry with
      | error e => exact .inl ⟨e, rfl⟩
      | ok _ => exact .inr ⟨_, b, h, hd, rfl⟩

theorem correctExpiry_moves (item : ItemId) (warehouse : WarehouseId) (code : String)
    (expiry : Option Date) : Moves Change (correctExpiry item warehouse code expiry) := by
  intro s
  rcases correctExpiry_cases item warehouse code expiry s with ⟨e, h⟩ | ⟨i, b, hb, hd, h⟩
  · rw [h]
  · rw [h]
    exact .single (.corrected hb hd)

/-! ## One movement -/

/-- Whether a state differs from `s` at most by a new batch, which the key `k` names. -/
def Readied (s : StockState) (k : StockKey) (t : StockState) : Prop :=
  t = s ∨ ∃ b, s.NewBatch b ∧ k.batch.code? = some b.code ∧
    b.identity = ⟨k.item, k.warehouse, b.code⟩ ∧ t = s.putBatch b

theorem Readied.changes {s t : StockState} {k : StockKey} (h : Readied s k t) : Changes s t := by
  rcases h with rfl | ⟨b, hb, -, -, rfl⟩
  · exact .refl
  · exact .single (.created hb)

theorem Readied.ledger_eq {s t : StockState} {k : StockKey} (h : Readied s k t) :
    t.ledger = s.ledger := by
  rcases h with rfl | ⟨b, -, -, -, rfl⟩
  · rfl
  · rfl

/-- The batch of a movement's key is known or created, unless its dates are refused. -/
theorem ensureMovementBatch_cases (m : Movement) (s : StockState) :
    (∃ e, inboundDates m.production m.expiry m.occurredAt.date = .error e ∧
      (ensureMovementBatch m).runFrom s = (.error (.domain e), s)) ∨
    ∃ t, Readied s m.key t ∧ t.HasBatch m.key ∧
      (ensureMovementBatch m).runFrom s = (.ok (), t) := by
  unfold ensureMovementBatch
  cases hc : m.key.batch.code? with
  | none =>
    refine .inr ⟨s, .inl rfl, fun code h => ?_, rfl⟩
    rw [hc] at h
    cases h
  | some code =>
    simp only [runFrom_bind]
    cases h : s.batches.get? ⟨m.key.item, m.key.warehouse, code⟩ with
    | some b =>
      rw [ensureBatch_known h]
      refine .inr ⟨s, .inl rfl, fun code' h' => ?_, rfl⟩
      obtain rfl : code = code' := Option.some.inj (hc.symm.trans h')
      exact ⟨b, h⟩
    | none =>
      rcases ensureBatch_unknown h m.production m.expiry m.occurredAt.date with
        ⟨e, hd, he⟩ | ⟨b, hi, hb, he⟩
      · rw [he]
        exact .inl ⟨e, hd, rfl⟩
      · rw [he]
        obtain rfl : b.code = code := congrArg BatchIdentity.code hi
        refine .inr ⟨s.putBatch b, .inr ⟨b, hb, hc, hi, rfl⟩, fun code' h' => ?_, rfl⟩
        obtain rfl : b.code = code' := Option.some.inj (hc.symm.trans h')
        refine ⟨b, ?_⟩
        rw [← hi]
        simp [StockState.putBatch, OrderedMap.get?_insert]

theorem ensureMovementBatch_of_hasBatch {m : Movement} {s : StockState} (h : s.HasBatch m.key) :
    (ensureMovementBatch m).runFrom s = (.ok (), s) := by
  unfold ensureMovementBatch
  cases hc : m.key.batch.code? with
  | none => rfl
  | some code =>
    obtain ⟨b, hb⟩ := h code hc
    simp only [runFrom_bind]
    rw [ensureBatch_known hb]
    rfl

/-- The ways in which writing the movement `m` down in the state `s` can end. -/
inductive Writing (m : Movement) (s : StockState) :
    Except StoreError (Outcome × Option LedgerEntry) × StockState → Prop where
  | refused (e : DomainError) : Writing m s (.error (.domain e), s)
  | replayed {e : LedgerEntry} (valid : m.check = .ok ())
      (found : s.entryAt? m.documentLine = some e) : Writing m s (.ok (.ofReplayed e, none), s)
  | unchanged (valid : m.check = .ok ()) (zero : m.delta = 0) :
      Writing m s (.ok (.unchanged m.key (s.quantity m.key), none), s)
  | entered {t : StockState} {after : Int} (readied : Readied s m.key t)
      (admitted : t.Admits m after) :
      Writing m s
        (.ok (.ofApplied (t.entryFor m after), some (t.entryFor m after)), t.enter m after)

/-- A movement whose line is taken gets the answer of the entry there. -/
theorem write_replayed {m : Movement} {s : StockState} {e : LedgerEntry}
    (valid : m.check = .ok ()) (found : s.entryAt? m.documentLine = some e) :
    (write m).runFrom s = (.ok (.ofReplayed e, none), s) := by
  simp only [write, runFrom_bind, valid, runFrom_ofRule_ok, runFrom_get, found, runFrom_pure]

/-- A movement that may be entered is entered. -/
theorem write_admitted {m : Movement} {s : StockState} {after : Int} (h : s.Admits m after) :
    (write m).runFrom s =
      (.ok (.ofApplied (s.entryFor m after), some (s.entryFor m after)), s.enter m after) := by
  simp only [write, runFrom_bind, h.valid, runFrom_ofRule_ok, runFrom_get, h.fresh, h.moves,
    if_false, h.fits, ensureMovementBatch_of_hasBatch h.batch, runFrom_modify, runFrom_pure]
  rfl

/-- A movement that its slot can take is entered, unless the dates of its batch are refused. -/
theorem write_fits {m : Movement} {s : StockState} {after : Int} (valid : m.check = .ok ())
    (fresh : s.entryAt? m.documentLine = none) (moves : m.delta ≠ 0)
    (fits : quantityAfter (s.quantity m.key) m = .ok after) :
    (∃ e, inboundDates m.production m.expiry m.occurredAt.date = .error e ∧
      (write m).runFrom s = (.error (.domain e), s)) ∨
    ∃ t, Readied s m.key t ∧ t.Admits m after ∧
      (write m).runFrom s =
        (.ok (.ofApplied (t.entryFor m after), some (t.entryFor m after)), t.enter m after) := by
  simp only [write, runFrom_bind, valid, runFrom_ofRule_ok, runFrom_get, fresh, moves, if_false,
    fits]
  rcases ensureMovementBatch_cases m s with ⟨e, hd, he⟩ | ⟨t, ht, hb, he⟩
  · rw [he]
    exact .inl ⟨e, hd, rfl⟩
  · rw [he]
    -- a new batch touches neither the ledger nor its index nor the slots
    obtain ⟨hledger, hfresh, hfits⟩ : t.ledger = s.ledger ∧
        t.entryAt? m.documentLine = none ∧ quantityAfter (t.quantity m.key) m = .ok after := by
      rcases ht with rfl | ⟨b, -, -, -, rfl⟩
      · exact ⟨rfl, fresh, fits⟩
      · exact ⟨rfl, fresh, fits⟩
    refine .inr ⟨t, ht, ⟨valid, hfresh, moves, hfits, hb⟩, ?_⟩
    simp only [StockState.enter, StockState.entryFor, hledger, runFrom_modify, runFrom_pure]

/-- Writing a movement down ends in one of the listed ways. -/
theorem writing (m : Movement) (s : StockState) : Writing m s ((write m).runFrom s) := by
  cases hv : m.check with
  | error e =>
    simp only [write, runFrom_bind, hv, runFrom_ofRule_error]
    exact .refused e
  | ok _ =>
    cases hf : s.entryAt? m.documentLine with
    | some e =>
      rw [write_replayed hv hf]
      exact .replayed hv hf
    | none =>
      by_cases hz : m.delta = 0
      · simp only [write, runFrom_bind, hv, runFrom_ofRule_ok, runFrom_get, hf, hz, if_true]
        exact .unchanged hv hz
      · cases hq : quantityAfter (s.quantity m.key) m with
        | error e =>
          simp only [write, runFrom_bind, hv, runFrom_ofRule_ok, runFrom_get, hf, hz, if_false,
            hq]
          exact .refused e
        | ok after =>
          rcases write_fits hv hf hz hq with ⟨e, -, he⟩ | ⟨t, ht, ha, he⟩
          · rw [he]
            exact .refused e
          · rw [he]
            exact .entered ht ha

theorem write_moves (m : Movement) : Moves Change (write m) := by
  intro s
  have h := writing m s
  generalize (write m).runFrom s = out at h
  cases h with
  | refused e => exact .refl
  | replayed _ _ => exact .refl
  | unchanged _ _ => exact .refl
  | entered ht ha => exact ht.changes.trans (.single (.entered ha))

/-- To apply a movement is to write it down, and to answer with the outcome alone. -/
theorem runFrom_apply (m : Movement) (s : StockState) :
    (store.apply m).runFrom s =
      (((write m).runFrom s).1.map Prod.fst, ((write m).runFrom s).2) :=
  runFrom_bind_pure (write m) Prod.fst s

theorem apply_moves (m : Movement) : Moves Change (apply m) :=
  (write_moves m).bind fun _ => moves_pure _

/-! ## Allocations and snapshots -/

theorem writeLegs_moves : ∀ ms : List Movement, Moves Change (writeLegs ms)
  | [] => moves_pure _
  | m :: rest =>
    (write_moves m).bind fun _ => (writeLegs_moves rest).bind fun _ => moves_pure _

theorem plan_moves (item : ItemId) (warehouse : WarehouseId) (quantity : Int)
    (options : PlanOptions) : Moves Change (plan item warehouse quantity options) :=
  moves_get.bind fun _ => moves_ofRule _

theorem allocate_moves (r : AllocationRequest) : Moves Change (allocate r) := by
  refine moves_get.bind fun s => (moves_ofRule _).bind fun prior => ?_
  cases prior with
  | some legs => exact moves_pure _
  | none =>
    exact (plan_moves _ _ _ _).bind fun plan => (moves_ofRule _).bind fun _ =>
      (writeLegs_moves _).bind fun _ => moves_pure _

theorem rebuildSnapshot_moves (d : Date) : Moves Change (rebuildSnapshot d) :=
  moves_get_bind fun s => .single (.photographed s d)

end MemoryStock

end Stockroom
