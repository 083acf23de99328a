/-
Stockroom.Proofs.Sql.Mirror — servers that answer out of stock kept in memory.

* `Row.ofEntry`, `Row.ofBatch` and `Row.ofCandidate` are the rows that stand for what is stored;
  where warehouse and item are numbered from one on, they are read as what they stand for.
* `Asked qs p`: exactly the statements `qs` are sent, and the answer satisfies `p`. The rules
  below it compute what is asked of a server whose replies are known.
* `Obliging` servers begin and commit every transaction; `Server.mirroring` is one that answers out
  of a state throughout.
-/
import Stockroom.Proofs.Sql.Locks
import Stockroom.Proofs.Stock.Change

namespace Stockroom

/-! ## Rows -/

/-- Whether a key can be stored: warehouse and item are numbered from one on. -/
structure StockKey.Storable (k : StockKey) : Prop where
  warehouse : 0 < k.warehouse.val
  item : 0 < k.item.val

instance (k : StockKey) : Decidable k.Storable :=
  decidable_of_iff (0 < k.warehouse.val ∧ 0 < k.item.val) ⟨fun h => ⟨h.1, h.2⟩, fun h => ⟨h.1, h.2⟩⟩

/-- Whether whatever a state keeps can be stored. -/
structure StockState.Storable (s : StockState) : Prop where
  ledger : ∀ e ∈ s.ledger, e.key.Storable
  slots : ∀ k slot, s.slots.get? k = some slot → k.Storable
  batches : ∀ i b, s.batches.get? i = some b → 0 < b.warehouse.val ∧ 0 < b.item.val

theorem StockState.storable_iff {s : StockState} :
    s.Storable ↔ (∀ e ∈ s.ledger, e.key.Storable) ∧ (∀ b ∈ s.slots.toList, b.1.Storable) ∧
      ∀ b ∈ s.batches.toList, 0 < b.2.warehouse.val ∧ 0 < b.2.item.val := by
  constructor
  · rintro ⟨hledger, hslots, hbatches⟩
    exact ⟨hledger, fun b hb => hslots b.1 b.2 (OrderedMap.mem_toList_iff.mp hb),
      fun b hb => hbatches b.1 b.2 (OrderedMap.mem_toList_iff.mp hb)⟩
  · rintro ⟨hledger, hslots, hbatches⟩
    exact ⟨hledger, fun k slot h => hslots _ (OrderedMap.mem_toList_iff.mpr h),
      fun i b h => hbatches _ (OrderedMap.mem_toList_iff.mpr h)⟩

instance (s : StockState) : Decidable s.Storable := decidable_of_iff _ StockState.storable_iff.symm

namespace Sql

open StoreM

namespace Row

/-- The columns of a slot's key. -/
def ofKey (k : StockKey) : Row :=
  [("warehouse_id", .integer k.warehouse.val), ("item_id", .integer k.item.val),
   ("batch_code_key", .text k.batch.key)]

/-- The row of a ledger entry. -/
def ofEntry (e : LedgerEntry) : Row :=
  ("id", .integer e.id) :: ofKey e.key ++
    [("delta", .integer e.delta), ("reason", .text e.reason.text), ("ref", .text e.reference),
     ("ref_line", .integer e.line), ("after_qty", .integer e.after),
     ("occurred_at", .instant e.occurredAt), ("trace_id", .text e.trace.val)]

/-- The row of a batch. -/
def ofBatch (b : Batch) : Row :=
  [("id", .integer b.id), ("item_id", .integer b.item.val),
   ("warehouse_id", .integer b.warehouse.val), ("batch_code", .text b.code),
   ("production_date", .ofDate? b.production), ("expiry_date", .ofDate? b.expiry),
   ("created_at", .instant b.createdAt)]

/-- The row of a slot that may feed an allocation; the slot's number is that of the row. -/
def ofCandidate (c : Candidate) : Row :=
  ("id", .integer c.sequence) :: ofKey c.key ++
    [("qty", .integer c.quantity), ("expiry_date", .ofDate? c.expiry)]

theorem checkPositive_of_pos {noun : String} {n : Int} (h : 0 < n) :
    checkPositive noun n = .ok n := if_neg (Int.not_le.mpr h)

theorem warehouse_of_lookup {row : Row} {w : WarehouseId} (hw : 0 < w.val)
    (h : row.integer "warehouse_id" = .ok w.val) : row.warehouse = .ok w := by
  refine bind_eq_ok_iff.mpr ⟨w.val, h, ?_⟩
  rw [WarehouseId.ofInt, checkPositive_of_pos hw]
  rfl

theorem item_of_lookup {row : Row} {i : ItemId} (hi : 0 < i.val)
    (h : row.integer "item_id" = .ok i.val) : row.item = .ok i := by
  refine bind_eq_ok_iff.mpr ⟨i.val, h, ?_⟩
  rw [ItemId.ofInt, checkPositive_of_pos hi]
  rfl

theorem slotKey_of_lookup {row : Row} {k : StockKey} (hk : k.Storable)
    (hw : row.integer "warehouse_id" = .ok k.warehouse.val)
    (hi : row.integer "item_id" = .ok k.item.val)
    (hb : row.text "batch_code_key" = .ok k.batch.key) : row.slotKey = .ok k := by
  unfold slotKey
  rw [warehouse_of_lookup hk.warehouse hw, item_of_lookup hk.item hi, hb]
  rfl

theorem read_text (r : Reason) : Reason.read r.text = .ok r := by
  cases r <;> rfl

theorem entry_ofEntry {e : LedgerEntry} (h : e.key.Storable) : (ofEntry e).entry = .ok e := by
  have hkey : (ofEntry e).slotKey = .ok e.key := slotKey_of_lookup h rfl rfl rfl
  have hreason : stored (Reason.read e.reason.text) = .ok e.reason := by
    rw [read_text]
    rfl
  refine bind_eq_ok_iff.mpr ⟨e.reason.text, rfl, ?_⟩
  refine bind_eq_ok_iff.mpr ⟨e.trace.val, rfl, ?_⟩
  refine bind_eq_ok_iff.mpr ⟨e.id, rfl, ?_⟩
  refine bind_eq_ok_iff.mpr ⟨e.key, hkey, ?_⟩
  refine bind_eq_ok_iff.mpr ⟨e.delta, rfl, ?_⟩
  refine bind_eq_ok_iff.mpr ⟨e.reason, hreason, ?_⟩
  rfl

theorem date?_of_lookup {row : Row} {name : String} {d : Option Date}
    (h : row.lookup name = some (.ofDate? d)) : row.date? name = .ok d := by
  unfold date? read?
  rw [h]
  cases d <;> rfl

theorem batch_ofBatch {b : Batch} (hw : 0 < b.warehouse.val) (hi : 0 < b.item.val) :
    (ofBatch b).batch = .ok b := by
  refine bind_eq_ok_iff.mpr ⟨b.id, rfl, ?_⟩
  refine bind_eq_ok_iff.mpr ⟨b.item, item_of_lookup hi rfl, ?_⟩
  refine bind_eq_ok_iff.mpr ⟨b.warehouse, warehouse_of_lookup hw rfl, ?_⟩
  refine bind_eq_ok_iff.mpr ⟨b.code, rfl, ?_⟩
  refine bind_eq_ok_iff.mpr ⟨b.production, date?_of_lookup rfl, ?_⟩
  refine bind_eq_ok_iff.mpr ⟨b.expiry, date?_of_lookup rfl, ?_⟩
  rfl

theorem candidate_ofCandidate {c : Candidate} (h : c.key.Storable) :
    (ofCandidate c).candidate = .ok c := by
  refine bind_eq_ok_iff.mpr ⟨c.sequence, rfl, ?_⟩
  refine bind_eq_ok_iff.mpr ⟨c.key, slotKey_of_lookup h rfl rfl rfl, ?_⟩
  refine bind_eq_ok_iff.mpr ⟨c.quantity, rfl, ?_⟩
  refine bind_eq_ok_iff.mpr ⟨c.expiry, date?_of_lookup rfl, ?_⟩
  rfl

end Row

/-! ## Replies -/

namespace Reply

variable {α : Type} {operation : String} {read : Row → Except StoreError α} {row : α → Row}

/-- What may be there or not is read as it is. -/
theorem first?_toList {o : Option α} (h : ∀ a ∈ o, read (row a) = .ok a) :
    (Reply.rows (o.map row).toList).first? operation read = .ok o := by
  cases o with
  | none => rfl
  | some a =>
    simp only [first?, found, Option.map_some, Option.toList_some, List.head?_cons, bind,
      Except.bind, h a rfl]
    rfl

/-- The first row is the one that may be there. -/
theorem first?_ok (operation : String) (o : Option Row) :
    (Reply.rows o.toList).first? operation .ok = .ok o := by
  cases o <;> rfl

theorem mapM_map {as : List α} (h : ∀ a ∈ as, read (row a) = .ok a) :
    (as.map row).mapM read = .ok as := by
  induction as with
  | nil => rfl
  | cons a rest ih =>
    obtain ⟨ha, hrest⟩ := List.forall_mem_cons.mp h
    rw [List.map_cons, List.mapM_cons]
    exact bind_eq_ok_iff.mpr ⟨a, ha, bind_eq_ok_iff.mpr ⟨rest, ih hrest, rfl⟩⟩

theorem all_map {as : List α} (h : ∀ a ∈ as, read (row a) = .ok a) :
    (Reply.rows (as.map row)).all operation read = .ok as := mapM_map h

end Reply

/-! ## What is asked -/

/-- Exactly these statements are sent, and the answer is one of these. -/
def Asked {α : Type} (qs : List Statement) (p : Except StoreError α → Prop) : Talk α :=
  fun xs out => xs.map (·.statement) = qs ∧ p out

section Rules

variable {α β : Type} {u : Session} {x : SqlM α} {f : α → SqlM β} {qs qs' : List Statement}
  {p : Except StoreError α → Prop} {p' : Except StoreError β → Prop} {q : Statement}
  {read : Reply → Except StoreError α}

theorem asked_pure {a : α} (h : p (.ok a)) : Says u (pure a) (Asked [] p) := says_pure ⟨rfl, h⟩

theorem Asks.asked (hx : Asks x q read) (h : ∀ past, p (read (u.server past q))) :
    Says u x (Asked [q] p) := hx.talk fun past => ⟨rfl, h past⟩

/-- Behind an answer the rest goes on, and asks for more. -/
theorem Says.asked_bind {r : α → Prop} (hx : Says u x (Asked qs fun o => ∃ a, o = .ok a ∧ r a))
    (hf : ∀ a, r a → Says u (f a) (Asked qs' p')) : Says u (x >>= f) (Asked (qs ++ qs') p') := by
  refine hx.bind (fun xs e h => ?_) fun xs a h => ?_
  · obtain ⟨-, a, ha, -⟩ := h
    cases ha
  · obtain ⟨hxs, a', ha, hr⟩ := h
    cases ha
    refine (hf a hr).imp fun ys out hys => ⟨?_, hys.2⟩
    rw [List.map_append, hxs, hys.1]

theorem Says.asked_bind_eq {a : α} (hx : Says u x (Asked qs (· = .ok a)))
    (hf : Says u (f a) (Asked qs' p')) : Says u (x >>= f) (Asked (qs ++ qs') p') :=
  Says.asked_bind (r := (· = a)) (hx.imp fun _ _ h => ⟨h.1, a, h.2, rfl⟩) fun _ h => h ▸ hf

/-- Behind what is known to be answered nothing more is asked. -/
theorem Says.asked_bind_last {a : α} (hx : Says u x (Asked qs (· = .ok a)))
    (hf : Says u (f a) (Asked [] p')) : Says u (x >>= f) (Asked qs p') := by
  have h := hx.asked_bind_eq hf
  rwa [List.append_nil] at h

/-- Behind an answer that is worked on nothing more is asked. -/
theorem Says.asked_map {r : α → Prop} {g : α → β}
    (hx : Says u x (Asked qs fun o => ∃ a, o = .ok a ∧ r a)) (hg : ∀ a, r a → p' (.ok (g a))) :
    Says u (x >>= fun a => pure (g a)) (Asked qs p') := by
  have h := hx.asked_bind (f := fun a => pure (g a)) fun a ha => asked_pure (hg a ha)
  rwa [List.append_nil] at h

/-- Whatever the answer is, it is worked on, and nothing more is asked. -/
theorem Says.asked_mapped {g : α → β} (hx : Says u x (Asked qs p)) :
    Says u (x >>= fun a => pure (g a)) (Asked qs fun o => ∃ o', p o' ∧ o = o'.map g) := by
  refine hx.bind (fun xs e h => ⟨h.1, _, h.2, rfl⟩) fun xs a h => ?_
  refine says_pure ⟨?_, _, h.2, rfl⟩
  rw [List.append_nil]
  exact h.1

/-- A failure ends it. -/
theorem Says.asked_bind_error {e : StoreError} (hx : Says u x (Asked qs (· = .error e)))
    (hp : p' (.error e)) : Says u (x >>= f) (Asked qs p') := by
  refine hx.bind (fun xs e' h => ?_) fun xs a h => ?_
  · obtain ⟨hxs, he⟩ := h
    cases he
    exact ⟨hxs, hp⟩
  · exact nomatch h.2

/-- A question whose answer is known. -/
theorem Asks.asked_bind {a : α} (hx : Asks x q read) (ha : ∀ past, read (u.server past q) = .ok a)
    (hf : Says u (f a) (Asked qs p')) : Says u (x >>= f) (Asked (q :: qs) p') :=
  Says.asked_bind (r := (· = a)) (hx.asked fun past => ⟨a, ha past, rfl⟩) fun _ h => h ▸ hf

theorem says_ofRule_ok {rule : Except DomainError α} {a : α} {t : Talk β} (h : rule = .ok a)
    (hf : Says u (f a) t) : Says u (StoreM.ofRule rule >>= f) t := by
  subst h
  exact hf

theorem says_ofResult_ok {result : Except StoreError α} {a : α} {t : Talk β} (h : result = .ok a)
    (hf : Says u (f a) t) : Says u (StoreM.ofResult result >>= f) t := by
  subst h
  exact hf

theorem says_ofRule_error {rule : Except DomainError α} {e : DomainError} {t : Talk β}
    (h : rule = .error e) (ht : t [] (.error (.domain e))) :
    Says u (StoreM.ofRule rule >>= f) t := by
  subst h
  exact says_of_silent (fun _ => rfl) ht

/-- A statement that the server carries out. -/
theorem asked_execute_bind {f : Unit → SqlM β} {operation : String}
    (hq : ∀ past, ∃ rs, u.server past q = .rows rs) (hf : Says u (f ()) (Asked qs p')) :
    Says u (execute operation q >>= f) (Asked (q :: qs) p') := by
  refine (asks_execute operation q).asked_bind (fun past => ?_) hf
  obtain ⟨rs, hrs⟩ := hq past
  rw [hrs]
  rfl

end Rules

/-! ## Transactions -/

/-- Whether a server begins and commits every transaction. -/
structure Server.Obliging (server : Server) : Prop where
  begins : ∀ past, ∃ rs, server past .begin = .rows rs
  commits : ∀ past, ∃ rs, server past .commit = .rows rs

/-- The answer that an ending bears. -/
def Ending.answer {α : Type} : Ending α → α
  | .keep a | .leave a => a

/-- The statement that ends a transaction whose body has answered like this. -/
def closing {α : Type} : Except StoreError (Ending α) → Statement
  | .ok (.keep _) => .commit
  | .ok (.leave _) | .error _ => .rollback

/-- With such a server a transaction adds only its beginning and its end. -/
theorem asked_transaction {α : Type} {u : Session} {body : SqlM (Ending α)} {qs : List Statement}
    {p : Except StoreError (Ending α) → Prop} (hopen : u.isOpen = true)
    (hserver : u.server.Obliging) (hbody : Says u body (Asked qs p)) :
    Says u (transaction body) (fun said out => ∃ o, p o ∧
      said.map (·.statement) = .begin :: (qs ++ [closing o]) ∧ out = o.map Ending.answer) := by
  refine (says_transaction hbody).imp fun said out h => ?_
  cases h with
  | closed shut => simp [hopen] at shut
  | unbegun refused =>
    obtain ⟨past, he⟩ := refused
    obtain ⟨rs, hrs⟩ := hserver.begins past
    simp [hrs] at he
  | uncommitted body refused =>
    obtain ⟨past, he⟩ := refused
    obtain ⟨rs, hrs⟩ := hserver.commits past
    simp [hrs] at he
  | failed body => exact ⟨_, body.2, by simp [body.1, closing], rfl⟩
  | left body => exact ⟨_, body.2, by simp [body.1, closing], rfl⟩
  | kept body => exact ⟨_, body.2, by simp [body.1, closing], rfl⟩

/-! ## A server that mirrors a state -/

/-- The number that a slot has, or would get. -/
def slotNumber (s : StockState) (k : StockKey) : Int := (s.slotOf k).sequence

/-- The server that answers out of a state, whatever was said before. -/
def Server.mirroring (s : StockState) : Server := fun _ q =>
  .rows <| match q with
    | .selectEntry l => ((s.entryAt? l).map Row.ofEntry).toList
    | .selectEntries reference => (sortOn (·.line) (s.entriesOf reference)).map Row.ofEntry
    | .selectQuantity k => [[("qty", .integer (s.quantity k))]]
    | .lockSlot k => [[("id", .integer (slotNumber s k)), ("qty", .integer (s.quantity k))]]
    | .selectCandidates item warehouse _ =>
      (sortOn (·.sequence) (s.candidates item warehouse)).map Row.ofCandidate
    | .selectBatch i _ => ((s.batches.get? i).map Row.ofBatch).toList
    | .insertBatch i production expiry =>
      [.ofBatch ⟨s.batches.size + 1, i.item, i.warehouse, i.code, production, expiry, s.clock⟩]
    | .insertEntry _ _ => [[("id", .integer (s.ledger.length + 1))]]
    | _ => []

theorem obliging_mirroring (s : StockState) : (Server.mirroring s).Obliging where
  begins _ := ⟨_, rfl⟩
  commits _ := ⟨_, rfl⟩

end Sql

end Stockroom
