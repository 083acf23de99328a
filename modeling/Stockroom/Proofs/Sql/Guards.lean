/-
Stockroom.Proofs.Sql.Guards — what comes before a write.

* `Guarded g pre xs`: behind `pre`, every exchange of `xs` has around it what the guard `g` asks
  for. It is checked exchange by exchange, and what was said before only grows.
* `SlotGuard`: a slot is set only after it was locked and the document was looked up once more,
  and its ledger row follows at once; no other ledger row is written.
* `Call.Guards` is the guard of each call, `writes_guarded` says that every write has it, inside
  its transaction and whatever the server replies, well typed or not.
-/
import Stockroom.Proofs.Sql.Locks

namespace Stockroom

namespace Sql

open StoreM

/-! ## Guards -/

/-- What has to be so before and behind an exchange. -/
abbrev Guard := List Exchange → Exchange → List Exchange → Prop

/-- Whether a part of a transaction keeps to a guard, behind what was said in it before. -/
def Guarded (g : Guard) (pre : List Exchange) : List Exchange → Prop
  | [] => True
  | x :: rest =>
    x.statement.isControl = false ∧ g pre x rest ∧ Guarded g (pre ++ [x]) rest

/-- Whether more may be said behind what a guard has seen. -/
def Guard.Extends (g : Guard) : Prop := ∀ pre x rest more, g pre x rest → g pre x (rest ++ more)

/-- The guard that lets nothing be written unless something was locked. -/
def WriteGuard (locked : List Exchange → Prop) : Guard := fun pre x _ =>
  x.statement.isWrite = true → locked pre

/-- The talk of a part of a transaction that keeps to a guard. -/
def Keeps {α : Type} (g : Guard) (pre : List Exchange) : Talk α := fun xs _ => Guarded g pre xs

namespace Guarded

variable {g : Guard} {pre xs ys : List Exchange}

theorem append (hg : g.Extends) (hxs : Guarded g pre xs) (hys : Guarded g (pre ++ xs) ys) :
    Guarded g pre (xs ++ ys) := by
  induction xs generalizing pre with
  | nil => simpa using hys
  | cons x rest ih =>
    obtain ⟨hx, hguard, hrest⟩ := hxs
    exact ⟨hx, hg _ _ _ _ hguard, ih hrest (by simpa using hys)⟩

/-- What is seen from any one place. -/
theorem split (h : Guarded g pre xs) {before after : List Exchange} {x : Exchange}
    (hxs : xs = before ++ x :: after) :
    (∀ y ∈ before, y.statement.isControl = false) ∧ g (pre ++ before) x after := by
  induction before generalizing pre xs with
  | nil =>
    subst hxs
    exact ⟨by simp, by simpa using h.2.1⟩
  | cons y before ih =>
    subst hxs
    obtain ⟨hbefore, hguard⟩ := ih h.2.2 rfl
    exact ⟨by simpa using ⟨h.1, hbefore⟩, by simpa using hguard⟩

/-- A guard that lets everything pass from now on. -/
theorem of_forall (hxs : ∀ x ∈ xs, x.statement.isControl = false)
    (hg : ∀ more, ∀ x ∈ xs, ∀ rest, g (pre ++ more) x rest) : Guarded g pre xs := by
  induction xs generalizing pre with
  | nil => trivial
  | cons x rest ih =>
    refine ⟨hxs x (by simp), by simpa using hg [] x (by simp) rest, ?_⟩
    refine ih (fun y hy => hxs y (by simp [hy])) fun more y hy rest' => ?_
    simpa using hg (x :: more) y (by simp [hy]) rest'

end Guarded

section Rules

variable {α β : Type} {u : Session} {x : SqlM α} {f : α → SqlM β} {g : Guard}
  {pre : List Exchange} {q : Statement} {read : Reply → Except StoreError α}

theorem keeps_nil {out : Except StoreError α} : Keeps g pre [] out := trivial

theorem Says.keeps_bind (hg : g.Extends) (hx : Says u x (Keeps g pre))
    (hf : ∀ xs a, Says u (f a) (Keeps g (pre ++ xs))) : Says u (x >>= f) (Keeps g pre) :=
  hx.bind (fun _ _ h => h) fun xs a h => (hf xs a).imp fun _ _ hys => Guarded.append hg h hys

/-- A sequence behind a question that the guard lets pass. -/
theorem Asks.keeps_bind (hx : Asks x q read) (hq : q.isControl = false)
    (hguard : ∀ r rest, g pre ⟨q, r⟩ rest)
    (hf : ∀ r a, read r = .ok a → Says u (f a) (Keeps g (pre ++ [⟨q, r⟩]))) :
    Says u (x >>= f) (Keeps g pre) := by
  refine hx.bind_talk (fun past e _ => ⟨hq, hguard _ _, trivial⟩) fun past a ha => ?_
  exact (hf _ a ha).imp fun ys out h => ⟨hq, hguard _ _, h⟩

/-- Whatever a guard lets pass from now on may be said. -/
theorem Says.keeps_of_sends {p : Statement → Prop} (hx : Says u x (Sends p))
    (hplain : ∀ q, p q → q.isControl = false)
    (hguard : ∀ more y rest, p y.statement → g (pre ++ more) y rest) : Says u x (Keeps g pre) :=
  hx.imp fun _ _ h => .of_forall (fun y hy => hplain _ (h y hy))
    fun more y hy rest => hguard more y rest (h y hy)

end Rules

/-! ## Stock -/

/-- Whether the statement sets a slot or writes a ledger row. -/
def Statement.movesStock : Statement → Bool
  | updateQuantity _ _ | insertEntry _ _ => true
  | _ => false

/-- A slot is set where it was checked, and a ledger row with its quantity follows at once unless
the server refuses; a ledger row is written nowhere else. -/
structure SlotGuard (checked : Int → List Exchange → Prop) (pre : List Exchange) (x : Exchange)
    (rest : List Exchange) : Prop where
  update : ∀ slot q, x.statement = .updateQuantity slot q → checked slot pre ∧
    ((∃ e, x.reply = .error e) ∨ ∃ m r more, rest = ⟨.insertEntry m q, r⟩ :: more)
  insert : ∀ m q, x.statement = .insertEntry m q →
    ∃ slot rs before, pre = before ++ [⟨.updateQuantity slot q, .rows rs⟩]

/-- Whether a document was looked up, slots were locked, and the document was looked up again,
with nothing found both times. -/
def CheckedTwice (lookup lock : Statement) (free : Reply → Prop) (holds : List Row → Prop)
    (pre : List Exchange) : Prop :=
  ∃ r₁ rs r₂, [⟨lookup, r₁⟩, ⟨lock, .rows rs⟩, ⟨lookup, r₂⟩].Sublist pre ∧
    free r₁ ∧ free r₂ ∧ holds rs

section Slots

variable {checked : Int → List Exchange → Prop} {pre rest : List Exchange} {x : Exchange}

theorem slotGuard_extends : Guard.Extends (SlotGuard checked) := by
  intro pre x rest more h
  refine ⟨fun slot q hx => ?_, h.insert⟩
  obtain ⟨hchecked, herror | ⟨m, r, more', rfl⟩⟩ := h.update slot q hx
  · exact ⟨hchecked, .inl herror⟩
  · exact ⟨hchecked, .inr ⟨m, r, more' ++ more, rfl⟩⟩

theorem SlotGuard.of_other (h : x.statement.movesStock = false) : SlotGuard checked pre x rest where
  update _ _ hx := by simp [hx, Statement.movesStock] at h
  insert _ _ hx := by simp [hx, Statement.movesStock] at h

theorem CheckedTwice.append {lookup lock : Statement} {free : Reply → Prop}
    {holds : List Row → Prop} (h : CheckedTwice lookup lock free holds pre)
    (more : List Exchange) : CheckedTwice lookup lock free holds (pre ++ more) := by
  obtain ⟨r₁, rs, r₂, hsub, h⟩ := h
  exact ⟨r₁, rs, r₂, hsub.trans (List.sublist_append_left _ _), h⟩

end Slots

namespace Stock

variable {u : Session} {checked : Int → List Exchange → Prop} {pre : List Exchange}

/-- The slot is set, and unless that fails the ledger row is written. -/
theorem says_writeMovement (slot : Int) (m : Movement) (after : Int) :
    Says u (writeMovement slot m after) (fun xs _ =>
      (∃ e, xs = [⟨.updateQuantity slot after, .error e⟩]) ∨
        ∃ rs r, xs = [⟨.updateQuantity slot after, .rows rs⟩, ⟨.insertEntry m after, r⟩]) := by
  refine (asks_execute _ _).bind_talk (fun past e h => ?_) fun past _ h => ?_
  · cases hr : u.server past (.updateQuantity slot after) with
    | rows rs =>
      rw [hr] at h
      cases h
    | error e' => exact .inl ⟨e', rfl⟩
  obtain ⟨rs, hrs, -⟩ := map_eq_ok_iff.mp h
  rw [Reply.found_eq_ok_iff.mp hrs]
  refine (asks_insertEntry m after).bind_talk (fun past e _ => .inr ⟨rs, _, rfl⟩)
    fun past id _ => ?_
  exact says_pure (.inr ⟨rs, _, rfl⟩)

theorem keeps_writeMovement {slot : Int} (hslot : checked slot pre) (m : Movement) (after : Int) :
    Says u (writeMovement slot m after) (Keeps (SlotGuard checked) pre) := by
  refine (says_writeMovement slot m after).imp fun xs out h => ?_
  obtain ⟨e, rfl⟩ | ⟨rs, r, rfl⟩ := h
  · refine ⟨rfl, ⟨fun s q hx => ?_, fun _ _ hx => nomatch hx⟩, trivial⟩
    cases hx
    exact ⟨hslot, .inl ⟨e, rfl⟩⟩
  · refine ⟨rfl, ⟨fun s q hx => ?_, fun _ _ hx => nomatch hx⟩, rfl,
      ⟨fun _ _ hx => (nomatch hx), fun m' q hx => ?_⟩, trivial⟩
    · cases hx
      exact ⟨hslot, .inr ⟨m, r, [], rfl⟩⟩
    · cases hx
      exact ⟨slot, rs, pre, rfl⟩

/-- Whether a statement leaves the transaction and the stock alone. -/
def Aside (q : Statement) : Prop := q.isControl = false ∧ q.movesStock = false

theorem aside_ensureBatch (identity : BatchIdentity) (production expiry : Option Date)
    (on : Date) : Says u (ensureBatch identity production expiry on) (Sends Aside) := by
  have hfind : Says u (findBatch identity false) (Sends Aside) :=
    (asks_findBatch identity false).sends ⟨rfl, rfl⟩
  refine hfind.sends_bind fun found => ?_
  match found with
  | some b => exact says_pure sends_nil
  | none =>
    refine says_ofRule_bind (fun _ _ => sends_nil) fun dates _ => ?_
    have hinsert : Says u (row? "insert_batch" (.insertBatch identity dates.1 dates.2))
        (Sends Aside) := (asks_row? _ _).sends ⟨rfl, rfl⟩
    refine hinsert.sends_bind fun row => ?_
    match row with
    | some r => exact says_of_silent (fun s => runFrom_ofResult r.batch s) sends_nil
    | none =>
      refine hfind.sends_bind fun found => ?_
      match found with
      | some b => exact says_pure sends_nil
      | none => exact says_throw sends_nil

theorem aside_ensureMovementBatch (m : Movement) :
    Says u (ensureMovementBatch m) (Sends Aside) := by
  unfold ensureMovementBatch
  cases m.key.batch.code? with
  | none => exact says_pure sends_nil
  | some code => exact (aside_ensureBatch _ _ _ _).sends_bind fun _ => says_pure sends_nil

theorem keeps_ensureMovementBatch (m : Movement) :
    Says u (ensureMovementBatch m) (Keeps (SlotGuard checked) pre) :=
  (aside_ensureMovementBatch m).keeps_of_sends (fun _ h => h.1) fun _ _ _ h => .of_other h.2

/-- By induction on the legs: whatever was checked before stays checked. -/
theorem keeps_writeLegs {locked : List Candidate} (ms : List Movement)
    (hlocked : ∀ c ∈ locked, ∀ more, checked c.sequence (pre ++ more)) :
    Says u (writeLegs locked ms) (Keeps (SlotGuard checked) pre) := by
  induction ms generalizing pre with
  | nil => exact says_pure keeps_nil
  | cons m rest ih =>
    rw [writeLegs]
    cases hfind : locked.find? (fun c => c.key == m.key) with
    | none => exact says_throw keeps_nil
    | some c =>
      refine says_ofRule_bind (fun _ _ => keeps_nil) fun _ _ => ?_
      refine says_ofRule_bind (fun _ _ => keeps_nil) fun after _ => ?_
      have hc : checked c.sequence pre := by
        simpa using hlocked c (List.mem_of_find?_eq_some hfind) []
      refine (keeps_writeMovement hc m after).keeps_bind slotGuard_extends fun xs e => ?_
      have hrest : Says u (writeLegs locked rest) (Keeps (SlotGuard checked) (pre ++ xs)) :=
        ih fun c hc more => by simpa using hlocked c hc (xs ++ more)
      exact hrest.keeps_bind slotGuard_extends fun _ _ => says_pure keeps_nil

/-- A slot was checked for a movement if its row was found under the lock, and no entry of the
document line before and after that. -/
def CheckedFor (m : Movement) (slot : Int) : List Exchange → Prop :=
  CheckedTwice (.selectEntry m.documentLine) (.lockSlot m.key) (· = .rows [])
    (fun rs => ∃ row ∈ rs.head?, row.integer "id" = .ok slot)

/-- Slots were checked for a request if their rows were found under the lock, and no earlier
allocation before and after that. -/
def CheckedForAll (r : AllocationRequest) (slot : Int) : List Exchange → Prop :=
  CheckedTwice (.selectEntries r.reference) (.selectCandidates r.item r.warehouse true)
    (readPrior r · = .ok none) (fun rs => ∃ row ∈ rs, row.integer "id" = .ok slot)

theorem eq_nil_of_first? {operation : String} {α : Type} {read : Row → Except StoreError α}
    {r : Reply} (h : r.first? operation read = .ok none) : r = .rows [] := by
  obtain ⟨rs, rfl, ⟨hnone, -⟩ | ⟨_, _, _, _, ⟨⟩⟩⟩ := Reply.first?_eq_ok h
  rw [List.head?_eq_none_iff.mp hnone]

theorem integer_of_readSlot {row : Row} {slot before : Int}
    (h : readSlot row = .ok (slot, before)) : row.integer "id" = .ok slot := by
  obtain ⟨n, hn, h⟩ := bind_eq_ok_iff.mp h
  obtain ⟨q, -, h⟩ := bind_eq_ok_iff.mp h
  cases h
  exact hn

theorem keeps_applyLocked (m : Movement) :
    Says u (applyLocked m)
      (Keeps (SlotGuard (CheckedFor m)) [⟨.selectEntry m.documentLine, .rows []⟩]) := by
  rw [applyLocked, lockSlot_eq, bind_assoc]
  refine (asks_execute _ _).keeps_bind rfl (fun _ _ => .of_other rfl) fun r₁ _ _ => ?_
  refine (asks_row_read _ _ _).keeps_bind rfl (fun _ _ => .of_other rfl)
    fun r₂ ⟨slot, before⟩ hslot => ?_
  obtain ⟨rs, row, rfl, hhead, hread⟩ := Reply.first_eq_ok hslot
  refine (asks_entryAt? _).keeps_bind rfl (fun _ _ => .of_other rfl) fun r₃ found hfound => ?_
  match found with
  | some e => exact says_pure keeps_nil
  | none =>
    obtain rfl := eq_nil_of_first? hfound
    refine says_ofRule_bind (fun _ _ => keeps_nil) fun after _ => ?_
    refine (keeps_ensureMovementBatch m).keeps_bind slotGuard_extends fun xs _ => ?_
    have hchecked : CheckedFor m slot [⟨.selectEntry m.documentLine, .rows []⟩,
        ⟨.insertSlot m.key, r₁⟩, ⟨.lockSlot m.key, .rows rs⟩,
        ⟨.selectEntry m.documentLine, .rows []⟩] :=
      ⟨.rows [], rs, .rows [], .cons_cons _ (.cons _ (.refl _)), rfl, rfl, row, hhead,
        integer_of_readSlot hread⟩
    exact (keeps_writeMovement (hchecked.append xs) m after).keeps_bind slotGuard_extends
      fun _ _ => says_pure keeps_nil

theorem integer_of_candidate {row : Row} {c : Candidate} (h : row.candidate = .ok c) :
    row.integer "id" = .ok c.sequence := by
  obtain ⟨n, hn, h⟩ := bind_eq_ok_iff.mp h
  obtain ⟨_, -, h⟩ := bind_eq_ok_iff.mp h
  obtain ⟨_, -, h⟩ := bind_eq_ok_iff.mp h
  obtain ⟨_, -, h⟩ := bind_eq_ok_iff.mp h
  cases h
  exact hn

theorem keeps_allocateLocked {r : AllocationRequest} {r₁ : Reply}
    (hfree : readPrior r r₁ = .ok none) :
    Says u (allocateLocked r)
      (Keeps (SlotGuard (CheckedForAll r)) [⟨.selectEntries r.reference, r₁⟩]) := by
  refine (asks_candidates _ _ _).keeps_bind rfl (fun _ _ => .of_other rfl) fun r₂ locked hall => ?_
  obtain ⟨rs, rfl, hread⟩ := Reply.all_eq_ok hall
  refine (asks_priorAllocation r).keeps_bind rfl (fun _ _ => .of_other rfl)
    fun r₃ found hfound => ?_
  match found with
  | some a => exact says_pure keeps_nil
  | none =>
    refine says_ofRule_bind (fun _ _ => keeps_nil) fun plan _ => ?_
    have hchecked (c : Candidate) (hc : c ∈ locked) : CheckedForAll r c.sequence
        [⟨.selectEntries r.reference, r₁⟩, ⟨.selectCandidates r.item r.warehouse true, .rows rs⟩,
          ⟨.selectEntries r.reference, r₃⟩] := by
      obtain ⟨row, hrow, hcandidate⟩ := Reply.exists_of_mapM_eq_ok hread c hc
      exact ⟨r₁, rs, r₃, .refl _, hfree, hfound, row, hrow, integer_of_candidate hcandidate⟩
    exact (keeps_writeLegs _ fun c hc more => (hchecked c hc).append more).keeps_bind
      slotGuard_extends fun _ _ => says_pure keeps_nil

end Stock

/-! ## Reservations -/

namespace Reservations

variable {u : Session} {pre : List Exchange}

/-- Whether the lock of the business key was taken, and a row was asked for under its own lock. -/
def LockedByKey (key : ReservationKey) (pre : List Exchange) : Prop :=
  ∃ l rs, [⟨.advisoryLock key.lockText, .rows l⟩,
    ⟨.selectReservationByKey key true, .rows rs⟩].Sublist pre

/-- Whether the business key was read for the identifier, the lock of the key was taken, and the
row was asked for under its own lock. -/
def LockedById (id : Uuid) (pre : List Exchange) : Prop :=
  ∃ k ks key l rs, Row.reservationKey k = .ok key ∧
    [⟨.selectReservationKey id, .rows (k :: ks)⟩, ⟨.advisoryLock key.lockText, .rows l⟩,
      ⟨.selectReservation id true, .rows rs⟩].Sublist pre

theorem plain_of_saving {q : Statement} (h : Saving q) : q.isControl = false := by
  obtain ⟨r, rfl⟩ | ⟨id, l, rfl⟩ := h <;> rfl

theorem plain_ofRow? (found : Option Row) :
    Says u (ofRow? found) (Sends (·.isControl = false)) := by
  match found with
  | none => exact says_pure sends_nil
  | some row =>
    exact ((sends_ofRow row).sends_imp fun _ h => h.2).sends_bind fun _ => says_pure sends_nil

/-- A reservation is saved, and nothing else is sent. -/
theorem plain_save_bind {α : Type} (r : Reservation) (a : α) :
    Says u (save r >>= fun _ => pure a) (Sends (·.isControl = false)) :=
  ((says_save r).sends_imp fun _ => plain_of_saving).sends_bind fun _ => says_pure sends_nil

/-- Behind the locks anything may be said; on the way there nothing is written. -/
theorem keeps_lockReservation {α : Type} {id : Uuid} {k : Option Reservation → SqlM α}
    (hnone : Says u (k none) (fun xs _ => xs = []))
    (hsome : ∀ r, Says u (k (some r)) (Sends (·.isControl = false))) :
    Says u (lockReservation id >>= k) (Keeps (WriteGuard (LockedById id)) []) := by
  have hreading {xs : List Exchange} (h : ∀ x ∈ xs, Reading x.statement) :
      Guarded (WriteGuard (LockedById id)) [] xs :=
    .of_forall (fun x hx => (h x hx).2) fun more x hx rest hw => by simp [(h x hx).1] at hw
  refine (says_lockReservation id).bind (fun xs e h => hreading h.1)
    fun xs found ⟨hxs, hlocked⟩ => ?_
  match found with
  | none =>
    refine hnone.imp fun ys out h => ?_
    subst h
    simpa [Keeps] using hreading hxs
  | some r =>
    refine (hsome r).imp fun ys out h => ?_
    have hall : ∀ more, LockedById id (xs ++ more) := by
      intro more
      obtain ⟨hkey⟩ := hlocked r rfl
      exact ⟨_, _, _, _, _, hkey, .cons_cons _ (.cons_cons _ (.cons_cons _ (List.nil_sublist _)))⟩
    exact (hreading hxs).append (fun _ _ _ _ h => h) (.of_forall h fun more _ _ _ _ => hall more)

theorem keeps_lockExisting {α : Type} {id : Uuid} {k : Reservation → SqlM α}
    (hk : ∀ r, Says u (k r) (Sends (·.isControl = false))) :
    Says u (lockExisting id >>= k) (Keeps (WriteGuard (LockedById id)) []) := by
  rw [lockExisting, bind_assoc]
  exact keeps_lockReservation (says_of_silent (fun _ => rfl) rfl) hk

end Reservations

/-! ## Calls -/

/-- Whether everything but the ends of the transaction is inside it and keeps to a guard. -/
def Framed {α : Type} (g : Guard) : Talk α := fun said _ =>
  ∀ before x after, said = before ++ x :: after → x.statement.isControl = false →
    ∃ b opening, before = ⟨.begin, .rows b⟩ :: opening ∧
      (∀ y ∈ opening, y.statement.isControl = false) ∧ g opening x after

section Frames

variable {α β : Type} {u : Session} {g : Guard}

theorem framed_nil {out : Except StoreError α} : Framed g [] out := by
  intro before x after h
  simp at h

theorem framed_transaction {body : SqlM (Ending α)} (hg : g.Extends)
    (hbody : Says u body (Keeps g [])) : Says u (transaction body) (Framed g) := by
  refine (says_transaction hbody).imp fun said out h before x after hsaid hx => ?_
  obtain ⟨b, opening, rest, ending, o, rfl, rfl, hxs⟩ := h.inside hsaid hx
  obtain ⟨hopening, hguard⟩ := Guarded.split hxs rfl
  exact ⟨b, opening, rfl, hopening, hg _ _ _ _ hguard⟩

end Frames

namespace Call

/-- What comes before and behind the writes of a call, since its transaction was begun. -/
def Guards (c : Call) : Guard :=
  match c with
  | apply m => SlotGuard (Stock.CheckedFor m)
  | allocate r => SlotGuard (Stock.CheckedForAll r)
  | correctExpiry item warehouse code _ => WriteGuard fun pre =>
    ∃ key rs, BatchKey.ofRequiredCode code = .ok key ∧
      ⟨.selectBatch ⟨item, warehouse, key.key⟩ true, .rows rs⟩ ∈ pre
  | rebuildSnapshot d => WriteGuard fun pre =>
    ∃ l, ⟨.advisoryLock (Stock.snapshotLock d), .rows l⟩ ∈ pre
  | create _ n _ => WriteGuard (Reservations.LockedByKey n.key)
  | consume id _ | cancel id _ | release id _ => WriteGuard (Reservations.LockedById id)

end Call

section Calls

variable {u : Session}

/-- Once something is locked, a sequence of harmless or locked writes goes through. -/
theorem keeps_of_locked {α : Type} {locked : List Exchange → Prop} {pre : List Exchange}
    {x : SqlM α} (hpre : ∀ more, locked (pre ++ more))
    (hx : Says u x (Sends (·.isControl = false))) :
    Says u x (Keeps (WriteGuard locked) pre) :=
  hx.keeps_of_sends (fun _ h => h) fun more _ _ _ _ => hpre more

namespace Stock

theorem framed_apply (m : Movement) : Says u (Stock.apply m) (Framed (Call.apply m).Guards) := by
  refine says_ofRule_bind (fun _ _ => framed_nil) fun _ _ => ?_
  refine framed_transaction slotGuard_extends ?_
  refine (asks_entryAt? _).keeps_bind rfl (fun _ _ => .of_other rfl) fun r found hfound => ?_
  match found with
  | some e => exact says_pure keeps_nil
  | none =>
    obtain rfl := eq_nil_of_first? hfound
    dsimp only
    split
    · refine (asks_quantityOf _).keeps_bind rfl (fun _ _ => .of_other rfl) fun _ _ _ => ?_
      exact says_pure keeps_nil
    · exact keeps_applyLocked m

theorem framed_allocate (r : AllocationRequest) :
    Says u (Stock.allocate r) (Framed (Call.allocate r).Guards) := by
  refine framed_transaction slotGuard_extends ?_
  refine (asks_priorAllocation r).keeps_bind rfl (fun _ _ => .of_other rfl)
    fun r₁ found hfound => ?_
  match found with
  | some a => exact says_pure keeps_nil
  | none => exact keeps_allocateLocked hfound

theorem framed_correctExpiry (item : ItemId) (warehouse : WarehouseId) (code : String)
    (expiry : Option Date) :
    Says u (Stock.correctExpiry item warehouse code expiry)
      (Framed (Call.correctExpiry item warehouse code expiry).Guards) := by
  refine says_ofRule_bind (fun _ _ => framed_nil) fun key hkey => ?_
  refine framed_transaction (fun _ _ _ _ h => h) ?_
  refine (asks_findBatch _ _).keeps_bind rfl (fun _ _ hw => nomatch hw) fun r found hfound => ?_
  obtain ⟨rs, rfl, -⟩ := Reply.first?_eq_ok hfound
  refine keeps_of_locked (fun more => ⟨key, rs, hkey, by simp⟩) ?_
  match found with
  | none => exact says_throw sends_nil
  | some batch =>
    refine says_ofRule_bind (fun _ _ => sends_nil) fun _ _ => ?_
    exact Says.sends_bind ((asks_execute _ _).sends rfl) fun _ => says_pure sends_nil

theorem framed_rebuildSnapshot (d : Date) :
    Says u (Stock.rebuildSnapshot d) (Framed (Call.rebuildSnapshot d).Guards) := by
  refine (framed_transaction (g := (Call.rebuildSnapshot d).Guards) (fun _ _ _ _ h => h) ?_).bind
    (fun _ _ h => h) fun xs row h => ?_
  · refine (asks_execute _ _).keeps_bind rfl (fun _ _ hw => nomatch hw) fun r _ hlock => ?_
    obtain ⟨l, hl, -⟩ := map_eq_ok_iff.mp hlock
    obtain rfl := Reply.found_eq_ok_iff.mp hl
    refine keeps_of_locked (fun more => ⟨l, by simp⟩) ?_
    refine Says.sends_bind ((asks_execute _ _).sends rfl) fun _ => ?_
    refine Says.sends_bind ((asks_execute _ _).sends rfl) fun _ => ?_
    exact Says.sends_bind ((asks_row _ _).sends rfl) fun _ => says_pure sends_nil
  · refine says_of_silent (fun s => runFrom_ofResult _ s) ?_
    rw [List.append_nil]
    exact h

end Stock

namespace Reservations

theorem framed_create (fresh : Uuid) (n : NewReservation) (now : Instant) :
    Says u (Reservations.create fresh n now) (Framed (Call.create fresh n now).Guards) := by
  refine says_ofRule_bind (fun _ _ => framed_nil) fun _ _ => ?_
  refine framed_transaction (fun _ _ _ _ h => h) ?_
  refine (asks_lockKey _).keeps_bind rfl (fun _ _ hw => nomatch hw) fun r _ hlock => ?_
  obtain ⟨l, hl, -⟩ := map_eq_ok_iff.mp hlock
  obtain rfl := Reply.found_eq_ok_iff.mp hl
  rw [loadByKey, bind_assoc]
  refine (asks_row? _ _).keeps_bind rfl (fun _ _ hw => nomatch hw) fun r found hfound => ?_
  obtain ⟨rs, rfl, -⟩ := Reply.first?_eq_ok hfound
  refine keeps_of_locked (fun more => ⟨l, rs, .cons_cons _ (.cons_cons _ (List.nil_sublist _))⟩) ?_
  refine (plain_ofRow? found).sends_bind fun found => ?_
  match found with
  | some r =>
    exact says_ofRule_bind (fun _ _ => sends_nil) fun r' _ => plain_save_bind r' _
  | none =>
    exact says_ofRule_bind (fun _ _ => sends_nil) fun r' _ => plain_save_bind r' _

theorem framed_consume (id : Uuid) (now : Instant) :
    Says u (Reservations.consume id now) (Framed (Call.consume id now).Guards) := by
  refine framed_transaction (fun _ _ _ _ h => h) (keeps_lockExisting fun r => ?_)
  refine says_ofRule_bind (fun _ _ => sends_nil) fun ⟨r', outcome⟩ _ => ?_
  dsimp only
  split
  · exact plain_save_bind r' _
  · exact says_pure sends_nil

theorem framed_cancel (id : Uuid) (now : Instant) :
    Says u (Reservations.cancel id now) (Framed (Call.cancel id now).Guards) := by
  refine framed_transaction (fun _ _ _ _ h => h) (keeps_lockExisting fun r => ?_)
  exact says_ofRule_bind (fun _ _ => sends_nil) fun r' _ => plain_save_bind r' _

theorem framed_release (id : Uuid) (now : Instant) :
    Says u (Reservations.release id now) (Framed (Call.release id now).Guards) := by
  refine framed_transaction (fun _ _ _ _ h => h) (keeps_lockReservation ?_ fun r => ?_)
  · exact says_pure rfl
  · dsimp only
    split
    · exact plain_save_bind _ _
    · exact says_pure sends_nil

end Reservations

end Calls

/-- Every write of a call stands behind the beginning of its transaction, and has the guard of the
call around it. -/
theorem writes_guarded (u : Session) (c : Call) :
    ∃ said, (c.step.runFrom u).2 = u.said said ∧
      ∀ before x after, said = before ++ x :: after → x.statement.isWrite = true →
        ∃ b opening, before = ⟨.begin, .rows b⟩ :: opening ∧
          (∀ y ∈ opening, y.statement.isControl = false) ∧ c.Guards opening x after := by
  have hframed : Says u c.step (Framed c.Guards) := by
    cases c with
    | apply m => exact Stock.framed_apply m
    | allocate r => exact Stock.framed_allocate r
    | correctExpiry item warehouse code expiry => exact Stock.framed_correctExpiry _ _ _ _
    | rebuildSnapshot d => exact Stock.framed_rebuildSnapshot d
    | create fresh n now => exact Reservations.framed_create _ _ _
    | consume id now => exact Reservations.framed_consume _ _
    | cancel id now => exact Reservations.framed_cancel _ _
    | release id now => exact Reservations.framed_release _ _
  obtain ⟨said, hsaid, h⟩ := hframed.here
  refine ⟨said, hsaid, fun before x after hsplit hwrite => h before x after hsplit ?_⟩
  generalize x.statement = q at hwrite
  cases q <;> first | rfl | cases hwrite

end Sql

end Stockroom
