/-
Stockroom.Proofs.Sql.Order — no part of a transaction goes on behind a reply that it fails on.

* `Orderly p` is the talk of such a part: it leaves the beginning and the end of the transaction
  alone, whatever reply it fails on is the last one, and an answer satisfies `p`. It is built along
  the exchanges, so that facts about all of them are inductions.
* `Says.orderly_bind` follows a sequence. The theorems below it cover the parts of the stores one
  by one; only the rows of a reservation need a well typed server, as some of their columns are
  read after the lines were asked for.
-/
import Stockroom.Proofs.Sql.Replies

namespace Stockroom

namespace Sql

open StoreM

/-! ## Orderly talks -/

/-- What a part of a transaction may say and answer. -/
inductive Orderly {α : Type} (p : α → Prop) : Talk α where
  | answer {a : α} (holds : p a) : Orderly p [] (.ok a)
  | refuse {e : StoreError} : Orderly p [] (.error e)
  | fail {x : Exchange} {e : StoreError} (plain : x.statement.isControl = false) :
      Orderly p [x] (.error e)
  | cons {x : Exchange} {xs : List Exchange} {out : Except StoreError α}
      (plain : x.statement.isControl = false) (fine : ¬ x.Fails) (rest : Orderly p xs out) :
      Orderly p (x :: xs) out

/-- An orderly talk, whatever the answer. -/
abbrev Tidy {α : Type} : Talk α := Orderly fun _ => True

namespace Orderly

variable {α β : Type} {p : α → Prop} {q : β → Prop} {xs ys : List Exchange}
  {out : Except StoreError α}

theorem plain (h : Orderly p xs out) : ∀ x ∈ xs, x.statement.isControl = false := by
  induction h with
  | answer | refuse => simp
  | fail plain => simpa using plain
  | cons plain _ _ ih => simpa using ⟨plain, ih⟩

theorem holds {a : α} (h : Orderly p xs (.ok a)) : p a := by
  generalize hout : (Except.ok a : Except StoreError α) = out at h
  induction h with
  | answer holds =>
    cases hout
    exact holds
  | refuse | fail => cases hout
  | cons _ _ _ ih => exact ih hout

/-- Nothing is said behind a reply that was failed on, and the answer is a failure. -/
theorem stops (h : Orderly p xs out) {before after : List Exchange} {x : Exchange}
    (hxs : xs = before ++ x :: after) (hx : x.Fails) : after = [] ∧ ∃ e, out = .error e := by
  induction h generalizing before with
  | answer | refuse => simp at hxs
  | @fail y e plain =>
    obtain ⟨-, rfl⟩ | ⟨before', -, hnil⟩ := List.cons_eq_append_iff.mp hxs |>.imp
      (fun h => (⟨h.1, (List.cons.inj h.2).2⟩ : before = [] ∧ after = [])) id
    · exact ⟨rfl, e, rfl⟩
    · simp at hnil
  | cons plain fine _ ih =>
    obtain ⟨-, heq⟩ | ⟨before', -, hrest⟩ := List.cons_eq_append_iff.mp hxs
    · cases heq
      exact absurd hx fine
    · exact ih hrest

theorem imp {p' : α → Prop} (h : Orderly p xs out) (hp : ∀ a, p a → p' a) : Orderly p' xs out := by
  induction h with
  | answer holds => exact .answer (hp _ holds)
  | refuse => exact .refuse
  | fail plain => exact .fail plain
  | cons plain fine _ ih => exact .cons plain fine ih

/-- A failure is one for whatever was to be answered. -/
theorem of_error {e : StoreError} (h : Orderly q xs (.error e)) : Orderly p xs (.error e) := by
  generalize hout : (Except.error e : Except StoreError β) = out at h
  induction h with
  | answer => cases hout
  | refuse => exact .refuse
  | fail plain => exact .fail plain
  | cons plain fine _ ih => exact .cons plain fine (ih hout)

/-- Behind an answer the talk goes on. -/
theorem append {b : β} (h : Orderly q xs (.ok b)) (hys : Orderly p ys out) :
    Orderly p (xs ++ ys) out := by
  generalize hout : (Except.ok b : Except StoreError β) = out' at h
  induction h with
  | answer => exact hys
  | refuse | fail => cases hout
  | cons plain fine _ ih => exact .cons plain fine (ih hout)

end Orderly

section Rules

variable {α β : Type} {u : Session} {x : SqlM α} {f : α → SqlM β} {p : α → Prop} {q : β → Prop}
  {s : Statement} {read : Reply → Except StoreError α}

theorem orderly_pure {a : α} (h : p a) : Says u (pure a) (Orderly p) := says_pure (.answer h)

theorem orderly_throw {e : StoreError} : Says u (throw e : SqlM α) (Orderly p) :=
  says_throw .refuse

theorem Says.orderly_bind (hx : Says u x (Orderly p)) (hf : ∀ a, p a → Says u (f a) (Orderly q)) :
    Says u (x >>= f) (Orderly q) := by
  refine hx.bind (fun xs e h => h.of_error) fun xs a h => ?_
  exact (hf a h.holds).imp fun ys out hys => h.append hys

theorem orderly_ofResult (r : Except StoreError α) :
    Says u (StoreM.ofResult r) (Orderly fun a => r = .ok a) := by
  refine says_of_silent (fun _ => rfl) ?_
  cases r with
  | error e => exact .refuse
  | ok a => exact .answer rfl

theorem orderly_ofRule (r : Except DomainError α) :
    Says u (StoreM.ofRule r) (Orderly fun a => r = .ok a) := by
  refine says_of_silent (fun s => runFrom_ofRule r s) ?_
  cases r with
  | error e => exact .refuse
  | ok a => exact .answer rfl

/-- A question is orderly that makes no answer out of a reply that it fails on. -/
theorem Asks.orderly (hx : Asks x s read) (hs : s.isControl = false)
    (hread : ∀ r a, read r = .ok a → ∃ rs, r = .rows rs ∧ s.Reads rs) :
    Says u x (Orderly fun a => ∃ r, read r = .ok a) := by
  refine hx.talk fun past => ?_
  cases h : read (u.server past s) with
  | error e => exact .fail hs
  | ok a =>
    obtain ⟨rs, hrs, hreads⟩ := hread _ a h
    refine .cons hs ?_ (.answer ⟨_, h⟩)
    rw [hrs]
    exact not_not_intro hreads

theorem Asks.tidy (hx : Asks x s read) (hs : s.isControl = false)
    (hread : ∀ r a, read r = .ok a → ∃ rs, r = .rows rs ∧ s.Reads rs) : Says u x Tidy :=
  (hx.orderly hs hread).imp fun _ _ h => h.imp fun _ _ => trivial

/-- A statement of which nothing is read cannot fail but by an error. -/
theorem orderly_execute (operation : String) (s : Statement) (hs : s.isControl = false)
    (hreads : ∀ rs, s.Reads rs) : Says u (execute operation s) Tidy := by
  refine (asks_execute operation s).tidy hs fun r a h => ?_
  cases r with
  | rows rs => exact ⟨rs, rfl, hreads rs⟩
  | error e => cases h

end Rules

/-! ## Stock -/

namespace Stock

variable {u : Session}

theorem orderly_entryAt? (l : DocumentLine) : Says u (entryAt? l) Tidy :=
  (asks_entryAt? l).tidy rfl fun _ _ h => Reply.readable_of_first? h

theorem orderly_findBatch (identity : BatchIdentity) (lock : Bool) :
    Says u (findBatch identity lock) Tidy :=
  (asks_findBatch identity lock).tidy rfl fun _ _ h => Reply.readable_of_first? h

theorem orderly_candidates (item : ItemId) (warehouse : WarehouseId) (lock : Bool) :
    Says u (candidates item warehouse lock) Tidy :=
  (asks_candidates item warehouse lock).tidy rfl fun _ _ h => Reply.readable_of_all h

/-- What an earlier request has left is a repetition. -/
theorem orderly_priorAllocation (r : AllocationRequest) :
    Says u (priorAllocation r) (Orderly fun found => ∀ a ∈ found, a.replayed = true) := by
  refine ((asks_priorAllocation r).orderly rfl fun reply a h => ?_).imp
    fun xs out h => h.imp fun found hfound => ?_
  · obtain ⟨entries, hall, -⟩ := bind_eq_ok_iff.mp h
    exact Reply.readable_of_all hall
  · obtain ⟨reply, hread⟩ := hfound
    obtain ⟨entries, -, hread⟩ := bind_eq_ok_iff.mp hread
    obtain ⟨legs, -, hread⟩ := bind_eq_ok_iff.mp hread
    cases hread
    rintro a ha
    obtain ⟨l, -, rfl⟩ := Option.map_eq_some_iff.mp ha
    rfl

theorem orderly_quantityOf (k : StockKey) : Says u (quantityOf k) Tidy := by
  refine (asks_quantityOf k).tidy rfl fun r a h => ?_
  obtain ⟨n, hn, -⟩ := map_eq_ok_iff.mp h
  exact Reply.readable_of_first? hn

theorem orderly_lockSlot (k : StockKey) : Says u (lockSlot k) Tidy := by
  rw [lockSlot_eq]
  refine (orderly_execute _ (.insertSlot k) rfl fun _ => trivial).orderly_bind fun _ _ => ?_
  exact (asks_row_read _ _ _).tidy rfl fun _ _ h => Reply.readable_of_first h

theorem orderly_insertEntry (m : Movement) (after : Int) : Says u (insertEntry m after) Tidy := by
  refine (asks_insertEntry m after).tidy rfl fun r a h => ?_
  match r, h with
  | .error e, h =>
    simp only [readEntryNumber] at h
    split at h <;> cases h
  | .rows [], h => cases h
  | .rows (row :: rest), h => exact ⟨_, rfl, row, rfl, a, h⟩

theorem orderly_writeMovement (slot : Int) (m : Movement) (after : Int) :
    Says u (writeMovement slot m after) Tidy := by
  have hupdate := orderly_execute "update_slot" (u := u) (.updateQuantity slot after) rfl
    fun _ => trivial
  refine hupdate.orderly_bind fun _ _ => ?_
  exact (orderly_insertEntry m after).orderly_bind fun _ _ => orderly_pure trivial

theorem orderly_ensureBatch (identity : BatchIdentity) (production expiry : Option Date)
    (on : Date) : Says u (ensureBatch identity production expiry on) Tidy := by
  refine (orderly_findBatch _ _).orderly_bind fun found _ => ?_
  match found with
  | some b => exact orderly_pure trivial
  | none =>
    refine (orderly_ofRule _).orderly_bind fun dates _ => ?_
    -- the row is read behind the question, in one of the two ways to go on
    refine (asks_row? _ _).bind_talk (fun past e _ => .fail rfl) fun past row hrow => ?_
    obtain ⟨rs, hrs, ⟨hhead, rfl⟩ | ⟨r, r', hhead, hread, rfl⟩⟩ := Reply.first?_eq_ok hrow
    · rw [hrs]
      have hfine : ¬ (Exchange.mk (.insertBatch identity dates.1 dates.2) (.rows rs)).Fails :=
        not_not_intro fun row hr => by simp [hhead] at hr
      refine Says.imp (t := Tidy) ?_ fun ys out hys => .cons rfl hfine hys
      refine (orderly_findBatch _ _).orderly_bind fun found _ => ?_
      match found with
      | some b => exact orderly_pure trivial
      | none => exact orderly_throw
    · cases hread
      rw [hrs]
      refine says_of_silent (fun s => runFrom_ofResult r.batch s) ?_
      cases hb : r.batch with
      | error e => exact .fail rfl
      | ok b =>
        refine .cons rfl (not_not_intro fun row hr => ?_) (.answer trivial)
        obtain rfl : r = row := by simpa [hhead] using hr
        exact ⟨b, hb⟩

theorem orderly_ensureMovementBatch (m : Movement) : Says u (ensureMovementBatch m) Tidy := by
  unfold ensureMovementBatch
  cases m.key.batch.code? with
  | none => exact orderly_pure trivial
  | some code => exact (orderly_ensureBatch _ _ _ _).orderly_bind fun _ _ => orderly_pure trivial

/-- By induction on the legs. -/
theorem orderly_writeLegs (locked : List Candidate) (ms : List Movement) :
    Says u (writeLegs locked ms) Tidy := by
  induction ms with
  | nil => exact orderly_pure trivial
  | cons m rest ih =>
    rw [writeLegs]
    cases locked.find? (fun c => c.key == m.key) with
    | none => exact orderly_throw
    | some c =>
      refine (orderly_ofRule _).orderly_bind fun _ _ => ?_
      refine (orderly_ofRule _).orderly_bind fun after _ => ?_
      refine (orderly_writeMovement _ _ _).orderly_bind fun _ _ => ?_
      exact ih.orderly_bind fun _ _ => orderly_pure trivial

end Stock

/-! ## Reservations -/

namespace Reservations

variable {u : Session}

theorem orderly_linesOf (id : Uuid) : Says u (linesOf id) Tidy :=
  (asks_linesOf id).tidy rfl fun _ _ h => Reply.readable_of_all h

/-- A row of a reservation fails before its lines are asked for, or not at all. -/
theorem says_ofRow {row : Row} (hrow : row.HasColumns reservationHeadColumns) :
    Says u (ofRow row) (fun xs out =>
      (xs = [] ∧ ∃ e, out = .error e) ∨ (row.ReadsReservation ∧ Tidy xs out)) := by
  unfold ofRow
  refine says_ofResult_bind (fun e _ => .inl ⟨rfl, e, rfl⟩) fun ⟨id, status, trace⟩ hhead => ?_
  refine says_ofResult_bind (fun e _ => .inl ⟨rfl, e, rfl⟩) fun ⟨key, state⟩ hstate => ?_
  obtain ⟨_, hid, hhead⟩ := bind_eq_ok_iff.mp hhead
  obtain ⟨_, hstatus, hhead⟩ := bind_eq_ok_iff.mp hhead
  obtain ⟨_, htrace, hhead⟩ := bind_eq_ok_iff.mp hhead
  cases hhead
  obtain ⟨_, hkey, hstate⟩ := bind_eq_ok_iff.mp hstate
  obtain ⟨_, hstate, -⟩ := bind_eq_ok_iff.mp hstate
  have hreads : row.ReadsReservation :=
    { id := ⟨_, hid⟩
      key := ⟨_, hkey⟩
      status := ⟨_, bind_eq_ok_iff.mpr ⟨_, hstatus, hstate⟩⟩
      trace := ⟨_, htrace⟩
      created := hrow.instant (by simp [reservationHeadColumns])
      updated := hrow.instant (by simp [reservationHeadColumns])
      expires := hrow.instant (by simp [reservationHeadColumns]) }
  refine Says.imp (t := Tidy) ?_ fun xs out h => .inr ⟨hreads, h⟩
  refine (orderly_linesOf id).orderly_bind fun lines _ => ?_
  exact (orderly_ofResult _).imp fun xs out h => h.imp fun _ _ => trivial

/-- The rows of a reservation, asked for by its identifier or its business key. -/
theorem orderly_row?_ofRow? (hserver : u.server.WellTyped) (operation : String) {q : Statement}
    (hq : q.isControl = false) (hcolumns : q.columns = reservationHeadColumns)
    (hreads : ∀ rs, q.Reads rs ↔ ∀ row ∈ rs.head?, row.ReadsReservation) :
    Says u (row? operation q >>= ofRow?) Tidy := by
  refine (asks_row? operation q).bind_talk (fun past e _ => .fail hq) fun past found hfound => ?_
  obtain ⟨rs, hrs, ⟨hhead, rfl⟩ | ⟨row, row', hhead, hread, rfl⟩⟩ := Reply.first?_eq_ok hfound
  · refine says_pure (.cons hq ?_ (.answer trivial))
    rw [hrs]
    exact not_not_intro ((hreads rs).mpr fun row hr => by simp [hhead] at hr)
  · cases hread
    have hrow := hserver past q rs hrs row (List.mem_of_head? hhead)
    rw [hcolumns] at hrow
    refine (says_ofRow hrow).bind ?_ fun xs r => ?_
    · rintro xs e (⟨rfl, -⟩ | ⟨hok, h⟩)
      · exact .fail hq
      · refine .cons hq ?_ h.of_error
        rw [hrs]
        exact not_not_intro ((hreads rs).mpr (by simpa [hhead] using hok))
    · rintro (⟨-, e, h⟩ | ⟨hok, h⟩)
      · cases h
      · refine says_pure (.cons hq ?_ (h.append (.answer trivial)))
        rw [hrs]
        exact not_not_intro ((hreads rs).mpr (by simpa [hhead] using hok))

theorem orderly_load (hserver : u.server.WellTyped) (id : Uuid) (lock : Bool) :
    Says u (load id lock) Tidy :=
  orderly_row?_ofRow? hserver _ rfl rfl fun _ => .rfl

theorem orderly_loadByKey (hserver : u.server.WellTyped) (key : ReservationKey) (lock : Bool) :
    Says u (loadByKey key lock) Tidy :=
  orderly_row?_ofRow? hserver _ rfl rfl fun _ => .rfl

theorem orderly_lockKey (key : ReservationKey) : Says u (lockKey key) Tidy :=
  orderly_execute _ _ rfl fun _ => trivial

theorem orderly_lockReservation (hserver : u.server.WellTyped) (id : Uuid) :
    Says u (lockReservation id) Tidy := by
  refine (asks_row? _ _).bind_talk (fun past e _ => .fail rfl) fun past found hfound => ?_
  obtain ⟨rs, hrs, ⟨hhead, rfl⟩ | ⟨row, row', hhead, hread, rfl⟩⟩ := Reply.first?_eq_ok hfound
  · refine says_pure (.cons rfl ?_ (.answer trivial))
    rw [hrs]
    exact not_not_intro fun row hr => by simp [hhead] at hr
  · cases hread
    refine says_ofResult_bind (fun e _ => .fail rfl) fun key hkey => ?_
    have hfine : ¬ (Exchange.mk (.selectReservationKey id) (.rows rs)).Fails :=
      not_not_intro fun row' hr => by
        obtain rfl : row = row' := by simpa [hhead] using hr
        exact ⟨key, hkey⟩
    rw [hrs]
    refine Says.imp (t := Tidy) ?_ fun ys out hys => .cons rfl hfine hys
    exact (orderly_lockKey key).orderly_bind fun _ _ => orderly_load hserver id true

/-- By induction on the lines. -/
theorem orderly_saveLines (id : Uuid) (ls : List ReservationLine) :
    Says u (saveLines id ls) Tidy := by
  induction ls with
  | nil => exact orderly_pure trivial
  | cons l rest ih =>
    exact (orderly_execute _ (.upsertLine id l) rfl fun _ => trivial).orderly_bind fun _ _ => ih

theorem orderly_save (r : Reservation) : Says u (save r) Tidy :=
  (orderly_execute _ (.upsertReservation r) rfl fun _ => trivial).orderly_bind fun _ _ =>
    orderly_saveLines _ _

end Reservations

end Sql

end Stockroom
