/-
Stockroom.Proofs.Sql.Discipline — every call that may write keeps to one transaction.

* `Call.ReportsEffect` tells the answers that report something new, `Call.FindsNothing` the calls
  that have nothing to write.
* `Settled c` is the talk of the body of the transaction of `c`: it is orderly, it is kept if
  something new is reported, and left if there is nothing to write.
* `Disciplined c` is what follows for the whole of the call, whichever way the transaction ends;
  `transaction_discipline` says that every call keeps to it, whatever a well typed server replies.
-/
import Stockroom.Proofs.Sql.Locks
import Stockroom.Proofs.Stock.History

namespace Stockroom

namespace Sql

open StoreM

/-! ## Answers -/

namespace Call

/-- Whether the answer reports that something was written now. -/
def ReportsEffect (c : Call) : c.Answer → Prop :=
  match c with
  | apply _ => fun o : Outcome => o.applied = true
  | allocate _ => fun a : AllocationResult => a.replayed = false
  | consume _ _ => fun a : Reservation × ConsumeOutcome => a.2 = .consumed
  | release _ _ => fun o : ReleaseOutcome => o.isExpired = true
  | correctExpiry _ _ _ _ | rebuildSnapshot _ | create _ _ _ | cancel _ _ => fun _ => True

/-- Whether there is nothing to write: the call repeats an earlier one, changes by zero, or names
a reservation that the server does not know. -/
def FindsNothing (c : Call) (said : List Exchange) : Except StoreError c.Answer → Prop :=
  match c with
  | apply m => fun out : Except StoreError Outcome =>
    m.delta = 0 ∨ ∃ o, out = .ok o ∧ o.applied = false
  | allocate _ => fun out : Except StoreError AllocationResult =>
    ∃ a, out = .ok a ∧ a.replayed = true
  | consume id _ | cancel id _ | release id _ => fun _ => Reservations.Unknown id said
  | correctExpiry _ _ _ _ | rebuildSnapshot _ | create _ _ _ => fun _ => False

/-- What counts for that is said by the body of the transaction, not by its ends. -/
theorem FindsNothing.of_ends {c : Call} {first : Exchange} {xs ending : List Exchange}
    {out : Except StoreError c.Answer} {a : c.Answer} (hfirst : first.statement.isControl = true)
    (hending : ∀ x ∈ ending, x.statement.isControl = true) (hout : ∀ a', out = .ok a' → a' = a)
    (h : c.FindsNothing (first :: (xs ++ ending)) out) : c.FindsNothing xs (.ok a) := by
  have hunknown (id : Uuid) (h : Reservations.Unknown id (first :: (xs ++ ending))) :
      Reservations.Unknown id xs := by
    rw [← List.singleton_append, Reservations.unknown_append, Reservations.unknown_append] at h
    obtain h | h | h := h
    · exact absurd h (Reservations.not_unknown_of_forall (by simpa using .inl hfirst))
    · exact h
    · exact absurd h (Reservations.not_unknown_of_forall fun x hx => .inl (hending x hx))
  cases c with
  | apply m =>
    obtain h | ⟨o, ho, h⟩ := h
    · exact .inl h
    · exact .inr ⟨a, rfl, hout o ho ▸ h⟩
  | allocate r =>
    obtain ⟨b, hb, h⟩ := h
    exact ⟨a, rfl, hout b hb ▸ h⟩
  | consume id _ | cancel id _ | release id _ => exact hunknown id h
  | correctExpiry | rebuildSnapshot | create => exact h

/-- Whether the body of the transaction may end like this, as far as the answer tells. -/
def MayEnd (c : Call) : Ending c.Answer → Prop
  | .leave a => ¬ c.ReportsEffect a
  | .keep a => ¬ c.FindsNothing [] (.ok a)

end Call

/-! ## Bodies of transactions -/

/-- What the body of the transaction of a call says, and how it ends. -/
structure Settled (c : Call) (xs : List Exchange) (out : Except StoreError (Ending c.Answer)) :
    Prop where
  orderly : Tidy xs out
  left : ∀ a, out = .ok (.leave a) → ¬ c.ReportsEffect a
  kept : ∀ a, out = .ok (.keep a) → ¬ c.FindsNothing xs (.ok a)

/-- The answer tells all, unless something was looked up. -/
theorem Settled.of_mayEnd {c : Call} {xs : List Exchange}
    {out : Except StoreError (Ending c.Answer)} (h : Orderly c.MayEnd xs out)
    (hsaid : ∀ a, out = .ok (.keep a) → c.FindsNothing xs (.ok a) → c.FindsNothing [] (.ok a)) :
    Settled c xs out where
  orderly := h.imp fun _ _ => trivial
  left := by
    rintro a rfl
    exact h.holds
  kept := by
    rintro a rfl hnothing
    exact h.holds (hsaid a rfl hnothing)

section Bodies

variable {u : Session}

namespace Stock

theorem orderly_applyLocked {m : Movement} (hm : m.delta ≠ 0) :
    Says u (applyLocked m) (Orderly (Call.apply m).MayEnd) := by
  unfold applyLocked
  refine (orderly_lockSlot _).orderly_bind fun ⟨slot, before⟩ _ => ?_
  refine (orderly_entryAt? _).orderly_bind fun found _ => ?_
  match found with
  | some e => exact orderly_pure fun h => nomatch h
  | none =>
    refine (orderly_ofRule _).orderly_bind fun after _ => ?_
    refine (orderly_ensureMovementBatch _).orderly_bind fun _ _ => ?_
    refine (orderly_writeMovement _ _ _).orderly_bind fun e _ => orderly_pure ?_
    rintro (h | ⟨o, ho, h⟩)
    · exact hm h
    · cases ho
      cases h

theorem says_apply (m : Movement) :
    Says u (Stock.apply m) (fun said out => (said = [] ∧ ∃ e, out = .error e) ∨
      Conversation u (Settled (.apply m)) said out) := by
  refine says_ofRule_bind (fun e _ => .inl ⟨rfl, _, rfl⟩) fun _ _ => ?_
  refine (says_transaction ?_).imp fun said out h => .inr h
  refine Says.imp (t := Orderly (Call.apply m).MayEnd) ?_
    fun xs out h => .of_mayEnd h fun _ _ hnothing => hnothing
  refine (orderly_entryAt? _).orderly_bind fun found _ => ?_
  match found with
  | some e => exact orderly_pure fun h => nomatch h
  | none =>
    by_cases hm : m.delta = 0
    · simp only [hm, if_true]
      exact (orderly_quantityOf _).orderly_bind fun q _ => orderly_pure fun h => nomatch h
    · simp only [hm, if_false]
      exact orderly_applyLocked hm

theorem orderly_allocateLocked (r : AllocationRequest) :
    Says u (allocateLocked r) (Orderly (Call.allocate r).MayEnd) := by
  refine (orderly_candidates _ _ _).orderly_bind fun locked _ => ?_
  refine (orderly_priorAllocation r).orderly_bind fun found hfound => ?_
  match found with
  | some a => exact orderly_pure fun h => Bool.false_ne_true (h.symm.trans (hfound a rfl))
  | none =>
    refine (orderly_ofRule _).orderly_bind fun plan _ => ?_
    refine (orderly_writeLegs _ _).orderly_bind fun entries _ => orderly_pure ?_
    rintro ⟨a, ha, h⟩
    cases ha
    cases h

theorem says_allocate (r : AllocationRequest) :
    Says u (Stock.allocate r) (Conversation u (Settled (.allocate r))) := by
  refine says_transaction ?_
  refine Says.imp (t := Orderly (Call.allocate r).MayEnd) ?_
    fun xs out h => .of_mayEnd h fun _ _ hnothing => hnothing
  refine (orderly_priorAllocation r).orderly_bind fun found hfound => ?_
  match found with
  | some a => exact orderly_pure fun h => Bool.false_ne_true (h.symm.trans (hfound a rfl))
  | none => exact orderly_allocateLocked r

theorem says_correctExpiry (item : ItemId) (warehouse : WarehouseId) (code : String)
    (expiry : Option Date) :
    Says u (Stock.correctExpiry item warehouse code expiry) (fun said out =>
      (said = [] ∧ ∃ e, out = .error e) ∨
        Conversation u (Settled (.correctExpiry item warehouse code expiry)) said out) := by
  refine says_ofRule_bind (fun e _ => .inl ⟨rfl, _, rfl⟩) fun key _ => ?_
  refine (says_transaction ?_).imp fun said out h => .inr h
  refine Says.imp (t := Orderly (Call.correctExpiry item warehouse code expiry).MayEnd) ?_
    fun xs out h => .of_mayEnd h fun _ _ hnothing => hnothing
  refine (orderly_findBatch _ _).orderly_bind fun found _ => ?_
  match found with
  | none => exact orderly_throw
  | some batch =>
    refine (orderly_ofRule _).orderly_bind fun _ _ => ?_
    refine (orderly_execute _ (.updateExpiry batch.id expiry) rfl fun _ => trivial).orderly_bind
      fun _ _ => ?_
    exact orderly_pure fun h => h

/-- The size of a stored snapshot, out of the row that sums it up. -/
def readSummary (d : Date) (row : Row) : Except StoreError SnapshotSummary := do
  pure ⟨some d, ← row.count "slot_count", ← row.integer "total_qty"⟩

/-- The row that sums up a snapshot is read behind the commit, but then it can be read. -/
theorem orderly_rebuildSnapshot (hserver : u.server.WellTyped) (d : Date) :
    Says u (do
      execute "snapshot_lock" (.advisoryLock (snapshotLock d))
      execute "snapshot_delete" (.deleteSnapshot d)
      execute "snapshot_insert" (.insertSnapshot d)
      let r ← row "snapshot_summary" (.selectSnapshotSummary d)
      pure (Ending.keep r))
      (Orderly fun o => ∃ row s, o = .keep row ∧ readSummary d row = .ok s) := by
  refine (orderly_execute _ (.advisoryLock _) rfl fun _ => trivial).orderly_bind fun _ _ => ?_
  refine (orderly_execute _ (.deleteSnapshot d) rfl fun _ => trivial).orderly_bind fun _ _ => ?_
  refine (orderly_execute _ (.insertSnapshot d) rfl fun _ => trivial).orderly_bind fun _ _ => ?_
  refine (asks_row _ _).bind_talk (fun past e _ => .fail rfl) fun past row hrow => ?_
  obtain ⟨rs, row', hrs, hhead, hread⟩ := Reply.first_eq_ok hrow
  cases hread
  have hcolumns := hserver past _ rs hrs row (List.mem_of_head? hhead)
  obtain ⟨n, hn⟩ : ∃ n, row.integer "slot_count" = .ok n :=
    hcolumns.integer (by simp [Statement.columns])
  obtain ⟨t, ht⟩ : ∃ t, row.integer "total_qty" = .ok t :=
    hcolumns.integer (by simp [Statement.columns])
  have hcount : ∃ k, row.count "slot_count" = .ok k := ⟨_, bind_eq_ok_iff.mpr ⟨n, hn, rfl⟩⟩
  obtain ⟨k, hk⟩ := hcount
  have hsummary : readSummary d row = .ok ⟨some d, k, t⟩ :=
    bind_eq_ok_iff.mpr ⟨k, hk, bind_eq_ok_iff.mpr ⟨t, ht, rfl⟩⟩
  rw [hrs]
  refine says_pure (.cons rfl (not_not_intro ⟨row, hhead, ⟨k, hk⟩, t, ht⟩) (.answer ?_))
  exact ⟨row, _, rfl, hsummary⟩

theorem says_rebuildSnapshot (hserver : u.server.WellTyped) (d : Date) :
    Says u (Stock.rebuildSnapshot d) (Conversation u (Settled (.rebuildSnapshot d))) := by
  have hanswer {said : List Exchange} {out : Except StoreError Row}
      (h : Conversation u (Orderly fun o => ∃ row s, o = .keep row ∧ readSummary d row = .ok s)
        said out) :
      Conversation u (Settled (.rebuildSnapshot d)) said (out >>= readSummary d) := by
    refine h.answer (fun xs e hxs => .of_mayEnd hxs.of_error fun _ _ => id) (fun xs r hxs => ?_)
      fun xs r hxs => ?_
    · obtain ⟨row, s, hrow, -⟩ := hxs.holds
      cases hrow
    · obtain ⟨row, s, hrow, hs⟩ := hxs.holds
      cases hrow
      have hkeep : Orderly (Call.rebuildSnapshot d).MayEnd (xs ++ []) (.ok (.keep s)) :=
        hxs.append (.answer id)
      rw [List.append_nil] at hkeep
      exact ⟨s, hs, .of_mayEnd hkeep fun _ _ => id⟩
  refine (says_transaction (orderly_rebuildSnapshot hserver d)).bind (fun said e h => hanswer h)
    fun said row h => ?_
  refine says_of_silent (fun s => runFrom_ofResult (readSummary d row) s) ?_
  rw [List.append_nil]
  exact hanswer h

end Stock

namespace Reservations

/-- What a call does once it has taken the locks of its reservation: it saves, and is done. -/
def Closing (c : Call) : Talk (Ending c.Answer) := fun xs out =>
  Orderly c.MayEnd xs out ∧ Sends Saving xs out

/-- Whoever has taken the locks of a reservation knows it. -/
theorem settled_of_lockReservation (hserver : u.server.WellTyped) {c : Call} {id : Uuid}
    {k : Option Reservation → SqlM (Ending c.Answer)}
    (hc : ∀ xs a, c.FindsNothing xs (.ok a) → Unknown id xs)
    (hnone : Says u (k none) (fun xs out => Orderly c.MayEnd xs out ∧ ∀ a, out ≠ .ok (.keep a)))
    (hsome : ∀ r, Says u (k (some r)) (Closing c)) :
    Says u (lockReservation id >>= k) (Settled c) := by
  refine ((orderly_lockReservation hserver id).and (says_lockReservation id)).bind
    (fun xs e h => .of_mayEnd h.1.of_error nofun) fun xs found ⟨horderly, _, hlocked⟩ => ?_
  match found with
  | none =>
    refine hnone.imp fun ys out h => .of_mayEnd (horderly.append h.1) fun a ha => ?_
    exact absurd ha (h.2 a)
  | some r =>
    refine (hsome r).imp fun ys out h => .of_mayEnd (horderly.append h.1) fun a _ hnothing => ?_
    obtain hxs | hys := unknown_append.mp (hc _ a hnothing)
    · exact absurd hxs (hlocked r rfl).known
    · exact absurd hys (not_unknown_of_forall fun x hx => .inr (h.2 x hx))

theorem settled_of_lockExisting (hserver : u.server.WellTyped) {c : Call} {id : Uuid}
    {k : Reservation → SqlM (Ending c.Answer)}
    (hc : ∀ xs a, c.FindsNothing xs (.ok a) → Unknown id xs)
    (hk : ∀ r, Says u (k r) (Closing c)) : Says u (lockExisting id >>= k) (Settled c) := by
  rw [lockExisting, bind_assoc]
  exact settled_of_lockReservation hserver hc (says_of_silent (fun _ => rfl) ⟨.refuse, nofun⟩) hk

theorem closing_keep {c : Call} {a : c.Answer} (hc : ¬ c.FindsNothing [] (.ok a)) :
    Says u (pure (.keep a)) (Closing c) := says_pure ⟨.answer hc, sends_nil⟩

theorem closing_save {c : Call} {a : c.Answer} (hc : ¬ c.FindsNothing [] (.ok a))
    (r : Reservation) : Says u (save r >>= fun _ => pure (.keep a)) (Closing c) := by
  refine ((orderly_save r).and (says_save r)).bind (fun xs e h => ⟨h.1.of_error, h.2⟩)
    fun xs _ h => says_pure ⟨h.1.append (.answer hc), ?_⟩
  rw [List.append_nil]
  exact h.2

/-- Nothing was looked up before anything was said. -/
theorem known_nil (id : Uuid) : ¬ Unknown id [] := fun ⟨_, hx, _⟩ => nomatch hx

theorem says_create (hserver : u.server.WellTyped) (fresh : Uuid) (n : NewReservation)
    (now : Instant) :
    Says u (Reservations.create fresh n now) (fun said out => (said = [] ∧ ∃ e, out = .error e) ∨
      Conversation u (Settled (.create fresh n now)) said out) := by
  refine says_ofRule_bind (fun e _ => .inl ⟨rfl, _, rfl⟩) fun _ _ => ?_
  refine (says_transaction ?_).imp fun said out h => .inr h
  refine Says.imp (t := Orderly (Call.create fresh n now).MayEnd) ?_
    fun xs out h => .of_mayEnd h fun _ _ => id
  refine (orderly_lockKey _).orderly_bind fun _ _ => ?_
  refine (orderly_loadByKey hserver _ _).orderly_bind fun found _ => ?_
  match found with
  | some r =>
    refine (orderly_ofRule _).orderly_bind fun r' _ => ?_
    exact (orderly_save r').orderly_bind fun _ _ => orderly_pure id
  | none =>
    refine (orderly_ofRule _).orderly_bind fun r' _ => ?_
    exact (orderly_save r').orderly_bind fun _ _ => orderly_pure id

theorem says_consume (hserver : u.server.WellTyped) (id : Uuid) (now : Instant) :
    Says u (Reservations.consume id now) (Conversation u (Settled (.consume id now))) := by
  refine says_transaction ?_
  refine settled_of_lockExisting (c := .consume id now) hserver (fun _ _ h => h) fun r => ?_
  refine says_ofRule_bind (fun e _ => ⟨.refuse, sends_nil⟩) fun ⟨r', outcome⟩ _ => ?_
  dsimp only
  split
  · exact closing_save (c := .consume id now) (known_nil id) r'
  · exact closing_keep (c := .consume id now) (known_nil id)

theorem says_cancel (hserver : u.server.WellTyped) (id : Uuid) (now : Instant) :
    Says u (Reservations.cancel id now) (Conversation u (Settled (.cancel id now))) := by
  refine says_transaction ?_
  refine settled_of_lockExisting (c := .cancel id now) hserver (fun _ _ h => h) fun r => ?_
  refine says_ofRule_bind (fun e _ => ⟨.refuse, sends_nil⟩) fun r' _ => ?_
  exact closing_save (c := .cancel id now) (known_nil id) r'

theorem says_release (hserver : u.server.WellTyped) (id : Uuid) (now : Instant) :
    Says u (Reservations.release id now) (Conversation u (Settled (.release id now))) := by
  refine says_transaction ?_
  refine settled_of_lockReservation (c := .release id now) hserver (fun _ _ h => h) ?_ fun r => ?_
  · exact says_pure ⟨.answer (fun h => nomatch h), nofun⟩
  · dsimp only
    split
    · exact closing_save (c := .release id now) (known_nil id) _
    · exact closing_keep (c := .release id now) (known_nil id)

end Reservations

end Bodies

/-! ## Whole calls -/

/-- What every call keeps to. -/
structure Disciplined (c : Call) (said : List Exchange) (out : Except StoreError c.Answer) :
    Prop where
  /-- Whatever is written is written inside the one transaction. -/
  inside : ∀ w ∈ said, w.statement.isWrite = true → ∃ rs body ending,
    said = ⟨.begin, .rows rs⟩ :: (body ++ ending) ∧ w ∈ body ∧
      (∀ x ∈ body, x.statement.isControl = false) ∧
      ∀ x ∈ ending, x.statement = .commit ∨ x.statement = .rollback
  once : said.countP (fun x => x.statement = .commit) ≤ 1
  last : ∀ before x after, said = before ++ x :: after → x.statement = .commit →
    ∀ y ∈ after, y.statement = .rollback
  /-- Behind a reply that the call fails on there is nothing but the rollback. -/
  stops : ∀ before x after, said = before ++ x :: after → x.Fails →
    (∀ y ∈ after, y.statement = .rollback) ∧ (x.statement = .rollback ∨ ∃ e, out = .error e)
  uncommitted : ∀ e, out = .error e → ∀ x ∈ said, x.statement = .commit → ∃ e', x.reply = .error e'
  committed : ∀ a, out = .ok a → c.ReportsEffect a →
    ∃ before rs, said = before ++ [⟨.commit, .rows rs⟩]
  nothing : c.FindsNothing said out → ∀ x ∈ said, x.statement ≠ .commit

section Calls

variable {u : Session} {c : Call} {said : List Exchange} {out : Except StoreError c.Answer}

/-- A call that says nothing. -/
theorem disciplined_nil {e : StoreError} : Disciplined c [] (.error e) where
  inside := by simp
  once := by simp
  last := by simp
  stops := by simp
  uncommitted := by simp
  committed := nofun
  nothing := by simp

theorem disciplined_unbegun {e : ServerError} {e' : StoreError} :
    Disciplined c [⟨.begin, .error e⟩] (.error e') where
  inside := by simp [Statement.isWrite]
  once := by simp
  last := by
    intro before x after h hx
    obtain ⟨rfl, h⟩ | ⟨_, -, h⟩ := List.cons_eq_append_iff.mp h
    · cases h
      cases hx
    · simp at h
  stops := by
    intro before x after h _
    obtain ⟨rfl, h⟩ | ⟨_, -, h⟩ := List.cons_eq_append_iff.mp h
    · cases h
      exact ⟨by simp, .inr ⟨e', rfl⟩⟩
    · simp at h
  uncommitted := by simp
  committed := nofun
  nothing := by simp

/-- Between the beginning and the end there is an orderly body. What is left to look at is how
the end depends on it. -/
theorem disciplined_begun {b : List Row} {xs ending : List Exchange}
    {o : Except StoreError (Ending c.Answer)} (hxs : Tidy xs o)
    (hends : ∀ x ∈ ending, x.statement = .commit ∨ x.statement = .rollback)
    (honce : ending.countP (fun x => x.statement = .commit) ≤ 1)
    (hlast : ending.Pairwise fun _ y => y.statement = .rollback)
    (hstop : ∀ e, o = .error e → (∀ y ∈ ending, y.statement = .rollback) ∧ ∃ e', out = .error e')
    (hfail : ∀ x ∈ ending, x.Fails → x.statement = .rollback ∨ ∃ e, out = .error e)
    (huncommitted : ∀ e, out = .error e → ∀ x ∈ ending, x.statement = .commit →
      ∃ e', x.reply = .error e')
    (hcommitted : ∀ a, out = .ok a → c.ReportsEffect a → ∃ rs, ending = [⟨.commit, .rows rs⟩])
    (hnothing : c.FindsNothing (⟨.begin, .rows b⟩ :: (xs ++ ending)) out →
      ∀ x ∈ ending, x.statement ≠ .commit) :
    Disciplined c (⟨.begin, .rows b⟩ :: (xs ++ ending)) out := by
  have hplain : ∀ x ∈ xs, x.statement ≠ .commit := by
    intro x hx h
    simpa [h, Statement.isControl] using hxs.plain x hx
  have hcommit {x : Exchange} (hx : x ∈ Exchange.mk .begin (.rows b) :: (xs ++ ending))
      (h : x.statement = .commit) : x ∈ ending := by
    simp only [List.mem_cons, List.mem_append] at hx
    obtain rfl | hx | hx := hx
    · cases h
    · exact absurd h (hplain x hx)
    · exact hx
  refine ⟨?inside, ?once, ?last, ?stops, ?uncommitted, ?committed, ?nothing⟩
  case inside =>
    intro w hw hwrite
    refine ⟨b, xs, ending, rfl, ?_, hxs.plain, hends⟩
    simp only [List.mem_cons, List.mem_append] at hw
    obtain rfl | hw | hw := hw
    · cases hwrite
    · exact hw
    · obtain h | h := hends w hw <;> simp [h, Statement.isWrite] at hwrite
  case once =>
    have hzero : xs.countP (fun x => x.statement = .commit) = 0 := by
      simpa [List.countP_eq_zero] using hplain
    simpa [List.countP_append, hzero] using honce
  case last =>
    intro before x after h hx y hy
    obtain ⟨rfl, hfirst⟩ | ⟨before, rfl, hsplit⟩ := List.cons_eq_append_iff.mp h
    · cases hfirst
      cases hx
    obtain ⟨rest, rfl, -⟩ | ⟨rest, rfl, rfl⟩ := append_eq_append_cons hsplit
    · exact absurd hx (hplain x (by simp))
    · rw [List.pairwise_append, List.pairwise_cons] at hlast
      exact hlast.2.1.1 y hy
  case stops =>
    intro before x after h hx
    obtain ⟨rfl, hfirst⟩ | ⟨before, rfl, hsplit⟩ := List.cons_eq_append_iff.mp h
    · cases hfirst
      exact absurd trivial hx
    obtain ⟨rest, hrest, rfl⟩ | ⟨rest, rfl, rfl⟩ := append_eq_append_cons hsplit
    · obtain ⟨rfl, e, rfl⟩ := hxs.stops hrest hx
      obtain ⟨hending, hout⟩ := hstop e rfl
      exact ⟨hending, .inr hout⟩
    · rw [List.pairwise_append, List.pairwise_cons] at hlast
      exact ⟨hlast.2.1.1, hfail x (by simp) hx⟩
  case uncommitted => exact fun e he x hx h => huncommitted e he x (hcommit hx h) h
  case committed =>
    intro a ha heffect
    obtain ⟨rs, rfl⟩ := hcommitted a ha heffect
    exact ⟨⟨.begin, .rows b⟩ :: xs, rs, rfl⟩
  case nothing => exact fun h x hx hcommitted => hnothing h x (hcommit hx hcommitted) hcommitted

theorem Conversation.disciplined (h : Conversation u (Settled c) said out) :
    Disciplined c said out := by
  cases h with
  | closed => exact disciplined_nil
  | unbegun => exact disciplined_unbegun
  | failed body =>
    refine disciplined_begun body.orderly ?_ ?_ ?_ ?_ ?_ ?_ ?_ ?_ <;> simp
  | left body =>
    refine disciplined_begun body.orderly ?_ ?_ ?_ ?_ ?_ ?_ ?_ ?_ <;>
      simp [body.left _ rfl]
  | kept body =>
    refine disciplined_begun body.orderly ?_ ?_ ?_ ?_ ?_ ?_ ?_ fun h => ?_ <;> try simp
    · exact not_not_intro trivial
    · refine absurd (h.of_ends rfl ?_ fun a' ha => ?_) (body.kept _ rfl)
      · simp [Statement.isControl]
      · exact (Except.ok.inj ha).symm
  | uncommitted body =>
    refine disciplined_begun body.orderly ?_ ?_ ?_ ?_ ?_ ?_ ?_ fun h => ?_ <;> try simp
    refine absurd (h.of_ends rfl ?_ fun a' ha => ?_) (body.kept _ rfl)
    · simp [Statement.isControl]
    · cases ha

end Calls

/-- Every call that may write keeps to one transaction, whatever a well typed server replies. -/
theorem transaction_discipline (u : Session) (hserver : u.server.WellTyped) (c : Call) :
    ∃ said, (c.step.runFrom u).2 = u.said said ∧ Disciplined c said (c.step.runFrom u).1 := by
  have hcases {said : List Exchange} {out : Except StoreError c.Answer}
      (h : (said = [] ∧ ∃ e, out = .error e) ∨ Conversation u (Settled c) said out) :
      Disciplined c said out := by
    obtain ⟨rfl, e, rfl⟩ | h := h
    · exact disciplined_nil
    · exact h.disciplined
  have hsays : Says u c.step (fun said out =>
      (said = [] ∧ ∃ e, out = .error e) ∨ Conversation u (Settled c) said out) := by
    cases c with
    | apply m => exact Stock.says_apply m
    | allocate r => exact (Stock.says_allocate r).imp fun _ _ => .inr
    | correctExpiry item warehouse code expiry => exact Stock.says_correctExpiry _ _ _ _
    | rebuildSnapshot d => exact (Stock.says_rebuildSnapshot hserver d).imp fun _ _ => .inr
    | create fresh n now => exact Reservations.says_create hserver fresh n now
    | consume id now => exact (Reservations.says_consume hserver id now).imp fun _ _ => .inr
    | cancel id now => exact (Reservations.says_cancel hserver id now).imp fun _ _ => .inr
    | release id now => exact (Reservations.says_release hserver id now).imp fun _ _ => .inr
  obtain ⟨said, hsaid, h⟩ := hsays.here
  exact ⟨said, hsaid, hcases h⟩

namespace Example

/-- Goods without a batch come in. -/
def receipt : Movement :=
  { Stockroom.Sample.pick with
    key := ⟨⟨1⟩, ⟨10⟩, .noBatch⟩, line := 1, delta := 5, reason := .receipt }

/-- The slot is found empty, and another writer takes the document line in the last moment. -/
def taken : Server := fun _ q =>
  match q with
  | .lockSlot _ => .rows [[("id", .integer 7), ("qty", .integer 0)]]
  | .insertEntry _ _ => .error ⟨"23505", "duplicate key"⟩
  | _ => .rows []

theorem wellTyped_taken : taken.WellTyped := by
  intro past q rs hrs row hrow
  cases q <;> cases hrs <;> simp at hrow
  subst hrow
  intro c hc
  have hc : c = ⟨"id", .integer, false⟩ ∨ c = ⟨"qty", .integer, false⟩ := by
    simpa [Statement.columns] using hc
  obtain rfl | rfl := hc
  · exact ⟨.integer 7, rfl, rfl⟩
  · exact ⟨.integer 0, rfl, rfl⟩

end Example

open Example in
/-- The slot was set already, but the movement is not committed. -/
theorem transaction_discipline_taken :
    taken.WellTyped ∧
    ∃ said, ((Call.apply receipt).step.runFrom (.start taken)).2 = (Session.start taken).said said ∧
      Disciplined (.apply receipt) said ((Call.apply receipt).step.runFrom (.start taken)).1 ∧
      Exchange.mk (.updateQuantity 7 5) (.rows []) ∈ said ∧
      ((Call.apply receipt).step.runFrom (.start taken)).1 =
        .error (.concurrency "ledger entry (PO-1, 1) written concurrently") := by
  obtain ⟨said, hsaid, h⟩ := transaction_discipline (.start taken) wellTyped_taken (.apply receipt)
  have hhistory : said =
      (((Call.apply receipt).step.runFrom (.start taken)).2).history := by
    rw [hsaid]
    rfl
  refine ⟨wellTyped_taken, said, hsaid, h, ?_, by rfl⟩
  rw [hhistory]
  decide +kernel

end Sql

end Stockroom
