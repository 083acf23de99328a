/-
Stockroom.Proofs.Stock.Account — movements of different keys do not interfere.

* A `KeyAccount` is what a state holds of one key, less what is counted or stamped across all keys:
  the numbers of entries and batches, and when a batch was created. `KeyAccount.apply` writes a
  movement of that key down from nothing but its account.
* `account_apply_own` says that a store of stock does just that with the account of the movement's
  key, and `account_apply_other` that it leaves all other accounts alone. The one thing in the way
  is a document line that two keys share: a repetition is found by its line alone.
* `story_eq` follows over a run: answers and account of a key are what its own movements lead to.
  Runs that have these in common tell the same story of the key (`keys_do_not_interfere`).
-/
import Stockroom.Proofs.Stock.Independence
import Stockroom.Proofs.Stock.Lines

namespace Stockroom

open StoreM MemoryStock

/-! ## Accounts -/

/-- The answer without the number of its entry. -/
def Outcome.unnumbered (o : Outcome) : Outcome :=
  { o with ledgerId := o.ledgerId.map fun _ => 0 }

/-- The batch without its number, and as if created at the beginning of 1970. -/
def Batch.unnumbered (b : Batch) : Batch := { b with id := 0, createdAt := .epoch }

/-- What there is of one key. -/
structure KeyAccount where
  quantity : Int
  /-- Its entries, the oldest first. -/
  entries : List LedgerEntry
  /-- The batch that the key names. -/
  batch : Option Batch
  deriving DecidableEq

namespace KeyAccount

/-- Creates the batch of a movement's key, if it names one and there is none. -/
def ensureBatch (m : Movement) : StoreM KeyAccount Unit := do
  let a ← get
  match m.key.batch.code?, a.batch with
  | some code, none =>
    let (production, expiry) ←
      StoreM.ofRule (inboundDates m.production m.expiry m.occurredAt.date)
    set { a with batch := some ⟨0, m.key.item, m.key.warehouse, code, production, expiry, .epoch⟩ }
  | _, _ => pure ()

/-- Writes a movement down in the account of its key. -/
def apply (m : Movement) : StoreM KeyAccount Outcome := do
  StoreM.ofRule m.check
  let a ← get
  match a.entries.find? (fun e => e.documentLine == m.documentLine) with
  | some e => pure (.ofReplayed e)
  | none =>
    if m.delta = 0 then pure (.unchanged m.key a.quantity)
    else
      let after ← StoreM.ofRule (quantityAfter a.quantity m)
      ensureBatch m
      let e := m.toEntry 0 after
      modify fun a => { a with quantity := after, entries := a.entries ++ [e] }
      pure (.ofApplied e)

end KeyAccount

namespace StockState

/-- The batch that a key names. -/
def batchOf? (s : StockState) (k : StockKey) : Option Batch :=
  k.batch.code?.bind fun code => s.batches.get? ⟨k.item, k.warehouse, code⟩

/-- What the state holds of a key, without numbers and times of creation. -/
def account (s : StockState) (k : StockKey) : KeyAccount where
  quantity := s.quantity k
  entries := (s.ledger.filter (fun e => e.key == k)).map LedgerEntry.unnumbered
  batch := (s.batchOf? k).map Batch.unnumbered

variable {s : StockState} {k : StockKey} {m : Movement} {b : Batch}

theorem account_empty (clock : Instant) (k : StockKey) :
    (empty clock).account k = ⟨0, [], none⟩ := by
  have hbatch : (empty clock).batchOf? k = none := by
    rw [batchOf?]
    cases k.batch.code? <;> rfl
  rw [account, hbatch]
  rfl

/-! ## Other keys -/

/-- The identity of a batch tells the keys that name it. -/
theorem eq_of_names {j k : StockKey} {code : String} (hj : j.batch.code? = some code)
    (hk : k.batch.code? = some code) (hitem : j.item = k.item)
    (hwarehouse : j.warehouse = k.warehouse) : j = k := by
  have hname {b : BatchKey} (h : b.code? = some code) : b.key = code := by
    unfold BatchKey.code? at h
    split at h
    · cases h
    · exact Option.some.inj h
  exact StockKey.ext hwarehouse hitem (BatchKey.ext ((hname hj).trans (hname hk).symm))

/-- A batch that one key names is not the batch of another. -/
theorem batchOf?_putBatch_other (hcode : m.key.batch.code? = some b.code)
    (hidentity : b.identity = ⟨m.key.item, m.key.warehouse, b.code⟩) (h : m.key ≠ k) :
    (s.putBatch b).batchOf? k = s.batchOf? k := by
  unfold batchOf?
  cases hk : k.batch.code? with
  | none => rfl
  | some code =>
    have hne : b.identity ≠ ⟨k.item, k.warehouse, code⟩ := by
      rw [hidentity]
      intro heq
      injection heq with hitem hwarehouse hsame
      exact h (eq_of_names hcode (hsame ▸ hk) hitem hwarehouse)
    show (s.batches.insert b.identity b).get? _ = _
    rw [OrderedMap.get?_insert, if_neg hne]
    rfl

theorem account_enter_other (after : Int) (h : m.key ≠ k) :
    (s.enter m after).account k = s.account k := by
  have hkey : ((s.entryFor m after).key == k) = false := beq_eq_false_iff_ne.mpr h
  simp only [account, batchOf?, quantity_enter, if_neg h, ledger_enter, batches_enter,
    List.filter_append, List.filter_cons, hkey, List.filter_nil, List.append_nil,
    Bool.false_eq_true, if_false]

theorem account_readied_other {t : StockState} (ht : Readied s m.key t) (h : m.key ≠ k) :
    t.account k = s.account k := by
  rcases ht with rfl | ⟨b, -, hcode, hidentity, rfl⟩
  · rfl
  · simp only [account, batchOf?_putBatch_other hcode hidentity h]
    rfl

/-- A movement leaves the accounts of other keys alone, however it ends. -/
theorem account_apply_other (s : StockState) (h : m.key ≠ k) :
    ((store.apply m).runFrom s).2.account k = s.account k := by
  rw [runFrom_apply]
  have hwriting := writing m s
  generalize (write m).runFrom s = out at hwriting
  cases hwriting with
  | refused e => rfl
  | replayed _ _ => rfl
  | unchanged _ _ => rfl
  | entered ht _ =>
    show (StockState.enter _ m _).account k = _
    rw [account_enter_other _ h, account_readied_other ht h]

/-! ## The key of a movement -/

/-- An account finds the entry of a line where the ledger does, unless the line is another key's. -/
theorem find?_account (hs : Indexed s)
    (hline : ∀ e ∈ s.ledger, e.documentLine = m.documentLine → e.key = m.key) :
    (s.account m.key).entries.find? (fun e => e.documentLine == m.documentLine) =
      (s.entryAt? m.documentLine).map LedgerEntry.unnumbered := by
  have hone : ((s.ledger.filter (fun e => e.key == m.key)).map (·.documentLine)).Nodup :=
    List.pairwise_map.mpr (hs.pairwise_ne.sublist List.filter_sublist)
  have hfind : (s.ledger.filter (fun e => e.key == m.key)).find?
      (fun e => e.documentLine == m.documentLine) = s.entryAt? m.documentLine := by
    refine Option.ext fun e => ?_
    rw [find?_key_eq_some_iff hone, hs.entryAt?_eq_some_iff, List.mem_filter, beq_iff_eq]
    constructor
    · rintro ⟨⟨hmem, -⟩, hl⟩
      exact ⟨hmem, hl⟩
    · rintro ⟨hmem, hl⟩
      exact ⟨⟨hmem, hline e hmem hl⟩, hl⟩
  rw [← hfind]
  exact List.find?_map

theorem account_putBatch_own (hcode : m.key.batch.code? = some b.code)
    (hidentity : b.identity = ⟨m.key.item, m.key.warehouse, b.code⟩) :
    (s.putBatch b).account m.key = { s.account m.key with batch := some b.unnumbered } := by
  have hbatch : (s.putBatch b).batchOf? m.key = some b := by
    rw [batchOf?, hcode, Option.bind_some, ← hidentity]
    exact (OrderedMap.get?_insert ..).trans (if_pos rfl)
  rw [account, hbatch]
  rfl

/-- An account gets its batch as the stock does. -/
theorem account_ensureBatch (m : Movement) (s : StockState) :
    (KeyAccount.ensureBatch m).runFrom (s.account m.key) =
      (((ensureMovementBatch m).runFrom s).1,
        ((ensureMovementBatch m).runFrom s).2.account m.key) := by
  unfold KeyAccount.ensureBatch ensureMovementBatch
  rw [runFrom_get_bind]
  cases hcode : m.key.batch.code? with
  | none => rfl
  | some code =>
    have hbatch : (s.account m.key).batch =
        (s.batches.get? ⟨m.key.item, m.key.warehouse, code⟩).map Batch.unnumbered := by
      rw [account, batchOf?, hcode]
      rfl
    rw [hbatch, runFrom_bind]
    cases hget : s.batches.get? ⟨m.key.item, m.key.warehouse, code⟩ with
    | some b =>
      rw [ensureBatch_known hget]
      rfl
    | none =>
      simp only [MemoryStock.ensureBatch, runFrom_bind, runFrom_get, hget]
      cases inboundDates m.production m.expiry m.occurredAt.date with
      | error e => rfl
      | ok dates =>
        let b : Batch := ⟨s.batches.size + 1, m.key.item, m.key.warehouse, code, dates.1, dates.2,
          s.clock⟩
        have hnew : (s.putBatch b).account m.key = { s.account m.key with
          batch := some b.unnumbered } := account_putBatch_own hcode rfl
        exact congrArg (Prod.mk _) hnew.symm

theorem account_enter_own (s : StockState) (id after : Int) (m : Movement) :
    ((s.setQuantity m.key after).append (m.toEntry id after)).account m.key =
      { s.account m.key with
        quantity := after, entries := (s.account m.key).entries ++ [m.toEntry 0 after] } := by
  have hquantity : ((s.setQuantity m.key after).append (m.toEntry id after)).quantity m.key =
      after := by
    show (((s.setQuantity m.key after).slots.get? m.key).map (·.quantity)).getD 0 = after
    rw [get?_slots_setQuantity, if_pos rfl]
    rfl
  have hledger : ((s.setQuantity m.key after).append (m.toEntry id after)).ledger =
      s.ledger ++ [m.toEntry id after] := by
    rw [append, ledger_setQuantity]
  have hbatch : ((s.setQuantity m.key after).append (m.toEntry id after)).batchOf? m.key =
      s.batchOf? m.key := by
    simp only [batchOf?, append, batches_setQuantity]
  have hown : (m.toEntry id after).key = m.key := rfl
  simp only [account, hquantity, hledger, hbatch, List.filter_append, List.filter_cons, hown,
    beq_self_eq_true, if_true, List.filter_nil, List.map_append, List.map_cons, List.map_nil]
  rfl

/-- A movement is answered, and changes the account of its key, as that account alone has it. -/
theorem account_apply_own (hs : Indexed s)
    (hline : ∀ e ∈ s.ledger, e.documentLine = m.documentLine → e.key = m.key) :
    (KeyAccount.apply m).runFrom (s.account m.key) =
      (((store.apply m).runFrom s).1.map Outcome.unnumbered,
        ((store.apply m).runFrom s).2.account m.key) := by
  rw [runFrom_apply]
  unfold KeyAccount.apply write
  cases hcheck : m.check with
  | error e => rfl
  | ok _ =>
    rw [runFrom_ofRule_ok_bind, runFrom_get_bind, runFrom_ofRule_ok_bind, runFrom_get_bind,
      find?_account hs hline]
    cases hfind : s.entryAt? m.documentLine with
    | some e => rfl
    | none =>
      by_cases hzero : m.delta = 0
      · simp only [hzero, if_true, Option.map_none]
        rfl
      · have hquantity : (s.account m.key).quantity = s.quantity m.key := rfl
        simp only [hzero, if_false, Option.map_none, hquantity]
        cases quantityAfter (s.quantity m.key) m with
        | error e => rfl
        | ok after =>
          simp only [runFrom_ofRule_ok_bind]
          rw [runFrom_bind, account_ensureBatch, runFrom_bind]
          rcases (ensureMovementBatch m).runFrom s with ⟨e | _, t⟩
          · rfl
          · simp only [runFrom_bind, runFrom_modify, runFrom_pure, account_enter_own]
            rfl

end StockState

/-! ## Runs -/

/-- Takes a step for each call, whether the one before failed or not; gives the answers beside
their calls, and the state in the end. -/
def StoreM.runAll {σ γ α : Type} (step : γ → StoreM σ α) :
    List γ → σ → List (γ × Except StoreError α) × σ
  | [], s => ([], s)
  | c :: rest, s =>
    let (answer, t) := (step c).runFrom s
    let (answers, u) := runAll step rest t
    ((c, answer) :: answers, u)

theorem StoreM.runAll_cons {σ γ α : Type} (step : γ → StoreM σ α) (c : γ) (rest : List γ) (s : σ) :
    runAll step (c :: rest) s =
      ((c, ((step c).runFrom s).1) :: (runAll step rest ((step c).runFrom s).2).1,
        (runAll step rest ((step c).runFrom s).2).2) := rfl

/-- A movement that a store is asked to write down, and what its clock shows then. -/
structure Call where
  clock : Instant
  movement : Movement
  deriving DecidableEq

/-- The store writes the movement of a call down. -/
def Call.step (c : Call) : Step Outcome := do
  modify fun s => { s with clock := c.clock }
  store.apply c.movement

/-- The movements of a key, in the order of the calls. -/
def movementsOf (k : StockKey) (calls : List Call) : List Movement :=
  (calls.map (·.movement)).filter (fun m => m.key == k)

/-- What becomes of a key: the answers to its movements, and its account in the end. -/
def story (k : StockKey) (calls : List Call) (s : StockState) :
    List (Except StoreError Outcome) × KeyAccount :=
  let (answers, t) := runAll Call.step calls s
  ((answers.filter (fun a => a.1.movement.key == k)).map (fun a => a.2.map Outcome.unnumbered),
    t.account k)

/-- Whether no document line is used by movements of two keys. -/
def OneKeyPerLine (ms : List Movement) : Prop :=
  ∀ m ∈ ms, ∀ m' ∈ ms, m.documentLine = m'.documentLine → m.key = m'.key

/-- Whether the lines of these movements, as far as the ledger has them, are those of their keys. -/
def KeepsLines (s : StockState) (ms : List Movement) : Prop :=
  ∀ e ∈ s.ledger, ∀ m ∈ ms, e.documentLine = m.documentLine → e.key = m.key

section Runs

variable {s : StockState} {k : StockKey} {m : Movement} {ms : List Movement}

theorem OneKeyPerLine.subset {ms' : List Movement} (h : OneKeyPerLine ms) (hsub : ms' ⊆ ms) :
    OneKeyPerLine ms' :=
  fun m hm m' hm' => h m (hsub hm) m' (hsub hm')

/-- A movement adds to the ledger at most an entry of its own line and key. -/
theorem mem_ledger_apply {e : LedgerEntry} (h : e ∈ ((store.apply m).runFrom s).2.ledger) :
    e ∈ s.ledger ∨ e.documentLine = m.documentLine ∧ e.key = m.key := by
  rw [runFrom_apply] at h
  have hwriting := writing m s
  generalize (write m).runFrom s = out at h hwriting
  cases hwriting with
  | refused _ => exact .inl h
  | replayed _ _ => exact .inl h
  | unchanged _ _ => exact .inl h
  | entered ht _ =>
    replace h : e ∈ (StockState.enter _ m _).ledger := h
    rw [StockState.ledger_enter, ht.ledger_eq, List.mem_append, List.mem_singleton] at h
    rcases h with h | rfl
    · exact .inl h
    · exact .inr ⟨rfl, rfl⟩

theorem KeepsLines.apply (h : KeepsLines s (m :: ms)) (hlines : OneKeyPerLine (m :: ms)) :
    KeepsLines ((store.apply m).runFrom s).2 ms := by
  intro e he m' hm' hl
  have hm'' : m' ∈ m :: ms := List.mem_cons_of_mem _ hm'
  rcases mem_ledger_apply he with he | ⟨hel, hek⟩
  · exact h e he m' hm'' hl
  · rw [hek]
    exact hlines m List.mem_cons_self m' hm'' (hel.symm.trans hl)

theorem movementsOf_cons (k : StockKey) (c : Call) (rest : List Call) :
    movementsOf k (c :: rest) =
      if c.movement.key = k then c.movement :: movementsOf k rest else movementsOf k rest := by
  simp only [movementsOf, List.map_cons, List.filter_cons, beq_iff_eq]

theorem story_cons (k : StockKey) (c : Call) (rest : List Call) (s : StockState) :
    story k (c :: rest) s =
      if c.movement.key = k then
        ((c.step.runFrom s).1.map Outcome.unnumbered :: (story k rest (c.step.runFrom s).2).1,
          (story k rest (c.step.runFrom s).2).2)
      else story k rest (c.step.runFrom s).2 := by
  by_cases hk : c.movement.key = k <;>
    simp only [story, runAll_cons, List.filter_cons, beq_iff_eq, hk, if_true, if_false,
      List.map_cons]

/-- What becomes of a key is what its own movements do to its account, whatever else is called in
between and whatever the clock shows. -/
theorem story_eq {calls : List Call} (hs : s.Attained)
    (hlines : OneKeyPerLine (calls.map (·.movement)))
    (hkeeps : KeepsLines s (calls.map (·.movement))) (k : StockKey) :
    story k calls s =
      ((runAll KeyAccount.apply (movementsOf k calls) (s.account k)).1.map Prod.snd,
        (runAll KeyAccount.apply (movementsOf k calls) (s.account k)).2) := by
  induction calls generalizing s with
  | nil => rfl
  | cons c rest ih =>
    rw [List.map_cons] at hlines hkeeps
    let s' : StockState := { s with clock := c.clock }
    have hs' : s'.Attained := hs.changes (.single (.tick s c.clock))
    have hkeeps' : KeepsLines s' (c.movement :: rest.map (·.movement)) := hkeeps
    have hstep : c.step.runFrom s = (store.apply c.movement).runFrom s' := by
      rw [Call.step, runFrom_bind, runFrom_modify]
    have hnext : ((store.apply c.movement).runFrom s').2.Attained :=
      hs'.changes (apply_moves c.movement s')
    have hrest := ih hnext (hlines.subset (List.subset_cons_self _ _)) (hkeeps'.apply hlines)
    have haccount : s.account k = s'.account k := rfl
    rw [story_cons, movementsOf_cons, hstep, hrest, haccount]
    by_cases hk : c.movement.key = k
    · -- a movement of this key goes to its account
      subst hk
      have hown := StockState.account_apply_own hs'.indexed fun e he =>
        hkeeps' e he c.movement List.mem_cons_self
      rw [if_pos rfl, if_pos rfl, runAll_cons, hown, List.map_cons]
    · -- any other one leaves the account alone
      rw [if_neg hk, if_neg hk, StockState.account_apply_other s' hk]

end Runs

/-- Movements of different keys do not interfere, as long as they do not share a document line. The
answers to the movements of a key, its quantity, its entries and its batch are the same as if only
these movements had been called for, at whatever times; and the same in every order of the calls
that keeps, for each key, the order of its own movements. -/
theorem keys_do_not_interfere {calls : List Call}
    (hlines : OneKeyPerLine (calls.map (·.movement))) (clock : Instant) :
    (∀ k clock' (own : List Call), own.map (·.movement) = movementsOf k calls →
      story k own (.empty clock') = story k calls (.empty clock)) ∧
    ∀ clock' (other : List Call), (∀ k, movementsOf k other = movementsOf k calls) →
      ∀ k, story k other (.empty clock') = story k calls (.empty clock) := by
  have hcongr {k : StockKey} {clock' : Instant} {other : List Call}
      (hsub : other.map (·.movement) ⊆ calls.map (·.movement))
      (hown : movementsOf k other = movementsOf k calls) :
      story k other (.empty clock') = story k calls (.empty clock) := by
    have hattained (c : Instant) : (StockState.empty c).Attained := ⟨c, .refl⟩
    have hkeeps (c : Instant) (ms : List Movement) : KeepsLines (.empty c) ms :=
      fun e he => absurd he List.not_mem_nil
    rw [story_eq (hattained _) (hlines.subset hsub) (hkeeps _ _),
      story_eq (hattained _) hlines (hkeeps _ _), hown, StockState.account_empty,
      StockState.account_empty]
  constructor
  · intro k clock' own hown
    have hfilter : movementsOf k own = movementsOf k calls := by
      rw [movementsOf, hown, movementsOf, List.filter_filter]
      simp only [Bool.and_self]
    exact hcongr (hown ▸ List.filter_subset_self _) hfilter
  · intro clock' other hother k
    refine hcongr (fun m hm => ?_) (hother k)
    have hmem : m ∈ movementsOf m.key other := List.mem_filter.mpr ⟨hm, beq_self_eq_true _⟩
    rw [hother] at hmem
    exact (List.mem_filter.mp hmem).1

namespace Sample

/-- The movements are called for on one day. -/
def onDay (n : Fin 100) (ms : List Movement) : List Call := ms.map (⟨midnight n, ·⟩)

theorem map_movement_onDay (n : Fin 100) (ms : List Movement) :
    (onDay n ms).map (·.movement) = ms := by
  rw [onDay, List.map_map]
  exact List.map_id ms

/-- Batch A is delivered twice on the same line; more of it is picked than there is, and then two
pieces. In between, batch B is delivered. -/
def interleaved : List Movement :=
  [delivery "A" 1 5, delivery "B" 2 4, delivery "A" 1 5, pick, latePick]

/-- What is called for batch A there. -/
def alone : List Movement := [delivery "A" 1 5, delivery "A" 1 5, pick, latePick]

/-- The same with batch B delivered first. -/
def regrouped : List Movement := delivery "B" 2 4 :: alone

theorem oneKeyPerLine_interleaved : OneKeyPerLine interleaved := by
  unfold OneKeyPerLine
  decide +kernel

theorem movementsOf_regrouped (k : StockKey) :
    movementsOf k (onDay 4 regrouped) = movementsOf k (onDay 1 interleaved) := by
  have hA : latePick.key = key "A" ∧ pick.key = key "A" := ⟨rfl, rfl⟩
  have hne : key "A" ≠ key "B" := by decide
  have hdelivery (code : String) (line quantity : Int) :
      (delivery code line quantity).key = key code := rfl
  simp only [movementsOf, map_movement_onDay, regrouped, alone, interleaved, List.filter_cons,
    hdelivery, hA, beq_iff_eq]
  by_cases hk : key "B" = k
  · have hk' : key "A" ≠ k := hk ▸ hne
    simp only [hk, hk', if_true, if_false]
  · simp only [hk, if_false]

end Sample

open Sample in
/-- Batch A holds three, the second delivery is a repetition, and the first pick is refused: with
batch B in between, behind it, or without it. -/
theorem keys_do_not_interfere_interleaved :
    OneKeyPerLine ((onDay 1 interleaved).map (·.movement)) ∧
    (onDay 5 alone).map (·.movement) = movementsOf (key "A") (onDay 1 interleaved) ∧
    story (key "A") (onDay 5 alone) (.empty .epoch) =
      story (key "A") (onDay 1 interleaved) (.empty .epoch) ∧
    (∀ k, movementsOf k (onDay 4 regrouped) = movementsOf k (onDay 1 interleaved)) ∧
    story (key "A") (onDay 4 regrouped) (.empty .epoch) =
      story (key "A") (onDay 1 interleaved) (.empty .epoch) ∧
    (story (key "A") (onDay 1 interleaved) (.empty .epoch)).1 =
      [.ok ⟨key "A", 0, 5, 5, true, some 0⟩, .ok ⟨key "A", 0, 5, 5, false, some 0⟩,
        .error (.domain (.insufficientStock 50 5)), .ok ⟨key "A", 5, -2, 3, true, some 0⟩] := by
  have hlines : OneKeyPerLine ((onDay 1 interleaved).map (·.movement)) := by
    rw [map_movement_onDay]
    exact oneKeyPerLine_interleaved
  have hown : (onDay 5 alone).map (·.movement) = movementsOf (key "A") (onDay 1 interleaved) := by
    decide +kernel
  have hboth := keys_do_not_interfere hlines .epoch
  exact ⟨hlines, hown, hboth.1 _ _ _ hown, movementsOf_regrouped,
    hboth.2 _ _ movementsOf_regrouped _, by decide +kernel⟩

end Stockroom
