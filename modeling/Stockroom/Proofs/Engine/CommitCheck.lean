/-
Stockroom.Proofs.Engine.CommitCheck — the check of a write is exact, and never raises a false alarm.

* `IsFirst` says which row or balance counts where several are listed. `Consistent` is what a check
  looks for, and `Arranged` is the order in which it lists what it finds; both hold for any lists
  (`issues_eq_nil_iff`, `arranged_issues`).
* In all stock there can be, no two entries share a document line and each slot holds the total of
  its key. What is in the ledger is therefore consistent with the stock (`consistent_recorded`), and
  what a call has just written is in the ledger (`apply_recorded`, `allocate_recorded`).
-/
import Stockroom.Proofs.Engine.Calls
import Stockroom.Proofs.Stock.Balance
import Stockroom.Proofs.Stock.Ending
import Stockroom.Proofs.Stock.Lines

namespace Stockroom

/-! ## What a check looks for -/

/-- Whether `a` is the first element of the list with a property. -/
def IsFirst {α : Type} (p : α → Prop) (l : List α) (a : α) : Prop :=
  p a ∧ ∃ before after, l = before ++ a :: after ∧ ∀ b ∈ before, ¬ p b

/-- Whether the ledger row is one of the effect, by its line and its key. -/
def LedgerEntry.IsRowOf (e : LedgerEntry) (effect : CommitEffect) : Prop :=
  e.line = effect.line ∧ e.key = effect.key

/-- Whether rows and balances are as the effects of a write would leave them. A touched key without
a balance is not held against them. -/
structure Consistent (effects : List CommitEffect) (recorded : List LedgerEntry)
    (balances : List KeyBalance) : Prop where
  written : ∀ effect ∈ effects,
    ∃ e, IsFirst (·.IsRowOf effect) recorded e ∧ e.delta = effect.delta
  balanced : ∀ effect ∈ effects, ∀ b, IsFirst (·.key = effect.key) balances b → b.ledger = b.stock

/-- The key of the slot that an issue finds drifted. -/
def CommitIssue.drifted? : CommitIssue → Option StockKey
  | .stockDrift key _ _ => some key
  | .missingLedger _ _ => none
  | .deltaMismatch _ _ _ _ => none

/-- How issues are listed: no row comes behind a slot, and the slots are in the order of their keys,
each at most once. -/
structure Arranged (issues : List CommitIssue) : Prop where
  rowsFirst : issues.Pairwise fun a b => a.drifted?.isSome = true → b.drifted?.isSome = true
  ascending : (issues.filterMap CommitIssue.drifted?).Pairwise fun a b => compare a b = .lt

/-! ## Any rows and balances -/

theorem find?_eq_some_iff_isFirst {α : Type} {p : α → Bool} {l : List α} {a : α} :
    l.find? p = some a ↔ IsFirst (fun a => p a = true) l a := by
  simp only [List.find?_eq_some_iff_append, IsFirst, Bool.not_eq_true', Bool.not_eq_true]

/-- A property that some element has is had first by one. -/
theorem exists_isFirst {α : Type} {p : α → Prop} {l : List α} {a : α} (ha : a ∈ l) (h : p a) :
    ∃ b ∈ l, IsFirst p l b := by
  classical
  have hsome : (l.find? (p ·)).isSome = true := List.find?_isSome.mpr ⟨a, ha, decide_eq_true h⟩
  obtain ⟨b, hb⟩ := Option.isSome_iff_exists.mp hsome
  have hfirst := find?_eq_some_iff_isFirst.mp hb
  simp only [decide_eq_true_eq] at hfirst
  exact ⟨b, List.mem_of_find?_eq_some hb, hfirst⟩

/-- The keys that are touched are those of the effects. -/
theorem mem_touchedKeys {effects : List CommitEffect} {k : StockKey} :
    k ∈ touchedKeys effects ↔ ∃ effect ∈ effects, effect.key = k := by
  rw [touchedKeys, OrderedMap.mem_keys_iff, OrderedMap.isSome_get?_ofList, List.map_map,
    List.mem_map]
  rfl

theorem ledgerIssue?_eq_none_iff {recorded : List LedgerEntry} {effect : CommitEffect} :
    ledgerIssue? recorded effect = none ↔
      ∃ e, IsFirst (·.IsRowOf effect) recorded e ∧ e.delta = effect.delta := by
  have hfirst (e : LedgerEntry) :
      recorded.find? (fun e => e.line == effect.line && e.key == effect.key) = some e ↔
        IsFirst (·.IsRowOf effect) recorded e := by
    simp only [find?_eq_some_iff_isFirst, Bool.and_eq_true, beq_iff_eq, LedgerEntry.IsRowOf]
  simp only [← hfirst, ledgerIssue?]
  cases recorded.find? (fun e => e.line == effect.line && e.key == effect.key) with
  | none => simp
  | some e => simp

theorem driftIssue?_eq_none_iff {balances : List KeyBalance} {k : StockKey} :
    driftIssue? balances k = none ↔
      ∀ b, IsFirst (·.key = k) balances b → b.ledger = b.stock := by
  have hfirst (b : KeyBalance) :
      balances.find? (fun b => b.key == k) = some b ↔ IsFirst (·.key = k) balances b := by
    simp only [find?_eq_some_iff_isFirst, beq_iff_eq]
  simp only [← hfirst, driftIssue?]
  cases balances.find? (fun b => b.key == k) with
  | none => simp
  | some b => simp

section

variable (reference : String) (effects : List CommitEffect) (recorded : List LedgerEntry)
  (balances : List KeyBalance)

/-- A check finds no issue exactly if there is none. -/
theorem issues_eq_nil_iff :
    (checkCommit reference effects recorded balances).issues = [] ↔
      Consistent effects recorded balances := by
  simp only [checkCommit, List.append_eq_nil_iff, List.filterMap_eq_nil_iff,
    ledgerIssue?_eq_none_iff, driftIssue?_eq_none_iff, mem_touchedKeys]
  constructor
  · rintro ⟨hrows, hslots⟩
    exact ⟨hrows, fun effect heffect => hslots effect.key ⟨effect, heffect, rfl⟩⟩
  · rintro ⟨hrows, hslots⟩
    refine ⟨hrows, ?_⟩
    rintro _ ⟨effect, heffect, rfl⟩
    exact hslots effect heffect

variable {effects recorded balances}

theorem drifted?_of_ledgerIssue? {effect : CommitEffect} {i : CommitIssue}
    (h : ledgerIssue? recorded effect = some i) : i.drifted? = none := by
  unfold ledgerIssue? at h
  split at h
  · cases h
    rfl
  · split at h
    · cases h
    · cases h
      rfl

theorem drifted?_of_driftIssue? {k : StockKey} {i : CommitIssue}
    (h : driftIssue? balances k = some i) : i.drifted? = some k := by
  unfold driftIssue? at h
  split at h
  · cases h
  · split at h
    · cases h
    · cases h
      rfl

variable (effects recorded balances)

theorem arranged_issues : Arranged (checkCommit reference effects recorded balances).issues := by
  have hrow : ∀ i ∈ effects.filterMap (ledgerIssue? recorded), i.drifted? = none := by
    intro i hi
    obtain ⟨effect, -, hissue⟩ := List.mem_filterMap.mp hi
    exact drifted?_of_ledgerIssue? hissue
  have hslot : ∀ i ∈ (touchedKeys effects).filterMap (driftIssue? balances),
      i.drifted?.isSome = true := by
    intro i hi
    obtain ⟨k, -, hissue⟩ := List.mem_filterMap.mp hi
    rw [drifted?_of_driftIssue? hissue]
    rfl
  constructor
  · refine List.pairwise_append.mpr ⟨?_, ?_, fun a _ b hb _ => hslot b hb⟩
    · refine List.pairwise_of_forall_mem_list fun a ha b _ hdrifted => ?_
      rw [hrow a ha] at hdrifted
      cases hdrifted
    · exact List.pairwise_of_forall_mem_list fun a _ b hb _ => hslot b hb
  · have hnone : (effects.filterMap (ledgerIssue? recorded)).filterMap CommitIssue.drifted? = [] :=
      List.filterMap_eq_nil_iff.mpr hrow
    rw [checkCommit, List.filterMap_append, hnone, List.nil_append, List.pairwise_filterMap,
      List.pairwise_filterMap]
    -- each slot that has drifted is listed under the key it was looked for
    refine (OrderedMap.pairwise_keys _).imp fun {k k'} hlt i hi i' hi' j hj j' hj' => ?_
    obtain rfl : k = j := Option.some.inj ((drifted?_of_driftIssue? hi).symm.trans hj)
    obtain rfl : k' = j' := Option.some.inj ((drifted?_of_driftIssue? hi').symm.trans hj')
    exact hlt

end

/-! ## What is in the ledger -/

namespace StockState

variable {s t : StockState}

/-- The only row under a reference with the line of an entry is the entry itself. -/
theorem Attained.eq_of_isRowOf (hs : s.Attained) {e f : LedgerEntry} (he : e ∈ s.ledger)
    (hf : f ∈ s.entriesOf e.reference) (h : f.IsRowOf e.effect) : f = e := by
  obtain ⟨hmem, hreference⟩ := List.mem_filter.mp hf
  have hline : f.documentLine = e.documentLine := by
    rw [LedgerEntry.documentLine, eq_of_beq hreference, h.1]
    rfl
  have hfound : s.entryAt? e.documentLine = some f :=
    hs.indexed.entryAt?_eq_some_iff.mpr ⟨hmem, hline⟩
  have hfound' : s.entryAt? e.documentLine = some e :=
    hs.indexed.entryAt?_eq_some_iff.mpr ⟨he, rfl⟩
  exact Option.some.inj (hfound.symm.trans hfound')

/-- Entries of the ledger are found, and the slots they touch have not drifted. -/
theorem Attained.consistent_recorded (hs : s.Attained) {reference : String}
    {entries : List LedgerEntry} (hmem : ∀ e ∈ entries, e ∈ s.ledger)
    (hreference : ∀ e ∈ entries, e.reference = reference) (keys : List StockKey) :
    Consistent (entries.map (·.effect)) (s.entriesOf reference) (keys.map s.balance) where
  written := by
    intro effect heffect
    obtain ⟨e, he, rfl⟩ := List.mem_map.mp heffect
    obtain rfl := hreference e he
    have hrow : e ∈ s.entriesOf e.reference :=
      List.mem_filter.mpr ⟨hmem e he, beq_self_eq_true _⟩
    obtain ⟨f, hf, hfirst⟩ := exists_isFirst (p := (·.IsRowOf e.effect)) hrow ⟨rfl, rfl⟩
    obtain rfl := hs.eq_of_isRowOf (hmem e he) hf hfirst.1
    exact ⟨f, hfirst, rfl⟩
  balanced := by
    intro effect _ b hb
    obtain ⟨-, before, after, hsplit, -⟩ := hb
    have hlisted : b ∈ keys.map s.balance := by
      rw [hsplit]
      exact List.mem_append_right _ List.mem_cons_self
    obtain ⟨k, -, rfl⟩ := List.mem_map.mp hlisted
    exact (hs.balanced.slot k).symm

end StockState

/-! ## What a call has just written -/

namespace MemoryStock

variable {s t : StockState}

/-- The entry of an applied movement is in the ledger. -/
theorem apply_recorded {m : Movement} {o : Outcome}
    (h : (store.apply m).runFrom s = (.ok o, t)) (happlied : o.applied = true) :
    Changes s t ∧
      ∃ e ∈ t.ledger, e.reference = m.reference ∧ e.effect = ⟨o.key, m.line, o.delta⟩ := by
  have hwriting := writing m s
  rw [runFrom_apply] at h
  generalize (write m).runFrom s = out at h hwriting
  cases hwriting with
  | refused e => cases h
  | replayed valid found =>
    cases h
    cases happlied
  | unchanged valid zero =>
    cases h
    cases happlied
  | @entered t' after readied admitted =>
    cases h
    refine ⟨readied.changes.trans (.single (.entered admitted)), t'.entryFor m after, ?_, rfl, rfl⟩
    rw [StockState.ledger_enter]
    exact List.mem_append_right _ List.mem_cons_self

/-- What a plan's legs are written down as bears the reference of the request. -/
theorem reference_of_mem_entriesFor {r : AllocationRequest} {legs : List AllocationLeg}
    {e : LedgerEntry} (he : e ∈ s.entriesFor (r.legMovements legs)) :
    e.reference = r.reference := by
  have hsaid := List.mem_map_of_mem (f := fun e => (e.key, e.delta, e.reference, e.line)) he
  rw [StockState.map_entriesFor] at hsaid
  obtain ⟨m, hm, heq⟩ := List.mem_map.mp hsaid
  rw [AllocationRequest.legMovements, r.legMovementsFrom_eq, List.mem_mapIdx] at hm
  obtain ⟨i, hi, rfl⟩ := hm
  exact (Prod.mk.inj (Prod.mk.inj (Prod.mk.inj heq).2).2).1.symm

/-- The entries of an allocation that is no repetition are in the ledger. -/
theorem allocate_recorded (hs : s.Attained) {r : AllocationRequest} {a : AllocationResult}
    (h : (store.allocate r).runFrom s = (.ok a, t)) (hfresh : a.replayed = false) :
    Changes s t ∧ ∀ e ∈ a.entries, e ∈ t.ledger ∧ e.reference = r.reference := by
  replace h : (allocate r).runFrom s = (.ok a, t) := h
  have hmoves := allocate_moves r s
  rw [h] at hmoves
  refine ⟨hmoves, fun e he => ?_⟩
  rcases allocate_cases hs r with ⟨_, hrun⟩ | ⟨legs, hrun⟩ | ⟨p, -, -, hrun⟩
  · rw [hrun] at h
    cases h
  · rw [hrun] at h
    cases h
    cases hfresh
  · rw [hrun] at h
    cases h
    refine ⟨?_, reference_of_mem_entriesFor he⟩
    rw [StockState.ledger_enterAll]
    exact List.mem_append_right _ he

end MemoryStock

namespace Engine

variable {τ : Type} {audit : AuditSink τ} {settings : EngineSettings}
  {u v : EngineState MemoryState τ}

/-- A call that passes on what its stock answers has got its answer from there. -/
theorem stock_answered {α : Type} {a : α} {x : StoreM StockState α}
    {f : α → EngineM MemoryState τ α}
    (passed : ∀ {b s}, (StoreM.onPart MemoryState.stock (fun s stock => { s with stock }) x).runFrom
        u.store = (.ok b, s) →
      ∃ w, (EngineM.ofWatchedStock
        (StoreM.onPart MemoryState.stock (fun s stock => { s with stock }) x) >>= f).runFrom u =
          (.ok b, w) ∧ w.store = s)
    (h : (EngineM.ofWatchedStock
      (StoreM.onPart MemoryState.stock (fun s stock => { s with stock }) x) >>= f).runFrom u =
        (.ok a, v)) :
    x.runFrom u.store.stock = (.ok a, v.store.stock) := by
  rcases hstock : x.runFrom u.store.stock with ⟨e | b, t⟩
  · obtain ⟨w, hrun, -⟩ :=
      EngineM.runFrom_watched_passing_bind_error (τ := τ) (MemoryState.runFrom_onStock hstock) f
    cases h.symm.trans hrun
  · obtain ⟨w, hrun, hstore⟩ := passed (MemoryState.runFrom_onStock hstock)
    cases h.symm.trans hrun
    rw [hstore]

theorem stock_of_apply {m : Movement} {o : Outcome}
    (h : ((inMemory audit settings).apply m).runFrom u = (.ok o, v)) :
    (MemoryStock.store.apply m).runFrom u.store.stock = (.ok o, v.store.stock) := by
  refine stock_answered (fun hstore => ?_) h
  obtain ⟨w, hrun, hcore⟩ := apply_of_ok hstore
  exact ⟨w, hrun, congrArg EngineCore.store hcore⟩

theorem stock_of_allocate {r : AllocationRequest} {a : AllocationResult}
    (h : ((inMemory audit settings).allocate r).runFrom u = (.ok a, v)) :
    (MemoryStock.store.allocate r).runFrom u.store.stock = (.ok a, v.store.stock) := by
  refine stock_answered (fun hstore => ?_) h
  obtain ⟨w, hrun, hcore⟩ := allocate_of_ok hstore
  refine ⟨w, hrun, (congrArg EngineCore.store hcore).trans ?_⟩
  split <;> rfl

theorem runFrom_verifyCommit (reference : String) (effects : List CommitEffect)
    (u : EngineState MemoryState τ) :
    ((inMemory audit settings).verifyCommit reference effects).runFrom u =
      (.ok (checkCommit reference effects (u.store.stock.entriesOf reference)
        ((touchedKeys effects).map u.store.stock.balance)), u) := rfl

/-- Entries of the ledger pass the check. -/
theorem verifyCommit_recorded (hu : u.store.stock.Attained) {reference : String}
    {entries : List LedgerEntry}
    (hmem : ∀ e ∈ entries, e ∈ u.store.stock.ledger ∧ e.reference = reference) :
    ∃ check, ((inMemory audit settings).verifyCommit reference (entries.map (·.effect))).runFrom u =
      (.ok check, u) ∧ check.issues = [] := by
  refine ⟨_, runFrom_verifyCommit _ _ u, ?_⟩
  rw [issues_eq_nil_iff]
  exact hu.consistent_recorded (fun e he => (hmem e he).1) (fun e he => (hmem e he).2) _

/-- A check of a write finds no issue exactly if each effect has its row and no touched slot has
drifted, and it lists what it finds row by row and then slot by slot. The check of an engine is that
of the stored rows of the reference and of the balances of the touched keys. Of a movement or an
allocation that was just written it finds nothing to report, whatever has happened to the stock
before. -/
theorem verifyCommit_exact :
    (∀ (reference : String) (effects : List CommitEffect) (recorded : List LedgerEntry)
        (balances : List KeyBalance),
      ((checkCommit reference effects recorded balances).issues = [] ↔
        Consistent effects recorded balances) ∧
      Arranged (checkCommit reference effects recorded balances).issues) ∧
    (∀ (audit : AuditSink τ) (settings : EngineSettings) (u : EngineState MemoryState τ)
        (reference : String) (effects : List CommitEffect),
      ((inMemory audit settings).verifyCommit reference effects).runFrom u =
        (.ok (checkCommit reference effects (u.store.stock.entriesOf reference)
          ((touchedKeys effects).map u.store.stock.balance)), u)) ∧
    ∀ (audit : AuditSink τ) (settings : EngineSettings) (u v : EngineState MemoryState τ),
      u.store.stock.Attained →
      (∀ (m : Movement) (o : Outcome),
        ((inMemory audit settings).apply m).runFrom u = (.ok o, v) → o.applied = true →
        ∃ check, ((inMemory audit settings).verifyCommit m.reference
          [⟨o.key, m.line, o.delta⟩]).runFrom v = (.ok check, v) ∧ check.issues = []) ∧
      ∀ (r : AllocationRequest) (a : AllocationResult),
        ((inMemory audit settings).allocate r).runFrom u = (.ok a, v) → a.replayed = false →
        ∃ check, ((inMemory audit settings).verifyCommit r.reference
          (a.entries.map (·.effect))).runFrom v = (.ok check, v) ∧ check.issues = [] := by
  refine ⟨fun reference effects recorded balances => ⟨issues_eq_nil_iff _ _ _ _,
    arranged_issues _ _ _ _⟩,
    fun _ _ u reference effects => runFrom_verifyCommit reference effects u,
    fun audit settings u v hu => ⟨?_, ?_⟩⟩
  · intro m o h happlied
    obtain ⟨hchanges, e, he, hreference, heffect⟩ :=
      MemoryStock.apply_recorded (stock_of_apply h) happlied
    have hone : ∀ e' ∈ [e], e' ∈ v.store.stock.ledger ∧ e'.reference = m.reference := by
      intro e' he'
      obtain rfl := List.mem_singleton.mp he'
      exact ⟨he, hreference⟩
    have hcheck : ∃ check, ((inMemory audit settings).verifyCommit m.reference
        ([e].map (·.effect))).runFrom v = (.ok check, v) ∧ check.issues = [] :=
      verifyCommit_recorded (hu.changes hchanges) hone
    rwa [List.map_singleton, heffect] at hcheck
  · intro r a h hfresh
    obtain ⟨hchanges, hentries⟩ := MemoryStock.allocate_recorded hu (stock_of_allocate h) hfresh
    exact verifyCommit_recorded (hu.changes hchanges) hentries

end Engine

namespace Sample

/-- An engine that checks what it has written, and tells nobody. -/
def checkingEngine : Engine MemoryState Unit :=
  .inMemory (.discard Unit) { EngineSettings.ofConfig {} with verifyCommits := true }

/-- That engine, over the stock before the order. -/
def checkingState : EngineState MemoryState Unit := .start ⟨stock, .empty⟩ ()

end Sample

open Sample in
/-- Two of batch A are picked, or an order of six is allocated from both batches: there is nothing
to report. Before the pick its row is missing. -/
theorem verifyCommit_exact_order :
    checkingState.store.stock.Attained ∧
    (∃ o v, (checkingEngine.apply latePick).runFrom checkingState = (.ok o, v) ∧
      o.applied = true ∧
      ∃ check, (checkingEngine.verifyCommit "SO-7" [⟨o.key, 1, o.delta⟩]).runFrom v =
        (.ok check, v) ∧ check.issues = []) ∧
    (∃ check, (checkingEngine.verifyCommit "SO-7" [⟨key "A", 1, -2⟩]).runFrom checkingState =
      (.ok check, checkingState) ∧ check.issues.length = 1) ∧
    ∃ a v, (checkingEngine.allocate (order 1 6)).runFrom checkingState = (.ok a, v) ∧
      a.replayed = false ∧ a.entries.length = 2 ∧
      ∃ check, (checkingEngine.verifyCommit "SO-1" (a.entries.map (·.effect))).runFrom v =
        (.ok check, v) ∧ check.issues = [] := by
  have hstock : checkingState.store.stock.Attained := reachable_stock.attained
  obtain ⟨-, hchecked, hwritten⟩ := Engine.verifyCommit_exact (τ := Unit)
  refine ⟨hstock, ⟨_, _, rfl, rfl, ?_⟩, ⟨_, hchecked _ _ checkingState _ _, ?_⟩,
    ⟨_, _, rfl, rfl, rfl, ?_⟩⟩
  · exact (hwritten _ _ checkingState _ hstock).1 latePick _ rfl rfl
  · decide +kernel
  · exact (hwritten _ _ checkingState _ hstock).2 (order 1 6) _ rfl rfl

end Stockroom
