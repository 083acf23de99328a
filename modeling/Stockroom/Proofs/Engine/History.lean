/-
Stockroom.Proofs.Engine.History — runs of an engine over memory, and what single calls come to.

* `EngineAction` is a call of an engine, or that the clock of its stock moves on; `Engine.run` takes
  one after another, those that fail included, and keeps their answers.
* `EngineChange` lists what a call changes and tells at once: stock grows by entries, each of which
  is told, or a stored reservation takes a turn, whose end is told. A sweep is a chain of those
  (`goes_run`).
* `EngineAction.ending`: every call ends in such a chain; in a reservation that is opened and told;
  or in an allocation that is written, told and counted. What a run preserves is proved along these
  three ways.
-/
import Stockroom.Proofs.Engine.Calls
import Stockroom.Proofs.Reservation.Lifecycle
import Stockroom.Proofs.Stock.Ending

namespace Stockroom

open EngineM

/-! ## Actions -/

/-- A call of an engine that only looks at its stores. -/
inductive EngineQuery where
  | verifyCommit (reference : String) (effects : List CommitEffect)
  | snapshotCut (t : Instant)
  | detect (cut : Instant)
  | suggest (cut : Instant)
  | batchAgeing (today : Date) (within : Int)
  | ageingReport (today : Date)
  | defaultExpireAt (now : Instant)
  | getReservation (id : Uuid)
  | findExpired (now : Instant) (limit : Nat)
  | plan (item : ItemId) (warehouse : WarehouseId) (quantity : Int) (options : PlanOptions)
  | allocationStats
  | ledgerDiagnostics (since upTo : Instant)
  | insights (now : Instant)

/-- What the answer to a question is. -/
@[reducible] def EngineQuery.Answer : EngineQuery → Type
  | verifyCommit _ _ => CommitCheck
  | snapshotCut _ => SnapshotCut
  | detect _ => ReconciliationReport
  | suggest _ => List HealSuggestion
  | batchAgeing _ _ => List BatchAgeing
  | ageingReport _ => List BatchAgeing
  | defaultExpireAt _ => Instant
  | getReservation _ => Option Reservation
  | findExpired _ _ => List Uuid
  | plan _ _ _ _ => AllocationPlan
  | allocationStats => FefoStats
  | ledgerDiagnostics _ _ => LedgerDiagnostics
  | insights _ => Insights

/-- What can happen to an engine: a call, or that the clock of its stock moves on. -/
inductive EngineAction where
  | apply (m : Movement)
  | allocate (r : AllocationRequest)
  | resolveBatch (item : ItemId) (warehouse : WarehouseId) (code : String)
      (production expiry : Option Date) (on : Date)
  | correctExpiry (item : ItemId) (warehouse : WarehouseId) (code : String)
      (expiry : Option Date)
  | rebuildSnapshot (d : Date)
  | createReservation (fresh : Uuid) (n : NewReservation) (now : Instant)
  | consumeReservation (id : Uuid) (now : Instant)
  | cancelReservation (id : Uuid) (now : Instant)
  | release (id : Uuid) (now : Instant)
  | sweep (rounds : Nat) (now : Instant) (batchSize : Nat)
  | sweepExpired (rounds : Nat) (now : Instant)
  | query (q : EngineQuery)
  | tick (clock : Instant)

/-- What the answer to an action is. -/
@[reducible] def EngineAction.Answer : EngineAction → Type
  | apply _ => Outcome
  | allocate _ => AllocationResult
  | resolveBatch .. => Batch
  | correctExpiry .. => Batch
  | rebuildSnapshot _ => SnapshotSummary
  | createReservation .. => CreatedReservation
  | consumeReservation .. => Reservation × ConsumeOutcome
  | cancelReservation .. => Reservation
  | release .. => ReleaseOutcome
  | sweep .. => SweepReport
  | sweepExpired .. => SweepReport
  | query q => q.Answer
  | tick _ => Unit

namespace Engine

variable {τ : Type} (engine : Engine MemoryState τ)

/-- The engine answers a question. -/
def ask : (q : EngineQuery) → EngineM MemoryState τ q.Answer
  | .verifyCommit reference effects => engine.verifyCommit reference effects
  | .snapshotCut t => engine.snapshotCut t
  | .detect cut => engine.detect cut
  | .suggest cut => engine.suggest cut
  | .batchAgeing today within => engine.batchAgeing today within
  | .ageingReport today => engine.ageingReport today
  | .defaultExpireAt now => engine.defaultExpireAt now
  | .getReservation id => engine.getReservation id
  | .findExpired now limit => engine.findExpired now limit
  | .plan item warehouse quantity options => engine.plan item warehouse quantity options
  | .allocationStats => allocationStats
  | .ledgerDiagnostics since upTo => engine.ledgerDiagnostics since upTo
  | .insights now => engine.insights now

/-- The engine takes an action. -/
def step : (a : EngineAction) → EngineM MemoryState τ a.Answer
  | .apply m => engine.apply m
  | .allocate r => engine.allocate r
  | .resolveBatch item warehouse code production expiry on =>
    engine.resolveBatch item warehouse code production expiry on
  | .correctExpiry item warehouse code expiry => engine.correctExpiry item warehouse code expiry
  | .rebuildSnapshot d => engine.rebuildSnapshot d
  | .createReservation fresh n now => engine.createReservation fresh n now
  | .consumeReservation id now => engine.consumeReservation id now
  | .cancelReservation id now => engine.cancelReservation id now
  | .release id now => engine.release id now
  | .sweep rounds now batchSize => engine.sweep rounds now batchSize
  | .sweepExpired rounds now => engine.sweepExpired rounds now
  | .query q => engine.ask q
  | .tick clock => modify fun u =>
      { u with store := { u.store with stock := { u.store.stock with clock } } }

end Engine

/-- An action with the answer to it. -/
abbrev EngineReply := (a : EngineAction) × Except EngineError a.Answer

/-- The engine takes one action after another, whether the one before failed or not; gives every
answer, and the state in the end. -/
def Engine.run {τ : Type} (engine : Engine MemoryState τ) :
    List EngineAction → EngineState MemoryState τ → List EngineReply × EngineState MemoryState τ
  | [], u => ([], u)
  | a :: rest, u =>
    let (answer, v) := (engine.step a).runFrom u
    let (replies, w) := engine.run rest v
    (⟨a, answer⟩ :: replies, w)

theorem Engine.run_cons {τ : Type} (engine : Engine MemoryState τ) (a : EngineAction)
    (rest : List EngineAction) (u : EngineState MemoryState τ) :
    engine.run (a :: rest) u =
      (⟨a, ((engine.step a).runFrom u).1⟩ :: (engine.run rest ((engine.step a).runFrom u).2).1,
        (engine.run rest ((engine.step a).runFrom u).2).2) := rfl

/-- The plan of an allocation that was answered, and is not a repetition. -/
def EngineReply.planned? : EngineReply → Option AllocationPlan
  | ⟨.allocate _, .ok a⟩ => if a.replayed then none else some a.plan
  | _ => none

/-! ## Single changes -/

/-- What always holds of stores in memory. -/
structure MemoryState.Sound (s : MemoryState) : Prop where
  stocked : s.stock.Attained
  filed : s.reservations.Filed

theorem MemoryState.sound_empty (clock : Instant) : (MemoryState.empty clock).Sound :=
  ⟨⟨clock, .refl⟩, fun _ _ h => by cases h⟩

variable {τ : Type}

namespace EngineCore

/-- Stock has become `t`, and `entries` have been told. -/
def stocked (audit : AuditSink τ) (c : EngineCore MemoryState τ) (t : StockState)
    (entries : List LedgerEntry) : EngineCore MemoryState τ where
  store := { c.store with stock := t }
  audit := audit.tell (entries.map LedgerEntry.told) c.audit
  stats := c.stats

/-- The reservations have become `t`, and `events` have been told. -/
def reserved (audit : AuditSink τ) (c : EngineCore MemoryState τ) (t : ReservationState)
    (events : List (InventoryEvent × TraceId)) : EngineCore MemoryState τ where
  store := { c.store with reservations := t }
  audit := audit.tell events c.audit
  stats := c.stats

end EngineCore

/-- One change of the stores of an engine, and what is told of it. -/
inductive EngineChange (audit : AuditSink τ) :
    EngineCore MemoryState τ → EngineCore MemoryState τ → Prop where
  | stocked {c : EngineCore MemoryState τ} {t : StockState} {entries : List LedgerEntry}
      (changes : Changes c.store.stock t) (ledger : t.ledger = c.store.stock.ledger ++ entries) :
      EngineChange audit c (c.stocked audit t entries)
  | turned {c : EngineCore MemoryState τ} {id : Uuid} {r q : Reservation}
      (known : c.store.reservations.byId.get? id = some r) (turn : r.Turn q) :
      EngineChange audit c
        (c.reserved audit
          { c.store.reservations with byId := c.store.reservations.byId.insert id q }
          (r.toldTurn q))

/-- Any number of changes, one after another. -/
abbrev EngineChanges (audit : AuditSink τ) :
    EngineCore MemoryState τ → EngineCore MemoryState τ → Prop :=
  Relation.ReflTransGen (EngineChange audit)

variable {audit : AuditSink τ} {settings : EngineSettings} {c d : EngineCore MemoryState τ}

theorem EngineChange.sound (h : EngineChange audit c d) (hc : c.store.Sound) : d.store.Sound := by
  cases h with
  | stocked changes ledger => exact ⟨hc.stocked.changes changes, hc.filed⟩
  | turned known turn =>
    exact ⟨hc.stocked, ReservationState.Filed.change (.turned known turn) hc.filed⟩

theorem EngineChanges.sound (h : EngineChanges audit c d) (hc : c.store.Sound) :
    d.store.Sound := by
  induction h with
  | refl => exact hc
  | tail _ hd ih => exact hd.sound ih

/-! ## What the turns of a reservation tell -/

namespace Reservation

variable {r q : Reservation} {now : Instant}

theorem toldClosed_of_open (h : r.status = .open) : r.toldClosed = [] := by
  rw [toldClosed, InventoryEvent.ofClosed?, h]
  rfl

/-- A reservation that is refreshed goes on. -/
theorem toldTurn_of_refresh {n : NewReservation} (h : r.refresh n now = .ok q) :
    r.toldTurn q = [] := by
  obtain ⟨-, hopen, rfl⟩ := refresh_eq_ok_iff.mp h
  rw [toldTurn, if_pos hopen]
  exact toldClosed_of_open hopen

theorem toldTurn_of_consume {outcome : ConsumeOutcome} (h : r.consume now = .ok (q, outcome)) :
    r.toldTurn q = if outcome = .consumed then q.toldClosed else [] := by
  rcases consume_eq_ok_iff.mp h with ⟨hconsumed, -, rfl⟩ | ⟨hopen, rfl, -⟩
  · rw [toldTurn, hconsumed]
    rfl
  · rw [toldTurn, if_pos hopen, if_pos rfl]

theorem toldTurn_of_cancel (h : r.cancel now = .ok q) : r.toldTurn q = q.toldClosed :=
  if_pos (cancel_eq_ok_iff.mp h).1

end Reservation

/-! ## Steps along changes -/

/-- Whether a step leaves every sound state along a chain of changes, even where it fails. -/
def Goes {α : Type} (audit : AuditSink τ) (x : EngineM MemoryState τ α) : Prop :=
  ∀ u, u.store.Sound → EngineChanges audit u.core (x.runFrom u).2.core

section Goes

variable {α β : Type}

theorem Goes.of_quiet {x : EngineM MemoryState τ α} (h : Quiet x) : Goes audit x := by
  intro u _
  rw [h u]

theorem Goes.bind {x : EngineM MemoryState τ α} {f : α → EngineM MemoryState τ β}
    (hx : Goes audit x) (hf : ∀ a, Goes audit (f a)) : Goes audit (x >>= f) := by
  intro u hu
  have hfirst := hx u hu
  rw [runFrom_bind]
  generalize x.runFrom u = out at hfirst
  rcases out with ⟨_ | a, v⟩
  · exact hfirst
  · exact hfirst.trans (hf a v (hfirst.sound hu))

theorem Goes.watched {x : EngineM MemoryState τ α} (h : Goes audit x) :
    Goes audit (watched x) := by
  intro u hu
  obtain ⟨v, hrun, hcore⟩ := runFrom_watched x u
  rw [hrun, hcore]
  exact h u hu

end Goes

/-! ## Releases and sweeps -/

/-- A request of a known key leaves nothing to tell. -/
theorem EngineChange.refreshed (audit : AuditSink τ) (c : EngineCore MemoryState τ) {id : Uuid}
    {r q : Reservation} {n : NewReservation} {now : Instant}
    (known : c.store.reservations.byId.get? id = some r) (allowed : r.refresh n now = .ok q) :
    EngineChange audit c
      (c.reserved audit
        { c.store.reservations with byId := c.store.reservations.byId.insert id q } []) := by
  rw [← Reservation.toldTurn_of_refresh allowed]
  exact .turned known (.refreshed allowed)

/-- A reservation that is ended leaves that to tell. -/
theorem EngineChange.ended (audit : AuditSink τ) (c : EngineCore MemoryState τ) {id : Uuid}
    {r q : Reservation} {now : Instant} {outcome : ReleaseOutcome}
    (known : c.store.reservations.byId.get? id = some r) (isOpen : r.status = .open)
    (ended : r.expire now = (q, outcome)) :
    EngineChange audit c
      (c.reserved audit
        { c.store.reservations with byId := c.store.reservations.byId.insert id q }
        q.toldClosed) := by
  have hturn : r.Turn q := by
    have hended := Reservation.Turn.ended r now
    rwa [ended] at hended
  have htold : r.toldTurn q = q.toldClosed := if_pos isOpen
  rw [← htold]
  exact .turned known hturn

namespace Engine

theorem runFrom_get (id : Uuid) (s : MemoryState) :
    ((inMemory audit settings).reservations.get id).runFrom s =
      (.ok (s.reservations.byId.get? id), s) := rfl

theorem goes_release (id : Uuid) (now : Instant) :
    Goes audit ((inMemory audit settings).release id now) := by
  intro u _
  unfold release
  rcases MemoryReservations.release_cases id now u.store.reservations with
    ⟨found, h⟩ | ⟨r, q, hid, hopen, hq, h⟩
  · have hstore : ((inMemory audit settings).reservations.release id now).runFrom u.store =
        (.ok (.noop found), _) := MemoryState.runFrom_onReservations h
    rw [runFrom_watched_passing_bind_ok hstore]
    exact .refl
  · have hstore : ((inMemory audit settings).reservations.release id now).runFrom u.store =
        (.ok (.expired r.id), _) := MemoryState.runFrom_onReservations h
    rw [runFrom_watched_passing_bind_ok hstore]
    -- its end is told, from what is loaded once more
    simp only [ReleaseOutcome.isExpired, if_true]
    rw [runFrom_bind_of_ok (runFrom_passing_of_ok (runFrom_get id _))]
    simp only [OrderedMap.get?_insert, if_true]
    have hrest : Reports (inMemory audit settings) q.toldClosed (ReleaseOutcome.expired r.id)
        (publishClosed (inMemory audit settings) q >>= fun _ => pure (.expired r.id)) :=
      (reports_publishClosed q).before (reports_pure _)
    obtain ⟨v, hrun, hcore⟩ := hrest _
    rw [hrun, hcore]
    exact .single (.ended audit u.core hid hopen hq)

end Engine

namespace Sweep

open Engine

/-- The end of a reservation is told from what is stored under its own identifier. -/
theorem publishExpired_stored {u : EngineState MemoryState τ} {id : Uuid} {q : Reservation}
    (h : u.store.reservations.byId.get? id = some q) :
    ∃ v, (publishExpired (inMemory audit settings) id).runFrom u = (.ok (), v) ∧
      v.core = { u.core with audit := audit.tell q.toldClosed u.audit } := by
  unfold publishExpired
  rw [runFrom_bind_of_ok (runFrom_attempt _ u), runFrom_get, h]
  exact reports_publishClosed q _

theorem goes_releaseOne (now : Instant) (report : SweepReport) (id : Uuid) :
    Goes audit (releaseOne (inMemory audit settings) now report id) := by
  intro u hu
  unfold releaseOne
  rw [runFrom_bind_of_ok (runFrom_attempt _ u)]
  rcases MemoryReservations.release_cases id now u.store.reservations with
    ⟨found, h⟩ | ⟨r, q, hid, hopen, hq, h⟩
  · have hstore : ((inMemory audit settings).reservations.release id now).runFrom u.store =
        (.ok (.noop found), _) := MemoryState.runFrom_onReservations h
    rw [hstore]
    exact .refl
  · have hstore : ((inMemory audit settings).reservations.release id now).runFrom u.store =
        (.ok (.expired r.id), _) := MemoryState.runFrom_onReservations h
    have hfound : (u.store.reservations.byId.insert id q).get? r.id = some q := by
      rw [OrderedMap.get?_insert, if_pos (hu.filed id r hid).symm]
    let ended : ReservationState :=
      { u.store.reservations with byId := u.store.reservations.byId.insert id q }
    obtain ⟨v, hrun, hcore⟩ : ∃ v, (publishExpired (inMemory audit settings) r.id).runFrom
        { u with store := { u.store with reservations := ended } } = (.ok (), v) ∧
        v.core = u.core.reserved audit ended q.toldClosed := publishExpired_stored hfound
    rw [hstore]
    dsimp only
    rw [runFrom_bind_of_ok hrun, runFrom_pure, hcore]
    exact .single (.ended audit u.core hid hopen hq)

theorem goes_releaseAll (now : Instant) (report : SweepReport) (ids : List Uuid) :
    Goes audit (releaseAll (inMemory audit settings) now report ids) := by
  induction ids generalizing report with
  | nil => exact .of_quiet (quiet_pure report)
  | cons id rest ih => exact (goes_releaseOne now report id).bind fun report => ih report

theorem goes_drain (now : Instant) (batchSize rounds : Nat) (report : SweepReport) :
    Goes audit (drain (inMemory audit settings) now batchSize rounds report) := by
  induction rounds generalizing report with
  | zero => exact .of_quiet (quiet_throw _)
  | succ rounds ih =>
    refine Goes.bind (.of_quiet (quiet_passing fun _ => rfl)) fun ids => ?_
    dsimp only
    split
    · exact .of_quiet (quiet_pure _)
    · refine (goes_releaseAll now _ _).bind fun report => ?_
      split
      · exact .of_quiet (quiet_pure report)
      · exact ih report

theorem goes_run (rounds : Nat) (now : Instant) (batchSize : Nat) :
    Goes audit (run (inMemory audit settings) rounds now batchSize) := by
  refine Goes.watched ?_
  split
  · exact .of_quiet (quiet_throw _)
  · refine (goes_drain now batchSize rounds .zero).bind fun report => .of_quiet ?_
    refine (quiet_count _ _).bind fun _ => ?_
    split
    · exact (quiet_log _).bind fun _ => quiet_pure report
    · exact quiet_pure report

end Sweep

/-! ## Questions -/

namespace Engine

theorem quiet_totals (cut : LedgerCut) :
    Quiet (ofWatchedStock ((inMemory audit settings).stock.totals cut) :
      EngineM MemoryState τ Totals) :=
  Quiet.watched (quiet_passing fun _ => rfl)

theorem quiet_plan (item : ItemId) (warehouse : WarehouseId) (quantity : Int)
    (options : PlanOptions) :
    Quiet ((inMemory audit settings).plan item warehouse quantity options) := by
  refine quiet_passing fun s => ?_
  have hstore : ((inMemory audit settings).stock.plan item warehouse quantity options).runFrom s =
      (_, { s with stock := s.stock }) :=
    MemoryState.runFrom_onStock
      (Prod.ext rfl (MemoryStock.plan_snd item warehouse quantity options _))
  rw [hstore]

theorem quiet_insightCounts (now : Instant) :
    Quiet ((inMemory audit settings).insightCounts now) := by
  unfold insightCounts
  split
  · exact quiet_throw _
  · exact (quiet_passing fun _ => rfl).bind fun _ => (quiet_totals _).bind fun _ =>
      (quiet_passing fun _ => rfl).bind fun _ => (quiet_passing fun _ => rfl).bind fun _ =>
        (quiet_passing fun _ => rfl).bind fun _ => quiet_pure _

theorem quiet_detect (cut : Instant) : Quiet ((inMemory audit settings).detect cut) :=
  Quiet.watched ((quiet_totals _).bind fun _ => (quiet_passing fun _ => rfl).bind fun _ =>
    (quiet_passing fun _ => rfl).bind fun _ => quiet_passing fun _ => rfl)

/-- A question is answered without a change. -/
theorem quiet_ask (q : EngineQuery) : Quiet ((inMemory audit settings).ask q) := by
  cases q with
  | verifyCommit reference effects =>
    exact (quiet_passing fun _ => rfl).bind fun _ =>
      (quiet_passing fun _ => rfl).bind fun _ => quiet_pure _
  | snapshotCut t =>
    exact (quiet_totals _).bind fun _ => (quiet_passing fun _ => rfl).bind fun _ => quiet_pure _
  | detect cut => exact quiet_detect cut
  | suggest cut => exact (quiet_detect cut).bind fun _ => quiet_pure _
  | batchAgeing today within => exact (quiet_passing fun _ => rfl).bind fun _ => quiet_pure _
  | ageingReport today => exact (quiet_passing fun _ => rfl).bind fun _ => quiet_pure _
  | defaultExpireAt now =>
    show Quiet (defaultExpireAt _ now)
    unfold defaultExpireAt
    split
    · exact quiet_pure _
    · exact quiet_throw _
  | getReservation id => exact quiet_passing fun _ => rfl
  | findExpired now limit => exact quiet_passing fun _ => rfl
  | plan item warehouse quantity options => exact quiet_plan item warehouse quantity options
  | allocationStats => exact quiet_get.bind fun _ => quiet_pure _
  | ledgerDiagnostics since upTo =>
    exact (quiet_passing fun _ => rfl).bind fun _ => quiet_passing fun _ => rfl
  | insights now => exact (quiet_insightCounts now).bind fun _ => quiet_pure _

end Engine

/-! ## How an action can end -/

/-- The ways in which an action can end. -/
inductive EngineEnding (audit : AuditSink τ) (c : EngineCore MemoryState τ) :
    (a : EngineAction) → Except EngineError a.Answer → EngineCore MemoryState τ → Prop where
  | went {a : EngineAction} {answer : Except EngineError a.Answer} {d : EngineCore MemoryState τ}
      (changes : EngineChanges audit c d)
      (unplanned : EngineReply.planned? ⟨a, answer⟩ = none) : EngineEnding audit c a answer d
  | opened {fresh : Uuid} {n : NewReservation} {now : Instant} {r : Reservation}
      (unknown : c.store.reservations.byKey.get? n.key = none)
      (started : Reservation.start fresh n now = .ok r) :
      EngineEnding audit c (.createReservation fresh n now) (.ok ⟨r, true⟩)
        (c.reserved audit
          ({ c.store.reservations with
            byKey := c.store.reservations.byKey.insert n.key r.id }.put r) [r.toldOpened])
  | allocated {r : AllocationRequest} {a : AllocationResult} {t : StockState}
      (written : a.replayed = false) (changes : Changes c.store.stock t)
      (ledger : t.ledger = c.store.stock.ledger ++ a.entries) :
      EngineEnding audit c (.allocate r) (.ok a)
        { c.stocked audit t a.entries with stats := c.stats.record a.plan.outcome }

namespace EngineEnding

variable {a : EngineAction} {answer : Except EngineError a.Answer}
  {x : EngineM MemoryState τ a.Answer} {u : EngineState MemoryState τ}

theorem of_run (h : ∃ v, x.runFrom u = (answer, v) ∧ v.core = d)
    (ending : EngineEnding audit c a answer d) :
    EngineEnding audit c a (x.runFrom u).1 (x.runFrom u).2.core := by
  obtain ⟨v, hrun, rfl⟩ := h
  rw [hrun]
  exact ending

/-- An action may leave all that counts as it was. -/
theorem kept (unplanned : EngineReply.planned? ⟨a, answer⟩ = none) :
    EngineEnding audit c a answer c := .went .refl unplanned

/-- A store that is changed in batches or snapshots only has nothing to tell. -/
theorem unwritten {t : StockState} (changes : Changes c.store.stock t)
    (ledger : t.ledger = c.store.stock.ledger)
    (unplanned : EngineReply.planned? ⟨a, answer⟩ = none) :
    EngineEnding audit c a answer { c with store := { c.store with stock := t } } := by
  have hledger : t.ledger = c.store.stock.ledger ++ [] := by rw [ledger, List.append_nil]
  exact .went (.single (.stocked changes hledger)) unplanned

end EngineEnding

namespace Engine

variable (u : EngineState MemoryState τ)

theorem ending_apply (m : Movement) :
    EngineEnding audit u.core (.apply m) (((inMemory audit settings).apply m).runFrom u).1
      (((inMemory audit settings).apply m).runFrom u).2.core := by
  have hwriting := MemoryStock.writing m u.store.stock
  have happly := MemoryStock.runFrom_apply m u.store.stock
  generalize (MemoryStock.write m).runFrom u.store.stock = out at happly hwriting
  have hstore : ((inMemory audit settings).stock.apply m).runFrom u.store =
      (out.1.map Prod.fst, { u.store with stock := out.2 }) := MemoryState.runFrom_onStock happly
  cases hwriting with
  | refused e => exact .of_run (runFrom_watched_passing_bind_error hstore _) (.kept rfl)
  | replayed valid found => exact .of_run (apply_of_ok hstore) (.kept rfl)
  | unchanged valid zero => exact .of_run (apply_of_ok hstore) (.kept rfl)
  | @entered t after readied admitted =>
    have hchanges : Changes u.store.stock (t.enter m after) :=
      readied.changes.trans (.single (.entered admitted))
    have hledger : (t.enter m after).ledger = u.store.stock.ledger ++ [t.entryFor m after] := by
      rw [StockState.ledger_enter, readied.ledger_eq]
    have hchange : EngineChange audit u.core
        (u.core.stocked audit (t.enter m after) [t.entryFor m after]) := .stocked hchanges hledger
    exact .of_run (apply_of_ok hstore) (.went (.single hchange) rfl)

theorem ending_allocate (hu : u.store.Sound) (r : AllocationRequest) :
    EngineEnding audit u.core (.allocate r) (((inMemory audit settings).allocate r).runFrom u).1
      (((inMemory audit settings).allocate r).runFrom u).2.core := by
  have hmoves := MemoryStock.allocate_moves r u.store.stock
  rcases MemoryStock.allocate_cases hu.stocked r with ⟨e, h⟩ | ⟨legs, h⟩ | ⟨p, -, -, h⟩
  · have hstore : ((inMemory audit settings).stock.allocate r).runFrom u.store = (.error _, _) :=
      MemoryState.runFrom_onStock h
    exact .of_run (runFrom_watched_passing_bind_error hstore _) (.kept rfl)
  · have hstore : ((inMemory audit settings).stock.allocate r).runFrom u.store = (.ok _, _) :=
      MemoryState.runFrom_onStock h
    exact .of_run (allocate_of_ok hstore) (.kept rfl)
  · have hstore : ((inMemory audit settings).stock.allocate r).runFrom u.store = (.ok _, _) :=
      MemoryState.runFrom_onStock h
    rw [h] at hmoves
    exact .of_run (allocate_of_ok hstore)
      (.allocated rfl hmoves (StockState.ledger_enterAll _ _))

theorem ending_resolveBatch (item : ItemId) (warehouse : WarehouseId) (code : String)
    (production expiry : Option Date) (on : Date) :
    EngineEnding audit u.core (.resolveBatch item warehouse code production expiry on)
      (((inMemory audit settings).resolveBatch item warehouse code production expiry on).runFrom
        u).1
      (((inMemory audit settings).resolveBatch item warehouse code production expiry on).runFrom
        u).2.core := by
  have hmoves := MemoryStock.resolveBatch_moves item warehouse code production expiry on
    u.store.stock
  rcases MemoryStock.resolveBatch_cases item warehouse code production expiry on u.store.stock with
    ⟨e, h⟩ | ⟨b, t, h, ht⟩
  · have hstore : ((inMemory audit settings).stock.resolveBatch item warehouse code production
        expiry on).runFrom u.store = (.error _, _) := MemoryState.runFrom_onStock h
    exact .of_run (runFrom_watched_passing hstore) (.kept rfl)
  · have hstore : ((inMemory audit settings).stock.resolveBatch item warehouse code production
        expiry on).runFrom u.store = (.ok _, _) := MemoryState.runFrom_onStock h
    have hledger : t.ledger = u.store.stock.ledger := by
      rcases ht with rfl | ⟨-, rfl⟩ <;> rfl
    rw [h] at hmoves
    exact .of_run (runFrom_watched_passing hstore) (.unwritten hmoves hledger rfl)

theorem ending_correctExpiry (item : ItemId) (warehouse : WarehouseId) (code : String)
    (expiry : Option Date) :
    EngineEnding audit u.core (.correctExpiry item warehouse code expiry)
      (((inMemory audit settings).correctExpiry item warehouse code expiry).runFrom u).1
      (((inMemory audit settings).correctExpiry item warehouse code expiry).runFrom u).2.core := by
  have hmoves := MemoryStock.correctExpiry_moves item warehouse code expiry u.store.stock
  rcases MemoryStock.correctExpiry_cases item warehouse code expiry u.store.stock with
    ⟨e, h⟩ | ⟨i, b, -, -, h⟩
  · have hstore : ((inMemory audit settings).stock.correctExpiry item warehouse code
        expiry).runFrom u.store = (.error _, _) := MemoryState.runFrom_onStock h
    exact .of_run (runFrom_watched_passing hstore) (.kept rfl)
  · have hstore : ((inMemory audit settings).stock.correctExpiry item warehouse code
        expiry).runFrom u.store = (.ok _, _) := MemoryState.runFrom_onStock h
    rw [h] at hmoves
    exact .of_run (runFrom_watched_passing hstore) (.unwritten hmoves rfl rfl)

theorem ending_createReservation (fresh : Uuid) (n : NewReservation) (now : Instant) :
    EngineEnding audit u.core (.createReservation fresh n now)
      (((inMemory audit settings).createReservation fresh n now).runFrom u).1
      (((inMemory audit settings).createReservation fresh n now).runFrom u).2.core := by
  rcases MemoryReservations.create_cases fresh n now u.store.reservations with
    ⟨e, h⟩ | ⟨id, r, q, -, hid, hq, h⟩ | ⟨r, hkey, hr, h⟩
  · have hstore : ((inMemory audit settings).reservations.create fresh n now).runFrom u.store =
        (.error _, _) := MemoryState.runFrom_onReservations h
    exact .of_run (runFrom_watched_passing_bind_error hstore _) (.kept rfl)
  · have hstore : ((inMemory audit settings).reservations.create fresh n now).runFrom u.store =
        (.ok _, _) := MemoryState.runFrom_onReservations h
    have hchange := EngineChange.refreshed audit u.core hid hq
    exact .of_run (createReservation_of_ok hstore) (.went (.single hchange) rfl)
  · have hstore : ((inMemory audit settings).reservations.create fresh n now).runFrom u.store =
        (.ok _, _) := MemoryState.runFrom_onReservations h
    exact .of_run (createReservation_of_ok hstore) (.opened hkey hr)

theorem ending_consumeReservation (id : Uuid) (now : Instant) :
    EngineEnding audit u.core (.consumeReservation id now)
      (((inMemory audit settings).consumeReservation id now).runFrom u).1
      (((inMemory audit settings).consumeReservation id now).runFrom u).2.core := by
  rcases MemoryReservations.consume_cases id now u.store.reservations with
    ⟨e, h⟩ | ⟨r, q, outcome, hid, hq, h⟩
  · have hstore : ((inMemory audit settings).reservations.consume id now).runFrom u.store =
        (.error _, _) := MemoryState.runFrom_onReservations h
    exact .of_run (runFrom_watched_passing_bind_error hstore _) (.kept rfl)
  · have hstore : ((inMemory audit settings).reservations.consume id now).runFrom u.store =
        (.ok _, _) := MemoryState.runFrom_onReservations h
    have hchange : EngineChange audit u.core (u.core.reserved audit _ (r.toldTurn q)) :=
      .turned hid (.consumed hq)
    rw [Reservation.toldTurn_of_consume hq] at hchange
    exact .of_run (consumeReservation_of_ok hstore) (.went (.single hchange) rfl)

theorem ending_cancelReservation (id : Uuid) (now : Instant) :
    EngineEnding audit u.core (.cancelReservation id now)
      (((inMemory audit settings).cancelReservation id now).runFrom u).1
      (((inMemory audit settings).cancelReservation id now).runFrom u).2.core := by
  rcases MemoryReservations.cancel_cases id now u.store.reservations with
    ⟨e, h⟩ | ⟨r, q, hid, hq, h⟩
  · have hstore : ((inMemory audit settings).reservations.cancel id now).runFrom u.store =
        (.error _, _) := MemoryState.runFrom_onReservations h
    exact .of_run (runFrom_watched_passing_bind_error hstore _) (.kept rfl)
  · have hstore : ((inMemory audit settings).reservations.cancel id now).runFrom u.store =
        (.ok _, _) := MemoryState.runFrom_onReservations h
    have hchange : EngineChange audit u.core (u.core.reserved audit _ (r.toldTurn q)) :=
      .turned hid (.cancelled hq)
    rw [Reservation.toldTurn_of_cancel hq] at hchange
    exact .of_run (cancelReservation_of_ok hstore) (.went (.single hchange) rfl)

end Engine

/-- Every action ends in one of the listed ways. -/
theorem EngineAction.ending {u : EngineState MemoryState τ} (hu : u.store.Sound)
    (a : EngineAction) :
    EngineEnding audit u.core a (((Engine.inMemory audit settings).step a).runFrom u).1
      (((Engine.inMemory audit settings).step a).runFrom u).2.core := by
  cases a with
  | apply m => exact Engine.ending_apply u m
  | allocate r => exact Engine.ending_allocate u hu r
  | resolveBatch item warehouse code production expiry on =>
    exact Engine.ending_resolveBatch u item warehouse code production expiry on
  | correctExpiry item warehouse code expiry =>
    exact Engine.ending_correctExpiry u item warehouse code expiry
  | rebuildSnapshot d =>
    have hstore : ((Engine.inMemory audit settings).stock.rebuildSnapshot d).runFrom u.store =
        (.ok _, { u.store with stock :=
          u.store.stock.putSnapshot d (snapshotRows d u.store.stock.ledger) }) := rfl
    exact .of_run (runFrom_watched_passing hstore)
      (.unwritten (.single (.photographed _ d)) rfl rfl)
  | createReservation fresh n now => exact Engine.ending_createReservation u fresh n now
  | consumeReservation id now => exact Engine.ending_consumeReservation u id now
  | cancelReservation id now => exact Engine.ending_cancelReservation u id now
  | release id now => exact .went (Engine.goes_release id now u hu) rfl
  | sweep rounds now batchSize => exact .went (Sweep.goes_run rounds now batchSize u hu) rfl
  | sweepExpired rounds now => exact .went (Sweep.goes_run rounds now _ u hu) rfl
  | query q =>
    have hcore : (((Engine.inMemory audit settings).ask q).runFrom u).2.core = u.core :=
      Engine.quiet_ask q u
    exact .of_run ⟨_, rfl, hcore⟩ (.kept rfl)
  | tick clock =>
    exact .of_run ⟨_, rfl, rfl⟩ (.unwritten (.single (.tick u.store.stock clock)) rfl rfl)

theorem EngineEnding.sound {a : EngineAction} {answer : Except EngineError a.Answer}
    (h : EngineEnding audit c a answer d) (hc : c.store.Sound) : d.store.Sound := by
  cases h with
  | went changes _ => exact changes.sound hc
  | opened unknown started =>
    exact ⟨hc.stocked, ReservationState.Filed.change (.opened unknown started) hc.filed⟩
  | allocated _ changes _ => exact ⟨hc.stocked.changes changes, hc.filed⟩

/-! ## What is told along the way -/

/-- From one core to another some events were told. If `P` held of the stores and all that was told
before, it holds of what the stores are now and all that has been told since. -/
def Recounts (audit : AuditSink τ) (P : MemoryState → List (InventoryEvent × TraceId) → Prop)
    (c d : EngineCore MemoryState τ) : Prop :=
  ∃ events, d.audit = audit.tell events c.audit ∧
    ∀ told, P c.store told → P d.store (told ++ events)

namespace Recounts

variable {P : MemoryState → List (InventoryEvent × TraceId) → Prop}

theorem refl (c : EngineCore MemoryState τ) : Recounts audit P c c :=
  ⟨[], rfl, fun told h => by rwa [List.append_nil]⟩

theorem trans {e : EngineCore MemoryState τ} (h : Recounts audit P c d)
    (h' : Recounts audit P d e) : Recounts audit P c e := by
  obtain ⟨events, haudit, hkeep⟩ := h
  obtain ⟨events', haudit', hkeep'⟩ := h'
  refine ⟨events ++ events', ?_, fun told hold => ?_⟩
  · rw [haudit', haudit, AuditSink.tell_append]
  · rw [← List.append_assoc]
    exact hkeep' _ (hkeep told hold)

theorem of_changes (hchange : ∀ {c d}, EngineChange audit c d → Recounts audit P c d)
    (h : EngineChanges audit c d) : Recounts audit P c d := by
  induction h with
  | refl => exact .refl _
  | tail _ hd ih => exact ih.trans (hchange hd)

end Recounts

/-! ## An engine with a listener -/

/-- An engine over memory that publishes to a bus in memory, in envelopes numbered by `ids`. -/
def Engine.overBus (ids : Nat → Uuid) (settings : EngineSettings) :
    Engine MemoryState (BusAudit (Bus Envelope)) := .inMemory (.ofBus .memory ids) settings

/-- Such an engine that starts to work, its bus with one subscription. -/
def EngineState.listening (clock : Instant) (retention : Nat) :
    EngineState MemoryState (BusAudit (Bus Envelope)) :=
  .start (.empty clock) ⟨((Bus.empty retention).subscribe).2, 0⟩

/-- What the subscription has received. -/
def EngineState.received (u : EngineState MemoryState (BusAudit (Bus Envelope))) :
    List Envelope := u.audit.bus.queueOf 0

/-- What holds of no stores, and is kept while it is told what happens, holds of the stores and of
all that the subscription has received. -/
theorem Recounts.received {P : MemoryState → List (InventoryEvent × TraceId) → Prop}
    {ids : Nat → Uuid} {clock : Instant} {retention : Nat}
    {u : EngineState MemoryState (BusAudit (Bus Envelope))}
    (h : Recounts (.ofBus .memory ids) P (EngineState.listening clock retention).core u.core)
    (start : P (.empty clock) []) :
    ∃ told, u.received.map Envelope.unnumbered = told.map envelopeOf ∧ P u.store told := by
  obtain ⟨events, haudit, hkeep⟩ := h
  have hears := (hears_subscribe retention 0).tell ids events
  refine ⟨events, ?_, hkeep [] start⟩
  rw [EngineState.received]
  replace haudit : u.audit = (AuditSink.ofBus .memory ids).tell events _ := haudit
  rw [haudit]
  exact hears.heard

namespace Sample

/-- An engine on a bus with a listener, after some actions. -/
def engineAfter (actions : List EngineAction) : EngineState MemoryState (BusAudit (Bus Envelope)) :=
  ((Engine.overBus .ofNat (.ofConfig {})).run actions (.listening .epoch 0)).2

end Sample

end Stockroom
