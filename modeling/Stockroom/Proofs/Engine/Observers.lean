/-
Stockroom.Proofs.Engine.Observers — what an engine does is independent of who watches it.

* The substance of an engine's state is its stores and its counts of allocations. Its sink, its
  metrics, its alerts and its log are there for those who watch.
* `Alike` compares two steps whose sinks may be of different kinds: from the same substance they
  give the same answer and leave the same substance. Steps that only tell are alike, whatever they
  tell (`Reports.alike`), and sequences of alike steps are.
* `Engine.observedBy` replaces the sink of an engine, and says anew whether it checks what it has
  changed. Whatever the stores of the engine are, its sweeps, its reservations and its questions are
  alike for both. A movement and an allocation are where the rows and balances of a check are read
  without a change, as they are in memory. Every action over memory is therefore alike
  (`alike_step`), and every run.
-/
import Stockroom.Proofs.Engine.History

namespace Stockroom

/-- What an answer can depend on. -/
def EngineState.substance {σ τ : Type} (u : EngineState σ τ) : σ × FefoStats := (u.store, u.stats)

namespace EngineM

variable {σ τ τ' α β : Type}

/-- Whether two steps answer the same and leave the same substance, from the same substance. -/
def Alike (x : EngineM σ τ α) (y : EngineM σ τ' α) : Prop :=
  ∀ u v, u.substance = v.substance →
    (x.runFrom u).1 = (y.runFrom v).1 ∧ (x.runFrom u).2.substance = (y.runFrom v).2.substance

/-! ## Single steps -/

theorem alike_pure (a : α) : Alike (pure a : EngineM σ τ α) (pure a : EngineM σ τ' α) :=
  fun _ _ h => ⟨rfl, h⟩

theorem alike_throw (e : EngineError) :
    Alike (throw e : EngineM σ τ α) (throw e : EngineM σ τ' α) :=
  fun _ _ h => ⟨rfl, h⟩

theorem alike_attempt (x : StoreM σ α) :
    Alike (attempt x : EngineM σ τ _) (attempt x : EngineM σ τ' _) := by
  intro u v h
  obtain ⟨hstore, hstats⟩ := Prod.mk.inj h
  simp only [runFrom_attempt, EngineState.substance, hstore, hstats, and_self]

/-- What only tells does not change the substance. -/
theorem Reports.alike {engine : Engine σ τ} {engine' : Engine σ τ'}
    {es es' : List (InventoryEvent × TraceId)} {a : α} {x : EngineM σ τ α} {y : EngineM σ τ' α}
    (hx : Reports engine es a x) (hy : Reports engine' es' a y) : Alike x y := by
  intro u v h
  obtain ⟨hstore, hstats⟩ := Prod.mk.inj h
  obtain ⟨u', hu, hcore⟩ := hx u
  obtain ⟨v', hv, hcore'⟩ := hy v
  obtain ⟨hstore₁, -, hstats₁⟩ := EngineCore.mk.inj hcore
  obtain ⟨hstore₂, -, hstats₂⟩ := EngineCore.mk.inj hcore'
  rw [hu, hv]
  refine ⟨rfl, Prod.ext ?_ ?_⟩
  · exact hstore₁.trans (hstore.trans hstore₂.symm)
  · exact hstats₁.trans (hstats.trans hstats₂.symm)

theorem alike_count (m : Metric) (n : Nat) :
    Alike (count m n : EngineM σ τ Unit) (count m n : EngineM σ τ' Unit) := fun _ _ h => ⟨rfl, h⟩

theorem alike_log (l : LogLine) : Alike (log l : EngineM σ τ Unit) (log l : EngineM σ τ' Unit) :=
  fun _ _ h => ⟨rfl, h⟩

/-- The counts of allocations grow in step. -/
theorem alike_record (outcome : FefoOutcome) :
    Alike (modify fun s => { s with stats := s.stats.record outcome } : EngineM σ τ Unit)
      (modify fun s => { s with stats := s.stats.record outcome } : EngineM σ τ' Unit) := by
  intro u v h
  obtain ⟨hstore, hstats⟩ := Prod.mk.inj h
  exact ⟨rfl, Prod.ext hstore (congrArg (·.record outcome) hstats)⟩

theorem alike_publishClosed (engine : Engine σ τ) (engine' : Engine σ τ') (r : Reservation) :
    Alike (publishClosed engine r) (publishClosed engine' r) :=
  (reports_publishClosed r).alike (reports_publishClosed r)

/-! ## Sequences -/

/-- The second parts start from the same substance, if the first parts succeed. -/
theorem Alike.bind {x : EngineM σ τ α} {y : EngineM σ τ' α} {f : α → EngineM σ τ β}
    {g : α → EngineM σ τ' β} (hx : Alike x y) (hf : ∀ a, Alike (f a) (g a)) :
    Alike (x >>= f) (y >>= g) := by
  intro u v h
  have hfirst := hx u v h
  rw [runFrom_bind, runFrom_bind]
  rcases hu : x.runFrom u with ⟨answer, u'⟩
  rcases hv : y.runFrom v with ⟨answer', v'⟩
  rw [hu, hv] at hfirst
  obtain ⟨rfl, hleft⟩ : answer = answer' ∧ u'.substance = v'.substance := hfirst
  cases answer with
  | error e => exact ⟨rfl, hleft⟩
  | ok a => exact hf a u' v' hleft

theorem alike_passing {wrap : StoreError → EngineError} (x : StoreM σ α) :
    Alike (passing wrap x : EngineM σ τ α) (passing wrap x : EngineM σ τ' α) := by
  refine (alike_attempt x).bind fun answer => ?_
  cases answer with
  | ok a => exact alike_pure a
  | error e => exact alike_throw (wrap e)

/-- To watch a step adds a line to the log at most. -/
theorem Alike.watched {x : EngineM σ τ α} {y : EngineM σ τ' α} (h : Alike x y) :
    Alike (watched x) (watched y) := by
  intro u v hsame
  obtain ⟨hanswer, hleft⟩ := h u v hsame
  obtain ⟨u', hu, hcore⟩ := runFrom_watched x u
  obtain ⟨v', hv, hcore'⟩ := runFrom_watched y v
  rw [hu, hv]
  have hkept : u'.substance = (x.runFrom u).2.substance :=
    congrArg (fun c => (c.store, c.stats)) hcore
  have hkept' : v'.substance = (y.runFrom v).2.substance :=
    congrArg (fun c => (c.store, c.stats)) hcore'
  exact ⟨hanswer, by rw [hkept, hkept', hleft]⟩

theorem alike_watched_passing {wrap : StoreError → EngineError} (x : StoreM σ α) :
    Alike (watched (passing wrap x) : EngineM σ τ α) (watched (passing wrap x) : EngineM σ τ' α) :=
  (alike_passing x).watched

end EngineM

open EngineM

variable {σ τ τ' : Type}

/-- The engine with another sink, and with or without a check of what it has changed. -/
def Engine.observedBy (engine : Engine σ τ) (audit : AuditSink τ') (verify : Bool) : Engine σ τ' :=
  ⟨engine.stock, engine.reservations, audit, { engine.settings with verifyCommits := verify },
    engine.arithmetic⟩

section

variable (engine : Engine σ τ) (audit' : AuditSink τ') (verify : Bool)

/-! ## Sweeps -/

namespace Sweep

theorem alike_publishExpired (id : Uuid) :
    Alike (publishExpired engine id) (publishExpired (engine.observedBy audit' verify) id) := by
  refine (alike_attempt (engine.reservations.get id)).bind fun answer => ?_
  cases answer with
  | error e => exact alike_log _
  | ok found =>
    cases found with
    | none => exact alike_pure ()
    | some r => exact alike_publishClosed _ _ r

theorem alike_releaseOne (now : Instant) (report : SweepReport) (id : Uuid) :
    Alike (releaseOne engine now report id)
      (releaseOne (engine.observedBy audit' verify) now report id) := by
  refine (alike_attempt (engine.reservations.release id now)).bind fun answer => ?_
  rcases answer with e | ended | found
  · exact (alike_log _).bind fun _ => (alike_log _).bind fun _ => alike_pure _
  · exact (alike_publishExpired engine audit' verify ended).bind fun _ => alike_pure _
  · exact alike_pure _

theorem alike_releaseAll (now : Instant) (report : SweepReport) (ids : List Uuid) :
    Alike (releaseAll engine now report ids)
      (releaseAll (engine.observedBy audit' verify) now report ids) := by
  induction ids generalizing report with
  | nil => exact alike_pure report
  | cons id rest ih =>
    exact (alike_releaseOne engine audit' verify now report id).bind fun next => ih next

theorem alike_drain (now : Instant) (batchSize rounds : Nat) (report : SweepReport) :
    Alike (drain engine now batchSize rounds report)
      (drain (engine.observedBy audit' verify) now batchSize rounds report) := by
  induction rounds generalizing report with
  | zero => exact alike_throw _
  | succ rounds ih =>
    refine (alike_passing (engine.reservations.findExpired now _)).bind fun ids => ?_
    dsimp only
    split
    · exact alike_pure _
    · refine (alike_releaseAll engine audit' verify now _ _).bind fun next => ?_
      split
      · exact alike_pure next
      · exact ih next

theorem alike_run (rounds : Nat) (now : Instant) (batchSize : Nat) :
    Alike (run engine rounds now batchSize)
      (run (engine.observedBy audit' verify) rounds now batchSize) := by
  refine Alike.watched ?_
  split
  · exact alike_throw _
  · refine (alike_drain engine audit' verify now batchSize rounds .zero).bind
      fun report => (alike_count _ _).bind fun _ => ?_
    split
    · exact (alike_log _).bind fun _ => alike_pure report
    · exact alike_pure report

end Sweep

namespace Engine

/-! ## Reservations -/

theorem alike_createReservation (fresh : Uuid) (n : NewReservation) (now : Instant) :
    Alike (engine.createReservation fresh n now)
      ((engine.observedBy audit' verify).createReservation fresh n now) := by
  refine (alike_watched_passing (engine.reservations.create fresh n now)).bind fun c => ?_
  cases c.created with
  | false => exact alike_pure c
  | true =>
    exact ((reports_publish _ _).alike (reports_publish _ _)).bind fun _ => alike_pure c

theorem alike_consumeReservation (id : Uuid) (now : Instant) :
    Alike (engine.consumeReservation id now)
      ((engine.observedBy audit' verify).consumeReservation id now) := by
  refine (alike_watched_passing (engine.reservations.consume id now)).bind fun p => ?_
  obtain ⟨r, outcome⟩ := p
  cases outcome with
  | noop => exact alike_pure _
  | consumed => exact (alike_publishClosed _ _ r).bind fun _ => alike_pure _

theorem alike_cancelReservation (id : Uuid) (now : Instant) :
    Alike (engine.cancelReservation id now)
      ((engine.observedBy audit' verify).cancelReservation id now) :=
  (alike_watched_passing (engine.reservations.cancel id now)).bind fun r =>
    (alike_publishClosed _ _ r).bind fun _ => alike_pure r

theorem alike_release (id : Uuid) (now : Instant) :
    Alike (engine.release id now) ((engine.observedBy audit' verify).release id now) := by
  refine (alike_watched_passing (engine.reservations.release id now)).bind fun outcome => ?_
  cases outcome.isExpired with
  | false => exact alike_pure outcome
  | true =>
    refine (alike_passing (engine.reservations.get id)).bind fun found => ?_
    cases found with
    | none => exact alike_pure outcome
    | some r => exact (alike_publishClosed _ _ r).bind fun _ => alike_pure outcome

/-! ## Questions -/

theorem alike_detect (cut : Instant) :
    Alike (engine.detect cut) ((engine.observedBy audit' verify).detect cut) :=
  Alike.watched ((alike_watched_passing _).bind fun _ => (alike_passing _).bind fun _ =>
    (alike_passing _).bind fun _ => alike_passing _)

theorem alike_insightCounts (now : Instant) :
    Alike (engine.insightCounts now) ((engine.observedBy audit' verify).insightCounts now) := by
  unfold insightCounts
  split
  · exact alike_throw _
  · exact (alike_passing _).bind fun _ => (alike_watched_passing _).bind fun _ =>
      (alike_passing _).bind fun _ => (alike_passing _).bind fun _ =>
        (alike_passing _).bind fun _ => alike_pure _

end Engine

end

/-! ## Movements and allocations -/

variable (audit : AuditSink τ) (settings : EngineSettings) (audit' : AuditSink τ') (verify : Bool)

namespace Engine

/-- A check is silent whether it is made or not. -/
theorem alike_checkCommitted (operation reference : String) (effects : List CommitEffect) :
    Alike ((inMemory audit settings).checkCommitted operation reference effects)
      (((inMemory audit settings).observedBy audit' verify).checkCommitted operation reference
        effects) :=
  (reports_checkCommitted operation reference effects).alike
    (reports_checkCommitted operation reference effects)

theorem alike_apply (m : Movement) :
    Alike ((inMemory audit settings).apply m)
      (((inMemory audit settings).observedBy audit' verify).apply m) := by
  refine (alike_watched_passing (MemoryState.stockStore.apply m)).bind fun o => ?_
  obtain ⟨key, before, delta, after, applied, ledgerId⟩ := o
  cases applied with
  | false => exact alike_pure _
  | true =>
    cases ledgerId with
    | none => exact alike_pure _
    | some id =>
      exact ((reports_publish _ _).alike (reports_publish _ _)).bind fun _ =>
        (alike_count _ _).bind fun _ =>
          (alike_checkCommitted audit settings audit' verify _ _ _).bind fun _ => alike_pure _

theorem alike_allocate (r : AllocationRequest) :
    Alike ((inMemory audit settings).allocate r)
      (((inMemory audit settings).observedBy audit' verify).allocate r) := by
  refine (alike_watched_passing (MemoryState.stockStore.allocate r)).bind fun a => ?_
  cases a.replayed with
  | true => exact alike_pure a
  | false =>
    exact (alike_count _ _).bind fun _ => (alike_record a.plan.outcome).bind fun _ =>
      ((reports_publishEntries a.entries).alike (reports_publishEntries a.entries)).bind fun _ =>
        (alike_checkCommitted audit settings audit' verify _ _ _).bind fun _ => alike_pure a

/-! ## Actions and runs -/

theorem alike_ask (q : EngineQuery) :
    Alike ((inMemory audit settings).ask q)
      (((inMemory audit settings).observedBy audit' verify).ask q) := by
  cases q with
  | verifyCommit reference effects =>
    exact (alike_passing _).bind fun _ => (alike_passing _).bind fun _ => alike_pure _
  | snapshotCut t =>
    exact (alike_watched_passing _).bind fun _ => (alike_passing _).bind fun _ => alike_pure _
  | detect cut => exact alike_detect _ audit' verify cut
  | suggest cut => exact (alike_detect _ audit' verify cut).bind fun _ => alike_pure _
  | batchAgeing today within => exact (alike_passing _).bind fun _ => alike_pure _
  | ageingReport today => exact (alike_passing _).bind fun _ => alike_pure _
  | defaultExpireAt now =>
    show Alike (defaultExpireAt _ now) (defaultExpireAt _ now)
    unfold defaultExpireAt
    dsimp only [observedBy, inMemory]
    split
    · exact alike_pure _
    · exact alike_throw _
  | getReservation id => exact alike_passing _
  | findExpired now limit => exact alike_passing _
  | plan item warehouse quantity options => exact alike_passing _
  | allocationStats => exact fun u v h => ⟨congrArg Except.ok (Prod.mk.inj h).2, h⟩
  | ledgerDiagnostics since upTo =>
    exact (alike_passing _).bind fun _ => alike_passing _
  | insights now =>
    exact (alike_insightCounts _ audit' verify now).bind fun _ => alike_pure _

theorem alike_step (a : EngineAction) :
    Alike ((inMemory audit settings).step a)
      (((inMemory audit settings).observedBy audit' verify).step a) := by
  cases a with
  | apply m => exact alike_apply audit settings audit' verify m
  | allocate r => exact alike_allocate audit settings audit' verify r
  | resolveBatch item warehouse code production expiry on => exact alike_watched_passing _
  | correctExpiry item warehouse code expiry => exact alike_watched_passing _
  | rebuildSnapshot d => exact alike_watched_passing _
  | createReservation fresh n now => exact alike_createReservation _ audit' verify fresh n now
  | consumeReservation id now => exact alike_consumeReservation _ audit' verify id now
  | cancelReservation id now => exact alike_cancelReservation _ audit' verify id now
  | release id now => exact alike_release _ audit' verify id now
  | sweep rounds now batchSize => exact Sweep.alike_run _ audit' verify rounds now batchSize
  | sweepExpired rounds now => exact Sweep.alike_run _ audit' verify rounds now _
  | query q => exact alike_ask audit settings audit' verify q
  | tick clock =>
    intro u v h
    obtain ⟨hstore, hstats⟩ := Prod.mk.inj h
    refine ⟨rfl, Prod.ext ?_ hstats⟩
    exact congrArg (fun s : MemoryState => { s with stock := { s.stock with clock } }) hstore

theorem alike_run (actions : List EngineAction) {u : EngineState MemoryState τ}
    {v : EngineState MemoryState τ'} (h : u.substance = v.substance) :
    ((inMemory audit settings).run actions u).1 =
        (((inMemory audit settings).observedBy audit' verify).run actions v).1 ∧
      ((inMemory audit settings).run actions u).2.substance =
        (((inMemory audit settings).observedBy audit' verify).run actions v).2.substance := by
  induction actions generalizing u v with
  | nil => exact ⟨rfl, h⟩
  | cons a rest ih =>
    obtain ⟨hanswer, hleft⟩ := alike_step audit settings audit' verify a u v h
    obtain ⟨hreplies, hend⟩ := ih hleft
    rw [run_cons, run_cons]
    exact ⟨by rw [hanswer, hreplies], hend⟩

/-- Nothing that an engine over memory answers, stores or counts depends on its sink, nor on
whether it checks what it has changed. The sinks may be of any kind: one that discards every event,
or one in front of a bus that refuses every envelope. -/
theorem run_unaffected_by_observers (actions : List EngineAction) (store : MemoryState) (a : τ)
    (a' : τ') :
    ((inMemory audit settings).run actions (.start store a)).1 =
        ((inMemory audit' { settings with verifyCommits := verify }).run actions
          (.start store a')).1 ∧
      ((inMemory audit settings).run actions (.start store a)).2.store =
        ((inMemory audit' { settings with verifyCommits := verify }).run actions
          (.start store a')).2.store ∧
      ((inMemory audit settings).run actions (.start store a)).2.stats =
        ((inMemory audit' { settings with verifyCommits := verify }).run actions
          (.start store a')).2.stats := by
  have hstart : (EngineState.start store a).substance = (EngineState.start store a').substance :=
    rfl
  obtain ⟨hreplies, hend⟩ := alike_run audit settings audit' verify actions hstart
  obtain ⟨hstore, hstats⟩ := Prod.mk.inj hend
  exact ⟨hreplies, hstore, hstats⟩

end Engine

end Stockroom
