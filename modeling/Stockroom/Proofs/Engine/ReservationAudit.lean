/-
Stockroom.Proofs.Engine.ReservationAudit — each reservation is told once when it opens and once when
it ends.

An end is told on four paths: where a reservation is consumed, cancelled or released it is told by
the call, and a sweep tells it for each one it ends. What they have in common is a turn of a stored
reservation, and `Turn.toldClosed` says that a turn adds to what was told of an end just what it is
told of now; a refresh, and whatever is asked of a reservation that is over, adds nothing. So what
is told of a reservation is its opening, and then its end if it has one (`ReservationsTold`).

Reservations that share an identifier could not be told apart. `Engine.RunsFresh` says of a run that
no request draws an identifier which is in use.
-/
import Stockroom.Proofs.Engine.History
import Stockroom.Proofs.Identity

namespace Stockroom

open EngineM

/-! ## Events of a reservation -/

/-- The reservation that an event is about. -/
def InventoryEvent.reservation? : InventoryEvent → Option Uuid
  | movementApplied .. => none
  | reservationCreated id _ _ _ => some id
  | reservationConsumed id _ _ => some id
  | reservationCancelled id _ _ => some id
  | reservationExpired id _ _ => some id

/-- What was told of a reservation. -/
def reservationPart (id : Uuid) (told : List (InventoryEvent × TraceId)) :
    List (InventoryEvent × TraceId) :=
  told.filter (fun e => e.1.reservation? == some id)

theorem reservationPart_append (id : Uuid) (told events : List (InventoryEvent × TraceId)) :
    reservationPart id (told ++ events) = reservationPart id told ++ reservationPart id events :=
  List.filter_append ..

theorem reservationPart_entries (id : Uuid) (entries : List LedgerEntry) :
    reservationPart id (entries.map LedgerEntry.told) = [] := by
  refine List.filter_eq_nil_iff.mpr fun e he => ?_
  obtain ⟨entry, -, rfl⟩ := List.mem_map.mp he
  exact Bool.false_ne_true

namespace Reservation

variable {r q : Reservation}

/-- Whether the event tells of the end of `r`: which one has ended, how, when and on whose
account. -/
structure TellsEnd (r : Reservation) (e : InventoryEvent × TraceId) : Prop where
  reservation : e.1.reservation? = some r.id
  eventType : e.1.eventType = "inventory.reservation." ++ r.status.text
  occurredAt : e.1.occurredAt = r.updatedAt
  trace : e.2 = r.trace

/-- Of a reservation that is over its end is told, and of one that is open nothing. -/
theorem toldClosed_cases (r : Reservation) :
    (r.status.isTerminal = false ∧ r.toldClosed = []) ∨
      (r.status.isTerminal = true ∧ ∃ e, r.toldClosed = [e] ∧ r.TellsEnd e) := by
  unfold toldClosed InventoryEvent.ofClosed?
  cases hstatus : r.status with
  | «open» => exact .inl ⟨rfl, rfl⟩
  | consumed => exact .inr ⟨rfl, _, rfl, rfl, by rw [hstatus]; rfl, rfl, rfl⟩
  | cancelled => exact .inr ⟨rfl, _, rfl, rfl, by rw [hstatus]; rfl, rfl, rfl⟩
  | expired => exact .inr ⟨rfl, _, rfl, rfl, by rw [hstatus]; rfl, rfl, rfl⟩

theorem tellsEnd_of_mem_toldClosed {e : InventoryEvent × TraceId} (h : e ∈ r.toldClosed) :
    r.TellsEnd e := by
  rcases r.toldClosed_cases with ⟨-, hnone⟩ | ⟨-, e', hone, hend⟩
  · rw [hnone] at h
    cases h
  · rw [hone] at h
    rwa [List.mem_singleton.mp h]

theorem length_toldClosed (r : Reservation) :
    r.toldClosed.length = if r.status.isTerminal then 1 else 0 := by
  rcases r.toldClosed_cases with ⟨hopen, hnone⟩ | ⟨hover, e, hone, -⟩
  · rw [hnone, hopen]
    rfl
  · rw [hone, hover]
    rfl

theorem reservationPart_toldClosed (r : Reservation) :
    reservationPart r.id r.toldClosed = r.toldClosed := by
  refine List.filter_eq_self.mpr fun e he => ?_
  rw [(tellsEnd_of_mem_toldClosed he).reservation]
  exact beq_self_eq_true _

theorem reservationPart_toldClosed_other {id : Uuid} (h : r.id ≠ id) :
    reservationPart id r.toldClosed = [] := by
  refine List.filter_eq_nil_iff.mpr fun e he => ?_
  rw [(tellsEnd_of_mem_toldClosed he).reservation, beq_iff_eq, Option.some.injEq]
  exact h

/-- A turn adds the end of a reservation that was open until then, and nothing else. -/
theorem Turn.toldClosed (h : r.Turn q) : r.toldClosed ++ r.toldTurn q = q.toldClosed := by
  by_cases hopen : r.status = .open
  · rw [toldClosed_of_open hopen, toldTurn, if_pos hopen, List.nil_append]
  · have hsame : q = r := by
      rcases h.cases with hsame | ⟨hopen', -⟩
      · exact hsame
      · exact absurd hopen' hopen
    rw [toldTurn, if_neg hopen, List.append_nil, hsame]

theorem Turn.reservationPart_other {id : Uuid} (h : r.Turn q) (hid : r.id ≠ id) :
    reservationPart id (r.toldTurn q) = [] := by
  unfold toldTurn
  split
  · exact reservationPart_toldClosed_other (h.id_eq ▸ hid)
  · rfl

theorem Turn.reservationPart_self (h : r.Turn q) :
    reservationPart r.id (r.toldTurn q) = r.toldTurn q := by
  unfold toldTurn
  split
  · rw [← h.id_eq]
    exact reservationPart_toldClosed q
  · rfl

end Reservation

/-! ## What has been told -/

/-- What has been told of a reservation that is not stored: nothing. Of one that is stored: that it
was opened, and then that it has ended, if it has. -/
def ToldOf (id : Uuid) (told : List (InventoryEvent × TraceId)) : Option Reservation → Prop
  | none => reservationPart id told = []
  | some r => r.id = id ∧ ∃ opening, opening.1.eventType = "inventory.reservation.created" ∧
      reservationPart id told = opening :: r.toldClosed

/-- So much has been told of every reservation. -/
def ReservationsTold (s : MemoryState) (told : List (InventoryEvent × TraceId)) : Prop :=
  ∀ id, ToldOf id told (s.reservations.byId.get? id)

variable {τ : Type} {audit : AuditSink τ} {settings : EngineSettings}
  {c d : EngineCore MemoryState τ}

/-- Events of something else do not matter. -/
theorem ToldOf.append_other {id : Uuid} {told events : List (InventoryEvent × TraceId)}
    {found : Option Reservation} (h : ToldOf id told found)
    (hother : reservationPart id events = []) : ToldOf id (told ++ events) found := by
  cases found with
  | none =>
    show reservationPart id (told ++ events) = []
    rw [reservationPart_append, hother, List.append_nil]
    exact h
  | some r =>
    obtain ⟨hid, opening, htype, htold⟩ := h
    refine ⟨hid, opening, htype, ?_⟩
    rw [reservationPart_append, hother, List.append_nil, htold]

theorem EngineChange.recounts_reservations (h : EngineChange audit c d) :
    Recounts audit ReservationsTold c d := by
  cases h with
  | stocked changes ledger =>
    exact ⟨_, rfl, fun told h id => (h id).append_other (reservationPart_entries id _)⟩
  | @turned id r q known turn =>
    refine ⟨_, rfl, fun told h id' => ?_⟩
    obtain ⟨hid, opening, htype, htold⟩ : ToldOf id told (some r) := known ▸ h id
    show ToldOf id' _ ((c.store.reservations.byId.insert id q).get? id')
    rw [OrderedMap.get?_insert]
    by_cases hsame : id = id'
    · subst hsame
      rw [if_pos rfl]
      refine ⟨turn.id_eq.trans hid, opening, htype, ?_⟩
      have hpart : reservationPart id (r.toldTurn q) = r.toldTurn q :=
        hid ▸ turn.reservationPart_self
      rw [reservationPart_append, htold, hpart, List.cons_append, turn.toldClosed]
    · rw [if_neg hsame]
      exact (h id').append_other (turn.reservationPart_other (hid ▸ hsame))

/-- A reservation is opened under an identifier that was not in use, and that is told. -/
theorem recounts_opened {n : NewReservation} {fresh : Uuid} {now : Instant} {r : Reservation}
    (started : Reservation.start fresh n now = .ok r)
    (unused : c.store.reservations.byId.get? fresh = none) :
    Recounts audit ReservationsTold c
      (c.reserved audit
        ({ c.store.reservations with
          byKey := c.store.reservations.byKey.insert n.key r.id }.put r) [r.toldOpened]) := by
  obtain ⟨hid, hopen⟩ : r.id = fresh ∧ r.status = .open := by
    obtain ⟨-, rfl⟩ := Reservation.start_eq_ok_iff.mp started
    exact ⟨rfl, rfl⟩
  refine ⟨_, rfl, fun told h id => ?_⟩
  show ToldOf id _ ((c.store.reservations.byId.insert r.id r).get? id)
  rw [OrderedMap.get?_insert]
  by_cases hsame : r.id = id
  · have hnothing : reservationPart id told = [] := by
      have hbefore := h id
      rwa [← hsame, hid, unused, ← hid, hsame] at hbefore
    rw [if_pos hsame]
    refine ⟨hsame, r.toldOpened, rfl, ?_⟩
    rw [reservationPart_append, hnothing, Reservation.toldClosed_of_open hopen, ← hsame]
    simp [reservationPart, Reservation.toldOpened, InventoryEvent.ofCreated,
      InventoryEvent.reservation?]
  · rw [if_neg hsame]
    refine (h id).append_other ?_
    simp [reservationPart, Reservation.toldOpened, InventoryEvent.ofCreated,
      InventoryEvent.reservation?, hsame]

/-! ## Runs -/

/-- Whether the action draws no identifier of a reservation that is in use. -/
def EngineAction.DrawsFresh (s : ReservationState) : EngineAction → Prop
  | createReservation fresh n now => (ReservationAction.create fresh n now).DrawsFresh s
  | _ => True

instance (s : ReservationState) : (a : EngineAction) → Decidable (a.DrawsFresh s)
  | .createReservation fresh n now =>
    inferInstanceAs (Decidable ((ReservationAction.create fresh n now).DrawsFresh s))
  | .apply _ | .allocate _ | .resolveBatch .. | .correctExpiry .. | .rebuildSnapshot _
  | .consumeReservation .. | .cancelReservation .. | .release .. | .sweep .. | .sweepExpired ..
  | .query _ | .tick _ => isTrue trivial

theorem EngineEnding.recounts_reservations {a : EngineAction}
    {answer : Except EngineError a.Answer} (h : EngineEnding audit c a answer d)
    (hfresh : a.DrawsFresh c.store.reservations) : Recounts audit ReservationsTold c d := by
  cases h with
  | went changes _ => exact .of_changes EngineChange.recounts_reservations changes
  | opened unknown started => exact recounts_opened started (hfresh unknown)
  | allocated _ changes ledger =>
    exact ⟨_, rfl, fun told h id => (h id).append_other (reservationPart_entries id _)⟩

/-- Whether no action of a run draws an identifier that is in use at that time. -/
def Engine.RunsFresh (engine : Engine MemoryState τ) :
    EngineState MemoryState τ → List EngineAction → Prop
  | _, [] => True
  | u, a :: rest =>
    a.DrawsFresh u.store.reservations ∧ engine.RunsFresh ((engine.step a).runFrom u).2 rest

instance Engine.decidableRunsFresh (engine : Engine MemoryState τ) :
    (u : EngineState MemoryState τ) → (actions : List EngineAction) →
      Decidable (engine.RunsFresh u actions)
  | _, [] => isTrue trivial
  | u, a :: rest =>
    have := engine.decidableRunsFresh ((engine.step a).runFrom u).2 rest
    inferInstanceAs (Decidable (a.DrawsFresh u.store.reservations ∧
      engine.RunsFresh ((engine.step a).runFrom u).2 rest))

variable (audit settings) in
theorem Engine.recounts_run_reservations {u : EngineState MemoryState τ}
    {actions : List EngineAction} (hu : u.store.Sound)
    (hfresh : (inMemory audit settings).RunsFresh u actions) :
    Recounts audit ReservationsTold u.core ((inMemory audit settings).run actions u).2.core := by
  induction actions generalizing u with
  | nil => exact .refl _
  | cons a rest ih =>
    have hstep : EngineEnding audit u.core a (((inMemory audit settings).step a).runFrom u).1
        (((inMemory audit settings).step a).runFrom u).2.core := a.ending hu
    exact (hstep.recounts_reservations hfresh.1).trans (ih (hstep.sound hu) hfresh.2)

/-! ## The audit stream -/

/-- The type of the events that a reservation was opened. -/
def openingTypes : List String := ["inventory.reservation.created"]

/-- The types of the events that a reservation has ended. -/
def closingTypes : List String :=
  ["inventory.reservation.consumed", "inventory.reservation.cancelled",
    "inventory.reservation.expired"]

/-- The envelopes about a reservation whose events are of some types. -/
def about (id : Uuid) (types : List String) (vs : List Envelope) : List Envelope :=
  vs.filter (fun v => v.streamKey == id.text && types.contains v.eventType)

/-- A reservation is told once when it opens and once when it ends; the end that is told is its own:
what it has come to, when, and on whose account. -/
structure ToldOnce (vs : List Envelope) (id : Uuid) (r : Reservation) : Prop where
  opened : (about id openingTypes vs).length = 1
  closed : (about id closingTypes vs).length = if r.status.isTerminal then 1 else 0
  closing : ∀ v ∈ about id closingTypes vs,
    v.eventType = "inventory.reservation." ++ r.status.text ∧ v.occurredAt = r.updatedAt ∧
      v.trace = some r.trace

/-- An event about a reservation is recognised by the written form of its identifier. -/
theorem picked_iff {types : List String} (htypes : types ⊆ openingTypes ++ closingTypes)
    (id : Uuid) (e : InventoryEvent) :
    (e.streamKey == id.text && types.contains e.eventType) =
      (e.reservation? == some id && types.contains e.eventType) := by
  have htext (id' : Uuid) : (id'.text == id.text) = (some id' == some id) := by
    rw [Bool.eq_iff_iff, beq_iff_eq, beq_iff_eq, Option.some.injEq, Uuid.text_injective.eq_iff]
  cases e with
  | movementApplied ledgerId key delta after reason reference line t =>
    have hnot : types.contains "inventory.movement.applied" = false := by
      rw [List.contains_eq_mem, decide_eq_false_iff_not]
      exact fun h => absurd (htypes h) (by decide)
    rw [InventoryEvent.eventType, hnot, Bool.and_false, Bool.and_false]
  | reservationCreated id' _ _ _ => rw [InventoryEvent.streamKey, htext]; rfl
  | reservationConsumed id' _ _ => rw [InventoryEvent.streamKey, htext]; rfl
  | reservationCancelled id' _ _ => rw [InventoryEvent.streamKey, htext]; rfl
  | reservationExpired id' _ _ => rw [InventoryEvent.streamKey, htext]; rfl

/-- The envelopes about a reservation carry what was told of it. -/
theorem about_eq {vs : List Envelope} {told : List (InventoryEvent × TraceId)}
    (h : vs.map Envelope.unnumbered = told.map envelopeOf) {types : List String}
    (htypes : types ⊆ openingTypes ++ closingTypes) (id : Uuid) :
    (about id types vs).map Envelope.unnumbered =
      ((reservationPart id told).filter (fun e => types.contains e.1.eventType)).map
        envelopeOf := by
  rw [about, map_unnumbered_filter h fun _ => rfl, reservationPart, List.filter_filter]
  refine congrArg (List.map envelopeOf) (List.filter_congr fun e _ => ?_)
  rw [Bool.and_comm (types.contains _)]
  exact picked_iff htypes id e.1

/-- An end that is told is one of the ends there are. -/
theorem Reservation.filter_toldClosed (r : Reservation) :
    r.toldClosed.filter (fun e => openingTypes.contains e.1.eventType) = [] ∧
    r.toldClosed.filter (fun e => closingTypes.contains e.1.eventType) = r.toldClosed := by
  rcases r.toldClosed_cases with ⟨-, hnone⟩ | ⟨hover, e, hone, hend⟩
  · rw [hnone]
    exact ⟨rfl, rfl⟩
  · have htypes : openingTypes.contains e.1.eventType = false ∧
        closingTypes.contains e.1.eventType = true := by
      rw [hend.eventType]
      revert hover
      cases r.status <;> decide
    rw [hone, List.filter_singleton, List.filter_singleton, htypes.1, htypes.2]
    exact ⟨rfl, rfl⟩

/-- What was told of a stored reservation is received as it was told. -/
theorem ToldOf.toldOnce {vs : List Envelope} {told : List (InventoryEvent × TraceId)} {id : Uuid}
    {r : Reservation} (hvs : vs.map Envelope.unnumbered = told.map envelopeOf)
    (h : ToldOf id told (some r)) : ToldOnce vs id r := by
  obtain ⟨-, opening, htype, htold⟩ := h
  have hopens : openingTypes.contains opening.1.eventType = true := by
    rw [htype]
    decide
  have hcloses : closingTypes.contains opening.1.eventType = false := by
    rw [htype]
    decide
  obtain ⟨hnoOpening, hclosing⟩ := r.filter_toldClosed
  have hopened : (about id openingTypes vs).map Envelope.unnumbered = [envelopeOf opening] := by
    rw [about_eq hvs (List.subset_append_left _ _), htold, List.filter_cons, hopens, if_pos rfl,
      hnoOpening]
    rfl
  have hclosed : (about id closingTypes vs).map Envelope.unnumbered =
      r.toldClosed.map envelopeOf := by
    rw [about_eq hvs (List.subset_append_right _ _), htold, List.filter_cons, hcloses,
      if_neg Bool.false_ne_true, hclosing]
  refine ⟨?_, ?_, fun v hv => ?_⟩
  · rw [← List.length_map Envelope.unnumbered, hopened]
    rfl
  · rw [← List.length_map Envelope.unnumbered, hclosed, List.length_map, r.length_toldClosed]
  · obtain ⟨e, he, hev⟩ : ∃ e ∈ r.toldClosed, envelopeOf e = v.unnumbered :=
      List.mem_map.mp (hclosed ▸ List.mem_map_of_mem hv)
    have hend := Reservation.tellsEnd_of_mem_toldClosed he
    have htype : v.eventType = e.1.eventType := (congrArg Envelope.eventType hev).symm
    have htime : v.occurredAt = e.1.occurredAt := (congrArg Envelope.occurredAt hev).symm
    have htrace : v.trace = some e.2 := (congrArg Envelope.trace hev).symm
    rw [htype, htime, htrace, hend.eventType, hend.occurredAt, hend.trace]
    exact ⟨rfl, rfl, rfl⟩

/-- Whatever the calls, as long as new reservations draw identifiers that are not in use: a
subscription that was opened first has received, of each stored reservation, exactly one envelope
that it was opened, and exactly one that it has ended if it has, none if it has not. -/
theorem reservations_told_once {ids : Nat → Uuid} {settings : EngineSettings} {clock : Instant}
    {retention : Nat} {actions : List EngineAction}
    (hfresh : (Engine.overBus ids settings).RunsFresh (.listening clock retention) actions) :
    let u := ((Engine.overBus ids settings).run actions (.listening clock retention)).2
    ∀ id r, u.store.reservations.byId.get? id = some r → r.id = id ∧ ToldOnce u.received id r := by
  intro u id r hr
  have hrecounts := Engine.recounts_run_reservations (.ofBus .memory ids) settings
    (u := .listening clock retention) (MemoryState.sound_empty clock) hfresh
  obtain ⟨told, hreceived, htold⟩ := hrecounts.received fun id => rfl
  have hof : ToldOf id told (some r) := hr ▸ htold id
  exact ⟨hof.1, hof.toldOnce hreceived⟩

namespace Sample

/-- Of four promises one is cancelled and one is consumed, each of them a second time in vain; one
is prolonged; one is released, and what is left is swept. -/
def promising (soon late : Instant) : List EngineAction :=
  [.createReservation (.ofNat 1) (shortPromise "SO-1") .epoch,
    .createReservation (.ofNat 2) (shortPromise "SO-2") .epoch,
    .createReservation (.ofNat 3) (shortPromise "SO-3") .epoch,
    .createReservation (.ofNat 4) (shortPromise "SO-4") .epoch,
    .cancelReservation (.ofNat 4) soon, .consumeReservation (.ofNat 1) soon,
    .cancelReservation (.ofNat 4) late, .consumeReservation (.ofNat 1) late,
    .createReservation (.ofNat 5) (shortPromise "SO-2") soon, .release (.ofNat 3) late,
    .sweep 2 late 10]

end Sample

open Sample in
/-- Four openings and four ends are received, and of the cancelled promise one of each. -/
theorem reservations_told_once_promised :
    (Engine.overBus .ofNat (.ofConfig {})).RunsFresh (.listening .epoch 0)
      (promising (minute 1) (minute 6)) ∧
    (engineAfter (promising (minute 1) (minute 6))).received.length = 8 ∧
    (engineAfter (promising (minute 1) (minute 6))).store.reservations.byId.get? (.ofNat 4) =
      some withdrawn ∧
    ToldOnce (engineAfter (promising (minute 1) (minute 6))).received (.ofNat 4) withdrawn := by
  have hfresh : (Engine.overBus .ofNat (.ofConfig {})).RunsFresh (.listening .epoch 0)
      (promising (minute 1) (minute 6)) := by decide +kernel
  have hstored : (engineAfter (promising (minute 1) (minute 6))).store.reservations.byId.get?
      (.ofNat 4) = some withdrawn := by decide +kernel
  have htold := reservations_told_once hfresh (.ofNat 4) withdrawn
  rw [← engineAfter] at htold
  exact ⟨hfresh, by decide +kernel, hstored, (htold hstored).2⟩

end Stockroom
