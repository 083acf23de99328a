/-
Stockroom.Proofs.Reservation.History — runs of a store of reservations, and the states they
reach.

* `Reservation.Turn` lists what a call can make of a stored reservation, and
  `ReservationChange` what it can make of the store: a reservation is opened, or one that is
  stored takes a turn.
* The `…_known` and `…_unknown` theorems say what each call comes down to, the `…_cases` theorems
  how it can end. A call that fails leaves the store as it was, one that succeeds changes it at
  most once.
* `ReservationAction` is a call of the store, `ReservationState.run` lets a list of them
  happen, those that fail included, and `Reachable` is every state that a run leads to from no
  reservations at all. `Reachable.induction` is how everything that always holds of stored
  reservations is proved.
-/
import Stockroom.Proofs.Step
import Stockroom.Reservation.Memory

namespace Stockroom

open StoreM MemoryReservations

/-! ## One reservation -/

/-- Lines that are merged in end up in the order of their numbers. -/
theorem sortOn_upsertLines (ns : List NewReservationLine) (ls : List ReservationLine) :
    sortOn (·.line) (upsertLines ns ls) = upsertLines ns ls :=
  sortOn_sortOn _ _

namespace Reservation

variable {r q : Reservation} {now : Instant}

theorem isTerminal_eq_false_iff : r.status.isTerminal = false ↔ r.status = .open := by
  cases h : r.status <;> decide

/-- A well-formed request opens a reservation. -/
theorem start_eq_ok_iff {id : Uuid} {n : NewReservation} :
    Reservation.start id n now = .ok q ↔
      n.check = .ok () ∧
        q = { id, key := n.key, status := .open, trace := n.effectiveTrace,
              lines := upsertLines n.lines [], createdAt := now, updatedAt := now,
              expireAt := n.expireAt } := by
  unfold Reservation.start
  cases n.check with
  | error e =>
    constructor
    · intro h
      cases h
    · rintro ⟨h, -⟩
      cases h
  | ok _ =>
    constructor
    · intro h
      cases h
      exact ⟨rfl, rfl⟩
    · rintro ⟨-, rfl⟩
      rfl

/-- A request refreshes an open reservation: the time to live, the trace and the lines are its
own from now on. -/
theorem refresh_eq_ok_iff {n : NewReservation} :
    r.refresh n now = .ok q ↔
      n.check = .ok () ∧ r.status = .open ∧
        q = { r with
          expireAt := n.expireAt, trace := n.effectiveTrace,
          lines := upsertLines n.lines r.lines, updatedAt := now } := by
  unfold refresh
  cases n.check with
  | error e =>
    constructor
    · intro h
      cases h
    · rintro ⟨h, -⟩
      cases h
  | ok _ =>
    show (if r.status.isTerminal then _ else _) = Except.ok q ↔ _
    rw [← isTerminal_eq_false_iff]
    cases r.status.isTerminal with
    | true => simp
    | false =>
      constructor
      · intro h
        cases h
        exact ⟨rfl, rfl, rfl⟩
      · rintro ⟨-, -, rfl⟩
        rfl

/-- An open reservation is consumed, and one that is consumed already stays as it is. -/
theorem consume_eq_ok_iff {outcome : ConsumeOutcome} :
    r.consume now = .ok (q, outcome) ↔
      r.status = .consumed ∧ q = r ∧ outcome = .noop ∨
      r.status = .open ∧ outcome = .consumed ∧
        q = { r with
          lines := r.lines.map (fun l => { l with consumed := l.quantity })
          status := .consumed
          updatedAt := now } := by
  unfold consume
  split
  · rename_i h
    simp only [h, Except.ok.injEq, Prod.mk.injEq, reduceCtorEq, false_and, or_false, true_and]
    simp only [eq_comm]
  · rename_i h
    simp only [h, Except.ok.injEq, Prod.mk.injEq, reduceCtorEq, false_and, false_or, true_and]
    rw [and_comm, eq_comm, @eq_comm _ q]
  · rename_i hconsumed hopen
    constructor
    · intro h
      cases h
    · rintro (⟨h, -⟩ | ⟨h, -⟩)
      · exact (hconsumed h).elim
      · exact (hopen h).elim

/-- An open reservation is cancelled. -/
theorem cancel_eq_ok_iff :
    r.cancel now = .ok q ↔
      r.status = .open ∧ q = { r with status := .cancelled, updatedAt := now } := by
  unfold cancel
  rw [← isTerminal_eq_false_iff]
  cases r.status.isTerminal with
  | true => simp
  | false =>
    constructor
    · intro h
      cases h
      exact ⟨rfl, rfl⟩
    · rintro ⟨-, rfl⟩
      rfl

theorem expire_of_open (h : r.status = .open) (now : Instant) :
    r.expire now = ({ r with status := .expired, updatedAt := now }, .expired r.id) :=
  if_pos h

theorem expire_of_not_open (h : r.status ≠ .open) (now : Instant) :
    r.expire now = (r, .noop (some r.id)) :=
  if_neg h

/-- What one call can make of a stored reservation. -/
inductive Turn : Reservation → Reservation → Prop where
  | refreshed {r q : Reservation} {n : NewReservation} {now : Instant}
      (allowed : r.refresh n now = .ok q) : Turn r q
  | consumed {r q : Reservation} {outcome : ConsumeOutcome} {now : Instant}
      (allowed : r.consume now = .ok (q, outcome)) : Turn r q
  | cancelled {r q : Reservation} {now : Instant} (allowed : r.cancel now = .ok q) : Turn r q
  | ended (r : Reservation) (now : Instant) : Turn r (r.expire now).1

/-- A reservation takes a turn only as long as it is open; its identifier and its business key
stay. -/
theorem Turn.cases (h : r.Turn q) : q = r ∨ r.status = .open ∧ q.id = r.id ∧ q.key = r.key := by
  cases h with
  | refreshed allowed =>
    obtain ⟨-, hopen, rfl⟩ := refresh_eq_ok_iff.mp allowed
    exact .inr ⟨hopen, rfl, rfl⟩
  | consumed allowed =>
    rcases consume_eq_ok_iff.mp allowed with ⟨-, rfl, -⟩ | ⟨hopen, -, rfl⟩
    · exact .inl rfl
    · exact .inr ⟨hopen, rfl, rfl⟩
  | cancelled allowed =>
    obtain ⟨hopen, rfl⟩ := cancel_eq_ok_iff.mp allowed
    exact .inr ⟨hopen, rfl, rfl⟩
  | ended now =>
    by_cases hopen : r.status = .open
    · rw [expire_of_open hopen]
      exact .inr ⟨hopen, rfl, rfl⟩
    · rw [expire_of_not_open hopen]
      exact .inl rfl

/-- Whatever happens to a reservation, it keeps its identifier. -/
theorem Turn.id_eq (h : r.Turn q) : q.id = r.id := by
  rcases h.cases with rfl | ⟨-, hid, -⟩
  · rfl
  · exact hid

/-- Whatever happens to a reservation, it keeps its business key. -/
theorem Turn.key_eq (h : r.Turn q) : q.key = r.key := by
  rcases h.cases with rfl | ⟨-, -, hkey⟩
  · rfl
  · exact hkey

theorem Turn.sortOn_lines (h : r.Turn q) (hlines : sortOn (·.line) r.lines = r.lines) :
    sortOn (·.line) q.lines = q.lines := by
  cases h with
  | refreshed allowed =>
    obtain ⟨-, -, rfl⟩ := refresh_eq_ok_iff.mp allowed
    exact sortOn_upsertLines _ _
  | consumed allowed =>
    rcases consume_eq_ok_iff.mp allowed with ⟨-, rfl, -⟩ | ⟨-, -, rfl⟩
    · exact hlines
    · -- the lines are used up, and keep their numbers
      have hmap : sortOn (·.line) (r.lines.map fun l => { l with consumed := l.quantity }) =
          (sortOn (·.line) r.lines).map fun l => { l with consumed := l.quantity } :=
        sortBy_map fun _ _ _ _ => rfl
      exact hmap.trans (congrArg _ hlines)
  | cancelled allowed =>
    obtain ⟨-, rfl⟩ := cancel_eq_ok_iff.mp allowed
    exact hlines
  | ended now =>
    unfold expire
    split
    · exact hlines
    · exact hlines

end Reservation

/-! ## Single changes -/

/-- One change of the stored reservations. -/
inductive ReservationChange : ReservationState → ReservationState → Prop where
  | opened {s : ReservationState} {fresh : Uuid} {n : NewReservation} {now : Instant}
      {r : Reservation} (unknown : s.byKey.get? n.key = none)
      (started : Reservation.start fresh n now = .ok r) :
      ReservationChange s ({ s with byKey := s.byKey.insert n.key r.id }.put r)
  | turned {s : ReservationState} {id : Uuid} {r q : Reservation}
      (known : s.byId.get? id = some r) (turn : r.Turn q) :
      ReservationChange s { s with byId := s.byId.insert id q }

namespace MemoryReservations

/-! ## How each call can end -/

section Create

variable {s : ReservationState} {n : NewReservation} {id : Uuid} {r : Reservation}

/-- A request whose key is known comes down to `Reservation.refresh`. -/
theorem create_known (hkey : s.byKey.get? n.key = some id) (hid : s.byId.get? id = some r)
    (fresh : Uuid) (now : Instant) :
    (create fresh n now).runFrom s =
      match r.refresh n now with
      | .ok q => (.ok ⟨q, false⟩, { s with byId := s.byId.insert id q })
      | .error e => (.error (.domain e), s) := by
  unfold create
  cases hn : n.check with
  | error e =>
    unfold Reservation.refresh
    rw [hn]
    rfl
  | ok _ =>
    rw [runFrom_ofRule_ok_bind, runFrom_get_bind, hkey]
    dsimp only
    rw [hid]
    dsimp only
    rw [runFrom_bind]
    cases r.refresh n now <;> rfl

/-- A request whose key is not known comes down to `Reservation.start`. -/
theorem create_unknown (hkey : s.byKey.get? n.key = none) (fresh : Uuid) (now : Instant) :
    (create fresh n now).runFrom s =
      match Reservation.start fresh n now with
      | .ok r => (.ok ⟨r, true⟩, { s with byKey := s.byKey.insert n.key r.id }.put r)
      | .error e => (.error (.domain e), s) := by
  unfold create
  cases hn : n.check with
  | error e =>
    unfold Reservation.start
    rw [hn]
    rfl
  | ok _ =>
    rw [runFrom_ofRule_ok_bind, runFrom_get_bind, hkey]
    dsimp only
    rw [runFrom_bind]
    cases Reservation.start fresh n now <;> rfl

end Create

/-- A request is refused, refreshes the open reservation of its key, or opens a new one. -/
theorem create_cases (fresh : Uuid) (n : NewReservation) (now : Instant) (s : ReservationState) :
    (∃ e, (create fresh n now).runFrom s = (.error e, s)) ∨
    (∃ id r q, s.byKey.get? n.key = some id ∧ s.byId.get? id = some r ∧
      r.refresh n now = .ok q ∧
      (create fresh n now).runFrom s =
        (.ok ⟨q, false⟩, { s with byId := s.byId.insert id q })) ∨
    ∃ r, s.byKey.get? n.key = none ∧ Reservation.start fresh n now = .ok r ∧
      (create fresh n now).runFrom s =
        (.ok ⟨r, true⟩, { s with byKey := s.byKey.insert n.key r.id }.put r) := by
  cases hkey : s.byKey.get? n.key with
  | none =>
    rw [create_unknown hkey]
    cases hr : Reservation.start fresh n now with
    | error e => exact .inl ⟨_, rfl⟩
    | ok r => exact .inr (.inr ⟨r, rfl, rfl, rfl⟩)
  | some id =>
    cases hid : s.byId.get? id with
    | none =>
      -- the key leads nowhere
      unfold create
      cases n.check with
      | error e => exact .inl ⟨_, rfl⟩
      | ok _ =>
        rw [runFrom_ofRule_ok_bind, runFrom_get_bind, hkey]
        dsimp only
        rw [hid]
        exact .inl ⟨_, rfl⟩
    | some r =>
      rw [create_known hkey hid]
      cases hq : r.refresh n now with
      | error e => exact .inl ⟨_, rfl⟩
      | ok q => exact .inr (.inl ⟨id, r, q, rfl, hid, hq, rfl⟩)

theorem required_known {s : ReservationState} {id : Uuid} {r : Reservation}
    (h : s.byId.get? id = some r) : (required id).runFrom s = (.ok r, s) := by
  simp only [required, runFrom_bind, runFrom_get, h, runFrom_pure]

theorem required_unknown {s : ReservationState} {id : Uuid} (h : s.byId.get? id = none) :
    (required id).runFrom s = (.error (.domain (.notFound s!"reservation {id}")), s) := by
  simp only [required, runFrom_bind, runFrom_get, h, runFrom_throw]

section Known

variable {s : ReservationState} {id : Uuid} {r : Reservation}

/-- To consume a stored reservation comes down to `Reservation.consume`. -/
theorem consume_known (h : s.byId.get? id = some r) (now : Instant) :
    (consume id now).runFrom s =
      match r.consume now with
      | .ok (q, outcome) => (.ok (q, outcome), { s with byId := s.byId.insert id q })
      | .error e => (.error (.domain e), s) := by
  rw [consume, runFrom_bind, required_known h]
  dsimp only
  rw [runFrom_bind]
  cases r.consume now <;> rfl

theorem consume_unknown (h : s.byId.get? id = none) (now : Instant) :
    (consume id now).runFrom s =
      (.error (.domain (.notFound s!"reservation {id}")), s) := by
  rw [consume, runFrom_bind, required_unknown h]

/-- To cancel a stored reservation comes down to `Reservation.cancel`. -/
theorem cancel_known (h : s.byId.get? id = some r) (now : Instant) :
    (cancel id now).runFrom s =
      match r.cancel now with
      | .ok q => (.ok q, { s with byId := s.byId.insert id q })
      | .error e => (.error (.domain e), s) := by
  rw [cancel, runFrom_bind, required_known h]
  dsimp only
  rw [runFrom_bind]
  cases r.cancel now <;> rfl

theorem cancel_unknown (h : s.byId.get? id = none) (now : Instant) :
    (cancel id now).runFrom s =
      (.error (.domain (.notFound s!"reservation {id}")), s) := by
  rw [cancel, runFrom_bind, required_unknown h]

end Known

/-- A reservation is consumed, or the call is refused. -/
theorem consume_cases (id : Uuid) (now : Instant) (s : ReservationState) :
    (∃ e, (consume id now).runFrom s = (.error e, s)) ∨
    ∃ r q outcome, s.byId.get? id = some r ∧ r.consume now = .ok (q, outcome) ∧
      (consume id now).runFrom s =
        (.ok (q, outcome), { s with byId := s.byId.insert id q }) := by
  cases hid : s.byId.get? id with
  | none => exact .inl ⟨_, consume_unknown hid now⟩
  | some r =>
    rw [consume_known hid]
    cases hq : r.consume now with
    | error e => exact .inl ⟨_, rfl⟩
    | ok out => exact .inr ⟨r, out.1, out.2, rfl, hq, rfl⟩

/-- A reservation is cancelled, or the call is refused. -/
theorem cancel_cases (id : Uuid) (now : Instant) (s : ReservationState) :
    (∃ e, (cancel id now).runFrom s = (.error e, s)) ∨
    ∃ r q, s.byId.get? id = some r ∧ r.cancel now = .ok q ∧
      (cancel id now).runFrom s = (.ok q, { s with byId := s.byId.insert id q }) := by
  cases hid : s.byId.get? id with
  | none => exact .inl ⟨_, cancel_unknown hid now⟩
  | some r =>
    rw [cancel_known hid]
    cases hq : r.cancel now with
    | error e => exact .inl ⟨_, rfl⟩
    | ok q => exact .inr ⟨r, q, rfl, hq, rfl⟩

theorem release_unknown {s : ReservationState} {id : Uuid} (h : s.byId.get? id = none)
    (now : Instant) : (release id now).runFrom s = (.ok (.noop none), s) := by
  simp only [release, runFrom_bind, runFrom_get, h, runFrom_pure]

/-- A release always succeeds; what it makes of a stored reservation is `Reservation.expire`. -/
theorem release_known {s : ReservationState} {id : Uuid} {r : Reservation}
    (h : s.byId.get? id = some r) (now : Instant) :
    (release id now).runFrom s =
      (.ok (r.expire now).2, { s with byId := s.byId.insert id (r.expire now).1 }) := by
  simp only [release, runFrom_bind, runFrom_get, h]
  rfl

/-- An open reservation is ended, or there is nothing to do. -/
theorem release_cases (id : Uuid) (now : Instant) (s : ReservationState) :
    (∃ found, (release id now).runFrom s = (.ok (.noop found), s)) ∨
    ∃ r q, s.byId.get? id = some r ∧ r.status = .open ∧ r.expire now = (q, .expired r.id) ∧
      (release id now).runFrom s =
        (.ok (.expired r.id), { s with byId := s.byId.insert id q }) := by
  cases hid : s.byId.get? id with
  | none => exact .inl ⟨none, release_unknown hid now⟩
  | some r =>
    rw [release_known hid]
    by_cases hopen : r.status = .open
    · obtain ⟨q, hq⟩ : ∃ q, r.expire now = (q, .expired r.id) :=
        ⟨_, Reservation.expire_of_open hopen now⟩
      rw [hq]
      exact .inr ⟨r, q, rfl, hopen, hq, rfl⟩
    · rw [Reservation.expire_of_not_open hopen]
      dsimp only
      rw [OrderedMap.insert_eq_self hid]
      exact .inl ⟨_, rfl⟩

end MemoryReservations

/-! ## Actions -/

/-- A call of a store of reservations. -/
inductive ReservationAction where
  | create (fresh : Uuid) (n : NewReservation) (now : Instant)
  | get (id : Uuid)
  | findByKey (key : ReservationKey)
  | consume (id : Uuid) (now : Instant)
  | cancel (id : Uuid) (now : Instant)
  | findExpired (now : Instant) (limit : Nat)
  | release (id : Uuid) (now : Instant)
  deriving DecidableEq

/-- The action as a step that forgets the answer. -/
def ReservationAction.step : ReservationAction → Step Unit
  | create fresh n now => do let _ ← store.create fresh n now
  | get id => do let _ ← store.get id
  | findByKey key => do let _ ← store.findByKey key
  | consume id now => do let _ ← store.consume id now
  | cancel id now => do let _ ← store.cancel id now
  | findExpired now limit => do let _ ← store.findExpired now limit
  | release id now => do let _ ← store.release id now

/-- A call leaves the store alone, is a request that opens a reservation, or gives one stored
reservation a turn. -/
theorem ReservationAction.step_shape (a : ReservationAction) (s : ReservationState) :
    (∃ out, a.step.runFrom s = (out, s)) ∨
    (∃ fresh n now r, a = .create fresh n now ∧ s.byKey.get? n.key = none ∧
      Reservation.start fresh n now = .ok r ∧
      a.step.runFrom s =
        (.ok (), { s with byKey := s.byKey.insert n.key r.id }.put r)) ∨
    ∃ id r q, s.byId.get? id = some r ∧ r.Turn q ∧
      a.step.runFrom s = (.ok (), { s with byId := s.byId.insert id q }) := by
  cases a with
  | create fresh n now =>
    simp only [step, store, runFrom_bind]
    rcases create_cases fresh n now s with
      ⟨e, h⟩ | ⟨id, r, q, -, hid, hq, h⟩ | ⟨r, hkey, hr, h⟩
    · rw [h]
      exact .inl ⟨_, rfl⟩
    · rw [h]
      exact .inr (.inr ⟨id, r, q, hid, .refreshed hq, rfl⟩)
    · rw [h]
      exact .inr (.inl ⟨fresh, n, now, r, rfl, hkey, hr, rfl⟩)
  | consume id now =>
    simp only [step, store, runFrom_bind]
    rcases consume_cases id now s with ⟨e, h⟩ | ⟨r, q, outcome, hid, hq, h⟩
    · rw [h]
      exact .inl ⟨_, rfl⟩
    · rw [h]
      exact .inr (.inr ⟨id, r, q, hid, .consumed hq, rfl⟩)
  | cancel id now =>
    simp only [step, store, runFrom_bind]
    rcases cancel_cases id now s with ⟨e, h⟩ | ⟨r, q, hid, hq, h⟩
    · rw [h]
      exact .inl ⟨_, rfl⟩
    · rw [h]
      exact .inr (.inr ⟨id, r, q, hid, .cancelled hq, rfl⟩)
  | release id now =>
    simp only [step, store, runFrom_bind]
    cases hid : s.byId.get? id with
    | none =>
      rw [release_unknown hid]
      exact .inl ⟨_, rfl⟩
    | some r =>
      rw [release_known hid]
      exact .inr (.inr ⟨id, r, _, hid, .ended r now, rfl⟩)
  | get id => exact .inl ⟨_, rfl⟩
  | findByKey key => exact .inl ⟨_, rfl⟩
  | findExpired now limit => exact .inl ⟨_, rfl⟩

/-- A call fails and changes nothing, or it succeeds and changes the store at most once. -/
theorem ReservationAction.step_cases (a : ReservationAction) (s : ReservationState) :
    (∃ e, a.step.runFrom s = (.error e, s)) ∨
    ∃ t, a.step.runFrom s = (.ok (), t) ∧ (t = s ∨ ReservationChange s t) := by
  rcases a.step_shape s with
    ⟨e | _, h⟩ | ⟨fresh, n, now, r, -, hkey, hr, h⟩ | ⟨id, r, q, hid, hq, h⟩
  · exact .inl ⟨e, h⟩
  · exact .inr ⟨s, h, .inl rfl⟩
  · exact .inr ⟨_, h, .inr (.opened hkey hr)⟩
  · exact .inr ⟨_, h, .inr (.turned hid hq)⟩

/-! ## Runs -/

namespace ReservationState

/-- The state after some actions, those that failed included. -/
def run (s : ReservationState) (actions : List ReservationAction) : ReservationState :=
  actions.foldl (fun t a => (a.step.runFrom t).2) s

theorem run_append (s : ReservationState) (before after : List ReservationAction) :
    s.run (before ++ after) = (s.run before).run after := List.foldl_append

theorem run_cons (s : ReservationState) (a : ReservationAction)
    (rest : List ReservationAction) : s.run (a :: rest) = (a.step.runFrom s).2.run rest := rfl

/-- A state that some run leads to from no reservations at all. -/
def Reachable (s : ReservationState) : Prop := ∃ actions, s = empty.run actions

theorem Reachable.run {s : ReservationState} (h : s.Reachable)
    (actions : List ReservationAction) : (s.run actions).Reachable := by
  obtain ⟨earlier, rfl⟩ := h
  exact ⟨earlier ++ actions, (run_append _ _ _).symm⟩

/-- What single changes keep is kept by every run. -/
theorem run_induction {P : ReservationState → Prop}
    (change : ∀ {s t}, ReservationChange s t → P s → P t) {s : ReservationState} (h : P s)
    (actions : List ReservationAction) : P (s.run actions) := by
  induction actions generalizing s with
  | nil => exact h
  | cons a rest ih =>
    rw [run_cons]
    apply ih
    rcases a.step_cases s with ⟨e, he⟩ | ⟨t, ht, rfl | hc⟩
    · rw [he]
      exact h
    · rw [ht]
      exact h
    · rw [ht]
      exact change hc h

/-- What holds of no reservations, and is kept by single changes, holds of every reachable
state. -/
theorem Reachable.induction {P : ReservationState → Prop} (empty : P .empty)
    (change : ∀ {s t}, ReservationChange s t → P s → P t) {s : ReservationState}
    (h : s.Reachable) : P s := by
  obtain ⟨actions, rfl⟩ := h
  exact run_induction change empty actions

/-! ## What holds of stored reservations -/

/-- Whether everything that is stored is so. -/
def Stores (P : Uuid → Reservation → Prop) (s : ReservationState) : Prop :=
  ∀ id r, s.byId.get? id = some r → P id r

/-- What holds of a reservation when it is opened, and is kept by its turns, holds of everything
that is stored. -/
theorem Stores.change {P : Uuid → Reservation → Prop}
    (opened : ∀ {fresh n now r}, Reservation.start fresh n now = .ok r → P r.id r)
    (turned : ∀ {id r q}, r.Turn q → P id r → P id q) {s t : ReservationState}
    (hc : ReservationChange s t) (h : s.Stores P) : t.Stores P := by
  intro id q hq
  cases hc with
  | @opened fresh n now r unknown started =>
    replace hq : (s.byId.insert r.id r).get? id = some q := hq
    rw [OrderedMap.get?_insert] at hq
    split at hq
    · rename_i hid
      cases hq
      exact hid ▸ opened started
    · exact h id q hq
  | @turned id' r q' known turn =>
    replace hq : (s.byId.insert id' q').get? id = some q := hq
    rw [OrderedMap.get?_insert] at hq
    split at hq
    · rename_i hid
      cases hq
      exact hid ▸ turned turn (h id' r known)
    · exact h id q hq

/-- Every reservation is stored under its own identifier. -/
def Filed (s : ReservationState) : Prop := ∀ id r, s.byId.get? id = some r → r.id = id

theorem Filed.change {s t : ReservationState} (hc : ReservationChange s t) (h : s.Filed) :
    t.Filed :=
  Stores.change (P := fun id r => r.id = id) (fun _ => rfl)
    (fun turn hid => turn.id_eq.trans hid) hc h

theorem Reachable.filed {s : ReservationState} (h : s.Reachable) : s.Filed :=
  h.induction (by intro id r hr; cases hr) Filed.change

/-- The lines of every reservation are in the order of their numbers. -/
theorem Reachable.sortOn_lines {s : ReservationState} (h : s.Reachable) {id : Uuid}
    {r : Reservation} (hr : s.byId.get? id = some r) : sortOn (·.line) r.lines = r.lines := by
  have hall : s.Stores fun _ r => sortOn (·.line) r.lines = r.lines := by
    refine h.induction (P := Stores _) (by intro id r hr; cases hr) (Stores.change ?_ ?_)
    · intro fresh n now r hr
      obtain ⟨-, rfl⟩ := Reservation.start_eq_ok_iff.mp hr
      exact sortOn_upsertLines n.lines []
    · intro id r q turn hlines
      exact turn.sortOn_lines hlines
  exact hall id r hr

/-- A business key leads to a stored reservation. -/
theorem Reachable.exists_of_byKey {s : ReservationState} (h : s.Reachable) {key : ReservationKey}
    {id : Uuid} (hkey : s.byKey.get? key = some id) : ∃ r, s.byId.get? id = some r := by
  have hall : ∀ key id, s.byKey.get? key = some id → ∃ r, s.byId.get? id = some r := by
    refine h.induction
      (P := fun s => ∀ key id, s.byKey.get? key = some id → ∃ r, s.byId.get? id = some r)
      (by intro key id hid; cases hid) ?_
    intro s t hc hs key id hid
    have stays {id' : Uuid} {q : Reservation} (hold : ∃ r, s.byId.get? id = some r) :
        ∃ r, (s.byId.insert id' q).get? id = some r := by
      rw [OrderedMap.get?_insert]
      split
      · exact ⟨q, rfl⟩
      · exact hold
    cases hc with
    | @opened fresh n now r unknown started =>
      replace hid : (s.byKey.insert n.key r.id).get? key = some id := hid
      rw [OrderedMap.get?_insert] at hid
      split at hid
      · cases hid
        refine ⟨r, ?_⟩
        show (s.byId.insert r.id r).get? r.id = some r
        rw [OrderedMap.get?_insert, if_pos rfl]
      · exact stays (hs key id hid)
    | turned known turn => exact stays (hs key id hid)
  exact hall key id hkey

end ReservationState

/-! ## A small history

Three orders are promised stock, the last of them for the shortest time; a fourth promise is
cancelled. -/

namespace Sample

/-- The beginning of the `n`-th minute of 1970. -/
def minute (n : Fin 60) : Instant :=
  ⟨n * 60, 0, Int.le_trans (by decide : Calendar.firstSecond ≤ 0) (by omega),
    Int.le_trans (by omega : (n : Int) * 60 ≤ 3600) (by decide), .inl (by decide)⟩

/-- Two pieces are promised to an order until the given minute. -/
def promise (reference : String) (ends : Fin 60) : NewReservation where
  key := ⟨"web", "S1", ⟨1⟩, reference⟩
  lines := [⟨1, ⟨10⟩, 2⟩]
  expireAt := minute ends
  trace := none

/-- Two pieces are promised to an order until the third minute. -/
def shortPromise (reference : String) : NewReservation := promise reference 3

/-- The promise that is made first and ends last. -/
def firstPromise : NewReservation := promise "SO-1" 7

/-- The promises, each under its own number. -/
def promised : List ReservationAction :=
  [.create (.ofNat 1) (promise "SO-1" 7) .epoch, .create (.ofNat 2) (promise "SO-2" 5) .epoch,
    .create (.ofNat 3) (promise "SO-3" 3) .epoch, .create (.ofNat 4) (promise "SO-4" 3) .epoch,
    .cancel (.ofNat 4) (minute 1)]

/-- The stored promises. -/
def promises : ReservationState := ReservationState.empty.run promised

theorem reachable_promises : promises.Reachable := ⟨_, rfl⟩

/-- While the promise that ends first is being released, the next one is prolonged. -/
def prolonging : List ReservationAction :=
  [.release (.ofNat 3) (minute 6), .create (.ofNat 9) (promise "SO-2" 30) (minute 6)]

/-- The promise that was cancelled. -/
def withdrawn : Reservation where
  id := .ofNat 4
  key := ⟨"web", "S1", ⟨1⟩, "SO-4"⟩
  status := .cancelled
  trace := ⟨"SO-4"⟩
  lines := [⟨1, ⟨10⟩, 2, 0⟩]
  createdAt := .epoch
  updatedAt := minute 1
  expireAt := minute 3

/-- The cancelled promise is asked for in every way, and another one is made. -/
def insisting : List ReservationAction :=
  [.create (.ofNat 5) (promise "SO-4" 30) (minute 2), .consume (.ofNat 4) (minute 2),
    .cancel (.ofNat 4) (minute 2), .create (.ofNat 5) (promise "SO-5" 30) (minute 2),
    .release (.ofNat 4) (minute 6)]

/-- The cancelled promise is asked for with no pieces. -/
def emptyPromise : NewReservation := { promise "SO-4" 30 with lines := [⟨1, ⟨10⟩, 0⟩] }

end Sample

end Stockroom
