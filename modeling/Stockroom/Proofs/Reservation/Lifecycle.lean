/-
Stockroom.Proofs.Reservation.Lifecycle — the two indexes of a store of reservations agree, a
business key opens one reservation at most, and one that is over stays as it is.

* New reservations get identifiers from outside. `RunsFresh` says of a run that none of them was
  in use when it was drawn; only a request that opens a reservation draws one.
* The index from business keys is written when a reservation is opened, and never after: a refresh
  replaces the reservation alone. `Indexed` says that the two agree, and is kept since a turn
  changes neither identifier nor key.
* `openings` counts the requests for a key that were answered with a new reservation. A key that is
  known stays known, so that no second one follows.
* `Settled t r`: the state `t` keeps `r`, and refuses or ignores whatever is asked of it. A turn
  of a reservation that is over leaves it as it is, and with fresh identifiers no request replaces
  it.
-/
import Stockroom.Proofs.Reservation.History

namespace Stockroom

open StoreM MemoryReservations

/-! ## One reservation that is over -/

namespace Reservation

variable {r q : Reservation} {now : Instant}

theorem Turn.eq_of_isTerminal (h : r.Turn q) (hover : r.status.isTerminal = true) : q = r := by
  rcases h.cases with rfl | ⟨hopen, -, -⟩
  · rfl
  · rw [isTerminal_eq_false_iff.mpr hopen] at hover
    cases hover

/-- Whether a request is malformed is looked at first. -/
theorem refresh_of_malformed {n : NewReservation} {e : DomainError} (h : n.check = .error e)
    (r : Reservation) (now : Instant) : r.refresh n now = .error e := by
  unfold refresh
  rw [h]
  rfl

theorem refresh_of_isTerminal {n : NewReservation} (hover : r.status.isTerminal = true)
    (h : n.check = .ok ()) (now : Instant) :
    r.refresh n now = .error (.conflict s!"reservation {r.id} is {r.status}") := by
  unfold refresh
  rw [h]
  exact if_pos hover

theorem consume_of_consumed (h : r.status = .consumed) (now : Instant) :
    r.consume now = .ok (r, .noop) :=
  consume_eq_ok_iff.mpr (.inl ⟨h, rfl, rfl⟩)

theorem consume_of_isTerminal (hover : r.status.isTerminal = true) (h : r.status ≠ .consumed)
    (now : Instant) :
    r.consume now =
      .error (.conflict s!"cannot consume reservation {r.id} in status {r.status}") := by
  unfold consume
  cases hr : r.status with
  | «open» =>
    rw [hr] at hover
    cases hover
  | consumed => exact absurd hr h
  | expired => rfl
  | cancelled => rfl

theorem cancel_of_isTerminal (hover : r.status.isTerminal = true) (now : Instant) :
    r.cancel now = .error (.conflict s!"cannot cancel reservation {r.id} in status {r.status}") :=
  if_pos hover

end Reservation

/-- A malformed request is refused by its own rules. -/
theorem NewReservation.checkLines_error {seen : List Int} {ls : List NewReservationLine}
    {e : DomainError} (h : checkLines seen ls = .error e) : ∃ m, e = .validation m := by
  induction ls generalizing seen with
  | nil => cases h
  | cons l rest ih =>
    unfold checkLines at h
    repeat' split at h
    case isFalse.isFalse.isFalse => exact ih h
    all_goals
      cases h
      exact ⟨_, rfl⟩

theorem NewReservation.check_error {n : NewReservation} {e : DomainError}
    (h : n.check = .error e) : ∃ m, e = .validation m := by
  unfold check at h
  repeat' split at h
  case isFalse.isFalse => exact checkLines_error h
  all_goals
    cases h
    exact ⟨_, rfl⟩

/-! ## Fresh identifiers -/

/-- Whether the action draws no identifier that is in use. -/
def ReservationAction.DrawsFresh (s : ReservationState) : ReservationAction → Prop
  | create fresh n _ => s.byKey.get? n.key = none → s.byId.get? fresh = none
  | _ => True

instance (s : ReservationState) : (a : ReservationAction) → Decidable (a.DrawsFresh s)
  | .create fresh n _ =>
    inferInstanceAs (Decidable (s.byKey.get? n.key = none → s.byId.get? fresh = none))
  | .get _ | .findByKey _ | .consume _ _ | .cancel _ _ | .findExpired _ _ | .release _ _ =>
    isTrue trivial

namespace ReservationState

variable {s : ReservationState} {id : Uuid} {r : Reservation} {key : ReservationKey}
  {a : ReservationAction} {actions : List ReservationAction}

/-- Whether no action of a run draws an identifier that is in use at that time. -/
def RunsFresh (s : ReservationState) : List ReservationAction → Prop
  | [] => True
  | a :: rest => a.DrawsFresh s ∧ RunsFresh (a.step.runFrom s).2 rest

instance decidableRunsFresh (s : ReservationState) :
    (actions : List ReservationAction) → Decidable (s.RunsFresh actions)
  | [] => isTrue trivial
  | a :: rest =>
    have := decidableRunsFresh (a.step.runFrom s).2 rest
    inferInstanceAs (Decidable (a.DrawsFresh s ∧ RunsFresh (a.step.runFrom s).2 rest))

/-- What single calls keep if they draw fresh identifiers is kept by every run that does. -/
theorem RunsFresh.induction {P : ReservationState → Prop}
    (step : ∀ {s : ReservationState} {a : ReservationAction},
      a.DrawsFresh s → P s → P (a.step.runFrom s).2)
    (hfresh : s.RunsFresh actions) (h : P s) : P (s.run actions) := by
  induction actions generalizing s with
  | nil => exact h
  | cons a rest ih => exact ih hfresh.2 (step hfresh.1 h)

/-! ## The indexes agree -/

/-- The two indexes agree: a business key leads to the one stored reservation whose key it is, and
reservations stand under their own identifiers. -/
structure Indexed (s : ReservationState) : Prop where
  filed : s.Filed
  agree : ∀ key id, s.byKey.get? key = some id ↔ ∃ r, s.byId.get? id = some r ∧ r.key = key

theorem indexed_empty : empty.Indexed where
  filed id r h := by cases h
  agree key id := by
    constructor
    · intro h
      cases h
    · rintro ⟨r, h, -⟩
      cases h

/-- A reservation is opened under a key and an identifier that are not in use. -/
theorem Indexed.opened {fresh : Uuid} {n : NewReservation} {now : Instant} (h : s.Indexed)
    (hkey : s.byKey.get? n.key = none) (hid : s.byId.get? fresh = none)
    (hr : Reservation.start fresh n now = .ok r) :
    ({ s with byKey := s.byKey.insert n.key r.id }.put r).Indexed := by
  refine ⟨Filed.change (.opened hkey hr) h.filed, fun key id => ?_⟩
  show (s.byKey.insert n.key r.id).get? key = some id ↔
    ∃ q, (s.byId.insert r.id r).get? id = some q ∧ q.key = key
  obtain ⟨hrid, hrkey⟩ : r.id = fresh ∧ r.key = n.key := by
    obtain ⟨-, rfl⟩ := Reservation.start_eq_ok_iff.mp hr
    exact ⟨rfl, rfl⟩
  rw [OrderedMap.get?_insert, OrderedMap.get?_insert, hrid]
  by_cases hk : n.key = key
  · subst hk
    rw [if_pos rfl]
    constructor
    · rintro ⟨⟩
      rw [if_pos rfl]
      exact ⟨r, rfl, hrkey⟩
    · rintro ⟨q, hq, hqkey⟩
      split at hq
      · rename_i heq
        rw [heq]
      · -- the key would have been known already
        have hknown := (h.agree n.key id).mpr ⟨q, hq, hqkey⟩
        rw [hkey] at hknown
        cases hknown
  · rw [if_neg hk, h.agree key id]
    constructor
    · rintro ⟨q, hq, hqkey⟩
      have hne : fresh ≠ id := by
        rintro rfl
        rw [hid] at hq
        cases hq
      rw [if_neg hne]
      exact ⟨q, hq, hqkey⟩
    · rintro ⟨q, hq, hqkey⟩
      split at hq
      · cases hq
        exact absurd (hrkey.symm.trans hqkey) hk
      · exact ⟨q, hq, hqkey⟩

/-- What takes the place of a stored reservation has its key. -/
theorem Indexed.turned {q : Reservation} (h : s.Indexed) (hr : s.byId.get? id = some r)
    (turn : r.Turn q) : ({ s with byId := s.byId.insert id q } : ReservationState).Indexed where
  filed := Filed.change (.turned hr turn) h.filed
  agree key id' := by
    rw [h.agree key id']
    dsimp only
    rw [OrderedMap.get?_insert]
    split
    · rename_i hid
      subst hid
      rw [hr]
      constructor
      · rintro ⟨_, ⟨⟩, hkey⟩
        exact ⟨q, rfl, turn.key_eq.trans hkey⟩
      · rintro ⟨_, ⟨⟩, hkey⟩
        exact ⟨r, rfl, turn.key_eq.symm.trans hkey⟩
    · rfl

theorem Indexed.step (ha : a.DrawsFresh s) (h : s.Indexed) : (a.step.runFrom s).2.Indexed := by
  rcases a.step_shape s with
    ⟨_, hrun⟩ | ⟨fresh, n, now, r, rfl, hkey, hr, hrun⟩ | ⟨id, r, q, hid, turn, hrun⟩
  · rw [hrun]
    exact h
  · rw [hrun]
    exact h.opened hkey (ha hkey) hr
  · rw [hrun]
    exact h.turned hid turn

/-- A request never comes upon a key that leads nowhere. -/
theorem Indexed.create_ne_storage (h : s.Indexed) (fresh : Uuid) (n : NewReservation)
    (now : Instant) (m : String) : ((create fresh n now).runFrom s).1 ≠ .error (.storage m) := by
  cases hkey : s.byKey.get? n.key with
  | none =>
    rw [create_unknown hkey]
    split <;> nofun
  | some id =>
    obtain ⟨r, hr, -⟩ := (h.agree n.key id).mp hkey
    rw [create_known hkey hr]
    split <;> nofun

/-! ## A key opens one reservation -/

end ReservationState

/-- Whether the action is a request for the key, and is answered with a new reservation. -/
def ReservationAction.opens (key : ReservationKey) (s : ReservationState) :
    ReservationAction → Bool
  | create fresh n now =>
    n.key == key &&
      match ((store.create fresh n now).runFrom s).1 with
      | .ok c => c.created
      | .error _ => false
  | _ => false

namespace ReservationState

variable {s : ReservationState} {id : Uuid} {r : Reservation} {key : ReservationKey}
  {a : ReservationAction} {actions : List ReservationAction}

/-- How many actions of a run are requests for the key that were answered with a new
reservation. -/
def openings (key : ReservationKey) (s : ReservationState) : List ReservationAction → Nat
  | [] => 0
  | a :: rest => (if a.opens key s then 1 else 0) + openings key (a.step.runFrom s).2 rest

/-- A key that is known stays known. -/
theorem isSome_byKey_step (h : (s.byKey.get? key).isSome = true) (a : ReservationAction) :
    ((a.step.runFrom s).2.byKey.get? key).isSome = true := by
  rcases a.step_shape s with
    ⟨_, hrun⟩ | ⟨fresh, n, now, r, -, -, -, hrun⟩ | ⟨id, r, q, -, -, hrun⟩
  · rw [hrun]
    exact h
  · rw [hrun]
    show ((s.byKey.insert n.key r.id).get? key).isSome = true
    rw [OrderedMap.get?_insert]
    split
    · rfl
    · exact h
  · rw [hrun]
    exact h

/-- A request opens a reservation only if its key is not known, and it is known then. -/
theorem byKey_of_opens (h : a.opens key s = true) :
    s.byKey.get? key = none ∧ ((a.step.runFrom s).2.byKey.get? key).isSome = true := by
  cases a with
  | create fresh n now =>
    obtain ⟨hkey, hcreated⟩ := Bool.and_eq_true_iff.mp h
    obtain rfl := beq_iff_eq.mp hkey
    have hstore : store.create fresh n now = MemoryReservations.create fresh n now := rfl
    rw [hstore] at hcreated
    rw [ReservationAction.step, runFrom_forget_snd, hstore]
    rcases create_cases fresh n now s with
      ⟨e, hrun⟩ | ⟨id, r, q, -, -, -, hrun⟩ | ⟨r, hunknown, -, hrun⟩
    · rw [hrun] at hcreated
      cases hcreated
    · rw [hrun] at hcreated
      cases hcreated
    · have hknown : (s.byKey.insert n.key r.id).get? n.key = some r.id := by
        rw [OrderedMap.get?_insert, if_pos rfl]
      rw [hrun]
      exact ⟨hunknown, Option.isSome_of_eq_some hknown⟩
  | get _ | findByKey _ | consume _ _ | cancel _ _ | findExpired _ _ | release _ _ => cases h

theorem openings_eq_zero (h : (s.byKey.get? key).isSome = true) :
    s.openings key actions = 0 := by
  induction actions generalizing s with
  | nil => rfl
  | cons a rest ih =>
    have hnot : ¬ a.opens key s = true := by
      intro hopens
      rw [(byKey_of_opens hopens).1] at h
      cases h
    rw [openings, if_neg hnot, ih (isSome_byKey_step h a)]

theorem openings_le_one (key : ReservationKey) (s : ReservationState)
    (actions : List ReservationAction) : s.openings key actions ≤ 1 := by
  induction actions generalizing s with
  | nil => exact Nat.zero_le 1
  | cons a rest ih =>
    rw [openings]
    split
    · rename_i hopens
      have hrest : openings key (a.step.runFrom s).2 rest = 0 :=
        openings_eq_zero (byKey_of_opens hopens).2
      exact Nat.le_of_eq (congrArg (1 + ·) hrest)
    · rw [Nat.zero_add]
      exact ih _

/-! ## What is over stays as it is -/

/-- Whether a state keeps a reservation that is over, and every call leaves it as it is: a request
of its key and a cancellation are refused, so is its consumption unless it is consumed, and a
release does nothing. -/
structure Settled (t : ReservationState) (r : Reservation) : Prop where
  stored : t.byId.get? r.id = some r
  create : ∀ fresh n now, n.key = r.key → n.check = .ok () →
    (store.create fresh n now).runFrom t =
      (.error (.domain (.conflict s!"reservation {r.id} is {r.status}")), t)
  /-- A malformed request is refused before anything is looked up. -/
  malformed : ∀ fresh n now e, n.key = r.key → n.check = .error e →
    (∃ m, e = .validation m) ∧ (store.create fresh n now).runFrom t = (.error (.domain e), t)
  cancel : ∀ now, (store.cancel r.id now).runFrom t =
    (.error (.domain (.conflict s!"cannot cancel reservation {r.id} in status {r.status}")), t)
  consume : ∀ now, (store.consume r.id now).runFrom t =
    if r.status = .consumed then (.ok (r, .noop), t)
    else
      (.error (.domain (.conflict
        s!"cannot consume reservation {r.id} in status {r.status}")), t)
  release : ∀ now, (store.release r.id now).runFrom t = (.ok (.noop (some r.id)), t)

theorem Indexed.settled (h : s.Indexed) (hr : s.byId.get? r.id = some r)
    (hover : r.status.isTerminal = true) : s.Settled r := by
  have hkey : s.byKey.get? r.key = some r.id := (h.agree r.key r.id).mpr ⟨r, hr, rfl⟩
  have hsame : ({ s with byId := s.byId.insert r.id r } : ReservationState) = s := by
    rw [OrderedMap.insert_eq_self hr]
  refine ⟨hr, ?_, ?_, ?_, ?_, ?_⟩
  · intro fresh n now hn hcheck
    show (MemoryReservations.create fresh n now).runFrom s = _
    rw [← hn] at hkey
    rw [create_known hkey hr, Reservation.refresh_of_isTerminal hover hcheck]
  · intro fresh n now e hn hcheck
    refine ⟨NewReservation.check_error hcheck, ?_⟩
    show (MemoryReservations.create fresh n now).runFrom s = _
    rw [← hn] at hkey
    rw [create_known hkey hr, Reservation.refresh_of_malformed hcheck]
  · intro now
    show (MemoryReservations.cancel r.id now).runFrom s = _
    rw [cancel_known hr, Reservation.cancel_of_isTerminal hover]
  · intro now
    show (MemoryReservations.consume r.id now).runFrom s = _
    rw [consume_known hr]
    by_cases hconsumed : r.status = .consumed
    · rw [if_pos hconsumed, Reservation.consume_of_consumed hconsumed]
      dsimp only
      rw [hsame]
    · rw [if_neg hconsumed, Reservation.consume_of_isTerminal hover hconsumed]
  · intro now
    show (MemoryReservations.release r.id now).runFrom s = _
    have hnot : r.status ≠ .open := by
      intro hopen
      rw [Reservation.isTerminal_eq_false_iff.mpr hopen] at hover
      cases hover
    rw [release_known hr, Reservation.expire_of_not_open hnot]
    dsimp only
    rw [hsame]

/-- One call leaves a reservation that is over as it is. -/
theorem get?_step_of_isTerminal (hr : s.byId.get? id = some r)
    (hover : r.status.isTerminal = true) (ha : a.DrawsFresh s) :
    (a.step.runFrom s).2.byId.get? id = some r := by
  rcases a.step_shape s with
    ⟨_, hrun⟩ | ⟨fresh, n, now, q, rfl, hkey, hq, hrun⟩ | ⟨id', r', q, hr', turn, hrun⟩
  · rw [hrun]
    exact hr
  · rw [hrun]
    show (s.byId.insert q.id q).get? id = some r
    have hne : q.id ≠ id := by
      obtain ⟨-, rfl⟩ := Reservation.start_eq_ok_iff.mp hq
      rintro rfl
      rw [ha hkey] at hr
      cases hr
    rw [OrderedMap.get?_insert, if_neg hne]
    exact hr
  · rw [hrun]
    show (s.byId.insert id' q).get? id = some r
    rw [OrderedMap.get?_insert]
    split
    · rename_i heq
      obtain rfl : r' = r := Option.some.inj (hr'.symm.trans (heq ▸ hr))
      rw [turn.eq_of_isTerminal hover]
    · exact hr

end ReservationState

/-! ## Whole runs -/

open ReservationState in
/-- After every run that draws fresh identifiers the two indexes agree, so that no request comes
upon a key that leads nowhere; each business key was answered with a new reservation once at most;
and a reservation that is over is the same for ever, whatever is asked of it. -/
theorem reservation_lifecycle {actions : List ReservationAction}
    (hfresh : empty.RunsFresh actions) :
    (empty.run actions).Indexed ∧
    (∀ fresh n now m,
      ((store.create fresh n now).runFrom (empty.run actions)).1 ≠ .error (.storage m)) ∧
    (∀ key, empty.openings key actions ≤ 1) ∧
    ∀ id r, (empty.run actions).byId.get? id = some r → r.status.isTerminal = true →
      ∀ later, (empty.run actions).RunsFresh later →
        r.id = id ∧ ((empty.run actions).run later).Settled r := by
  have hindexed := hfresh.induction Indexed.step indexed_empty
  refine ⟨hindexed, hindexed.create_ne_storage, fun key => openings_le_one key _ _, ?_⟩
  intro id r hr hover later hlater
  obtain rfl := hindexed.filed id r hr
  have hkept : ((empty.run actions).run later).byId.get? r.id = some r :=
    hlater.induction (P := fun t => t.byId.get? r.id = some r)
      (fun ha h => get?_step_of_isTerminal h hover ha) hr
  exact ⟨rfl, (hlater.induction Indexed.step hindexed).settled hkept hover⟩

namespace Sample

theorem withdrawn_stored : promises.byId.get? (.ofNat 4) = some withdrawn := by decide

theorem fresh_promised : ReservationState.empty.RunsFresh promised := by decide

theorem fresh_insisting : promises.RunsFresh insisting := by decide

theorem emptyPromise_refused :
    ((store.create (.ofNat 5) emptyPromise (minute 2)).runFrom promises).1 =
      .error (.domain (.validation "line 1 qty must be positive, got 0")) := by rfl

end Sample

open Sample in
/-- The promise that was cancelled stays cancelled, however often it is asked for. -/
theorem reservation_lifecycle_withdrawn :
    ReservationState.empty.RunsFresh promised ∧ promises.RunsFresh insisting ∧
    promises.byId.get? (.ofNat 4) = some withdrawn ∧ withdrawn.status.isTerminal = true ∧
    promises.Indexed ∧
    ReservationState.empty.openings withdrawn.key (promised ++ insisting) = 1 ∧
    (promises.run insisting).Settled withdrawn := by
  obtain ⟨hindexed, -, -, hover⟩ := reservation_lifecycle fresh_promised
  exact ⟨fresh_promised, fresh_insisting, withdrawn_stored, rfl, hindexed, by decide,
    (hover _ _ withdrawn_stored rfl insisting fresh_insisting).2⟩

open Sample in
/-- A request for a reservation that is over is not always told so: one that is malformed is refused
for that reason. -/
theorem reservation_over_malformed :
    ¬ ∀ actions, ReservationState.empty.RunsFresh actions →
      ∀ id r, (ReservationState.empty.run actions).byId.get? id = some r →
      r.status.isTerminal = true → ∀ fresh n now, n.key = r.key →
      ∃ m, ((store.create fresh n now).runFrom (ReservationState.empty.run actions)).1 =
        .error (.domain (.conflict m)) := by
  intro h
  obtain ⟨m, hconflict⟩ := h promised fresh_promised (.ofNat 4) withdrawn withdrawn_stored rfl
    (.ofNat 5) emptyPromise (minute 2) rfl
  have hrefused := emptyPromise_refused
  rw [promises] at hrefused
  rw [hrefused] at hconflict
  cases hconflict

end Stockroom
