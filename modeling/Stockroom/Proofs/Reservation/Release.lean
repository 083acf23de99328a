/-
Stockroom.Proofs.Reservation.Release — which reservations a release ends.

* A release looks at the status alone; that only reservations past their time to live are
  released is up to the search for them. Whatever happens between the search and the release,
  a reservation keeps the time to live it was found with until a request sets another one
  (`ReservationState.expireAt_run`).
* `release_ends_open` says which reservations that leaves to be ended. A reservation that was
  found, and then refreshed before its release, is ended although its time is not over
  (`release_ends_refreshed`).
-/
import Stockroom.Proofs.Reservation.Due

namespace Stockroom

open StoreM MemoryReservations

/-! ## What a call does to the time to live -/

namespace Reservation

variable {r q : Reservation} {now : Instant}

theorem expireAt_of_consume {outcome : ConsumeOutcome} (h : r.consume now = .ok (q, outcome)) :
    q.expireAt = r.expireAt := by
  rcases consume_eq_ok_iff.mp h with ⟨-, rfl, -⟩ | ⟨-, -, rfl⟩
  · rfl
  · rfl

theorem expireAt_of_cancel (h : r.cancel now = .ok q) : q.expireAt = r.expireAt := by
  obtain ⟨-, rfl⟩ := cancel_eq_ok_iff.mp h
  rfl

theorem expireAt_expire (r : Reservation) (now : Instant) :
    (r.expire now).1.expireAt = r.expireAt := by
  unfold expire
  split <;> rfl

theorem expireAt_of_refresh {n : NewReservation} (h : r.refresh n now = .ok q) :
    q.expireAt = n.expireAt := by
  obtain ⟨-, -, rfl⟩ := refresh_eq_ok_iff.mp h
  rfl

theorem expireAt_of_start {fresh : Uuid} {n : NewReservation}
    (h : Reservation.start fresh n now = .ok r) : r.expireAt = n.expireAt := by
  obtain ⟨-, rfl⟩ := start_eq_ok_iff.mp h
  rfl

end Reservation

/-- Whether the action is a request that gives the reservation the time to live `t`. -/
def ReservationAction.Sets (a : ReservationAction) (s : ReservationState) (id : Uuid)
    (t : Instant) : Prop :=
  ∃ fresh n now c u, a = .create fresh n now ∧
    (store.create fresh n now).runFrom s = (.ok c, u) ∧ c.reservation.id = id ∧ n.expireAt = t

namespace ReservationState

variable {s : ReservationState} {id : Uuid} {r : Reservation} {now t : Instant}

/-- Whether the time to live `t` was given to the reservation during a run. -/
def SetDuring (s : ReservationState) (actions : List ReservationAction) (id : Uuid)
    (t : Instant) : Prop :=
  ∃ before a after, actions = before ++ a :: after ∧ a.Sets (s.run before) id t

theorem SetDuring.cons {rest : List ReservationAction} (a : ReservationAction)
    (h : (a.step.runFrom s).2.SetDuring rest id t) : s.SetDuring (a :: rest) id t := by
  obtain ⟨before, b, after, rfl, hb⟩ := h
  exact ⟨a :: before, b, after, rfl, hb⟩

/-- What replaces a stored reservation without touching its time to live leaves that of every
reservation alone. -/
theorem expireAt_insert (hr : s.byId.get? id = some r) {id' : Uuid} {r' q' : Reservation}
    (hr' : s.byId.get? id' = some r') (hq : q'.expireAt = r'.expireAt) :
    ∃ q, (s.byId.insert id' q').get? id = some q ∧ q.expireAt = r.expireAt := by
  rw [OrderedMap.get?_insert]
  split
  · rename_i hid
    rw [hid, hr] at hr'
    cases hr'
    exact ⟨q', rfl, hq⟩
  · exact ⟨r, hr, rfl⟩

/-- One call keeps the time to live of a reservation, or sets it. -/
theorem expireAt_step (hs : s.Filed) (hr : s.byId.get? id = some r) (a : ReservationAction) :
    ∃ q, (a.step.runFrom s).2.byId.get? id = some q ∧
      (q.expireAt = r.expireAt ∨ a.Sets s id q.expireAt) := by
  have kept : ∀ {u : ReservationState},
      (∃ q, u.byId.get? id = some q ∧ q.expireAt = r.expireAt) →
      ∃ q, u.byId.get? id = some q ∧ (q.expireAt = r.expireAt ∨ a.Sets s id q.expireAt) := by
    rintro u ⟨q, hq, hkeep⟩
    exact ⟨q, hq, .inl hkeep⟩
  have same : ∃ q, s.byId.get? id = some q ∧ q.expireAt = r.expireAt := ⟨r, hr, rfl⟩
  cases a with
  | create fresh n now =>
    simp only [ReservationAction.step, runFrom_forget_snd, store]
    rcases create_cases fresh n now s with
      ⟨e, h⟩ | ⟨id', r', q', -, hr', hq', h⟩ | ⟨r', -, hstart, h⟩
    · rw [h]
      exact kept same
    · rw [h]
      dsimp only
      rw [OrderedMap.get?_insert]
      split
      · -- the request refreshes this very reservation
        rename_i hid
        have hid' : q'.id = id :=
          (Reservation.Turn.refreshed hq').id_eq.trans ((hs id' r' hr').trans hid)
        exact ⟨q', rfl, .inr ⟨fresh, n, now, _, _, rfl, h, hid',
          (Reservation.expireAt_of_refresh hq').symm⟩⟩
      · exact kept same
    · rw [h]
      show ∃ q, (s.byId.insert r'.id r').get? id = some q ∧ _
      rw [OrderedMap.get?_insert]
      split
      · rename_i hid
        exact ⟨r', rfl, .inr ⟨fresh, n, now, _, _, rfl, h, hid,
          (Reservation.expireAt_of_start hstart).symm⟩⟩
      · exact kept same
  | consume id' now =>
    apply kept
    simp only [ReservationAction.step, runFrom_forget_snd, store]
    rcases consume_cases id' now s with ⟨e, h⟩ | ⟨r', q', outcome, hr', hq', h⟩
    · rw [h]
      exact same
    · rw [h]
      exact expireAt_insert hr hr' (Reservation.expireAt_of_consume hq')
  | cancel id' now =>
    apply kept
    simp only [ReservationAction.step, runFrom_forget_snd, store]
    rcases cancel_cases id' now s with ⟨e, h⟩ | ⟨r', q', hr', hq', h⟩
    · rw [h]
      exact same
    · rw [h]
      exact expireAt_insert hr hr' (Reservation.expireAt_of_cancel hq')
  | release id' now =>
    apply kept
    simp only [ReservationAction.step, runFrom_forget_snd, store]
    cases hr' : s.byId.get? id' with
    | none =>
      rw [release_unknown hr']
      exact same
    | some r' =>
      rw [release_known hr']
      exact expireAt_insert hr hr' (r'.expireAt_expire now)
  | get id' => exact kept same
  | findByKey key => exact kept same
  | findExpired now limit => exact kept same

/-- A reservation keeps its time to live until a request sets another one. -/
theorem expireAt_run (hs : s.Filed) (hr : s.byId.get? id = some r)
    (actions : List ReservationAction) :
    ∃ q, (s.run actions).byId.get? id = some q ∧
      (q.expireAt = r.expireAt ∨ s.SetDuring actions id q.expireAt) := by
  induction actions generalizing s r with
  | nil => exact ⟨r, hr, .inl rfl⟩
  | cons a rest ih =>
    obtain ⟨q, hq, hstep⟩ := expireAt_step hs hr a
    have hs' : (a.step.runFrom s).2.Filed := run_induction Filed.change hs [a]
    obtain ⟨q', hq', hrest⟩ := ih hs' hq
    refine ⟨q', hq', ?_⟩
    rcases hrest with hkept | hset
    · rcases hstep with hsame | hset
      · exact .inl (hkept.trans hsame)
      · rw [hkept]
        exact .inr ⟨[], a, rest, rfl, hset⟩
    · exact .inr (hset.cons a)

end ReservationState

/-! ## Which reservations are ended -/

/-- A release ends a reservation exactly if it is open right before the call. One that was
found past its time to live, and is released later, was due when it was found; when it is
ended it is still past its time, unless a request has set another one since. -/
theorem release_ends_open {s : ReservationState} (hs : s.Reachable) (id : Uuid) (now : Instant) :
    ((∃ r, s.byId.get? id = some r ∧ r.status = .open ∧
        (store.release id now).runFrom s = (.ok (.expired id),
          { s with
            byId := s.byId.insert id { r with status := .expired, updatedAt := now } })) ∨
      (∀ r, s.byId.get? id = some r → r.status ≠ .open) ∧
        (store.release id now).runFrom s =
          (.ok (.noop ((s.byId.get? id).map (fun _ => id))), s)) ∧
    ∀ limit ids actions, (store.findExpired now limit).runFrom s = (.ok ids, s) → id ∈ ids →
      ((store.release id now).runFrom (s.run actions)).1 = .ok (.expired id) →
      s.IsDue now id ∧ ∃ r, (s.run actions).byId.get? id = some r ∧ r.status = .open ∧
        (r.expireAt < now ∨ s.SetDuring actions id r.expireAt) := by
  have hfiled := hs.filed
  constructor
  · by_cases hopen : ∃ r, s.byId.get? id = some r ∧ r.status = .open
    · obtain ⟨r, hr, hopen⟩ := hopen
      exact .inl ⟨r, hr, hopen, ReservationState.release_of_open hfiled hr hopen now⟩
    · push Not at hopen
      exact .inr ⟨hopen, ReservationState.release_of_not_open hfiled hopen now⟩
  · intro limit ids actions hfind hmem hrelease
    rw [ReservationState.findExpired_runFrom] at hfind
    cases hfind
    have hdue : s.IsDue now id :=
      (ReservationState.mem_due_iff hfiled).mp (List.mem_of_mem_take hmem)
    obtain ⟨q, hq, hopen⟩ := ReservationState.open_of_release (hs.run actions).filed hrelease
    refine ⟨hdue, q, hq, hopen, ?_⟩
    obtain ⟨r, hr, -, hlate⟩ := hdue
    obtain ⟨q', hq', hkept⟩ := ReservationState.expireAt_run hfiled hr actions
    obtain rfl : q' = q := Option.some.inj (hq'.symm.trans hq)
    rcases hkept with hsame | hset
    · rw [hsame]
      exact .inl hlate
    · exact .inr hset

namespace Sample

theorem found : (store.findExpired (minute 6) 10).runFrom promises =
    (.ok [.ofNat 3, .ofNat 2], promises) := by decide

theorem ended : ((store.release (.ofNat 2) (minute 6)).runFrom (promises.run prolonging)).1 =
    .ok (.expired (.ofNat 2)) := by decide

/-- The prolonged promise is open, and far from its end. -/
theorem prolonged : ∃ r, (promises.run prolonging).byId.get? (.ofNat 2) = some r ∧
    r.status = .open ∧ ¬ r.expireAt < minute 6 := by
  cases h : (promises.run prolonging).byId.get? (.ofNat 2) with
  | none =>
    have hsome : ((promises.run prolonging).byId.get? (.ofNat 2)).isSome = true := by decide
    rw [h] at hsome
    cases hsome
  | some r =>
    have hopen : ((promises.run prolonging).byId.get? (.ofNat 2)).map (·.status) =
        some .open := by decide
    have hends : ((promises.run prolonging).byId.get? (.ofNat 2)).map (·.expireAt) =
        some (minute 30) := by decide
    rw [h] at hopen hends
    replace hends : r.expireAt = minute 30 := Option.some.inj hends
    refine ⟨r, rfl, Option.some.inj hopen, ?_⟩
    rw [hends]
    decide

end Sample

open Sample in
/-- The promise that was prolonged after it had been found was due then, and its time to live
is another one when it is ended. -/
theorem release_ends_open_prolonged :
    promises.Reachable ∧
    (store.findExpired (minute 6) 10).runFrom promises =
      (.ok [.ofNat 3, .ofNat 2], promises) ∧
    ((store.release (.ofNat 2) (minute 6)).runFrom (promises.run prolonging)).1 =
      .ok (.expired (.ofNat 2)) ∧
    promises.IsDue (minute 6) (.ofNat 2) ∧
    ∃ r, (promises.run prolonging).byId.get? (.ofNat 2) = some r ∧ r.status = .open ∧
      (r.expireAt < minute 6 ∨ promises.SetDuring prolonging (.ofNat 2) r.expireAt) :=
  ⟨reachable_promises, found, ended,
    (release_ends_open reachable_promises (.ofNat 2) (minute 6)).2 10 _ prolonging found
      (by decide) ended⟩

open Sample in
/-- A release does not ask whether the time to live is over, neither by itself nor behind a
search: a promise found at minute 6, prolonged to minute 30 and then released is ended. -/
theorem release_ends_refreshed :
    (¬ ∀ s : ReservationState, s.Reachable → ∀ id now,
      ((store.release id now).runFrom s).1 = .ok (.expired id) → s.IsDue now id) ∧
    ¬ ∀ s : ReservationState, s.Reachable → ∀ id now limit ids actions r,
      (store.findExpired now limit).runFrom s = (.ok ids, s) → id ∈ ids →
      (s.run actions).byId.get? id = some r → r.status = .open → ¬ r.expireAt < now →
      ((store.release id now).runFrom (s.run actions)).2.byId.get? id = some r := by
  obtain ⟨r, hr, hopen, hlater⟩ := prolonged
  constructor
  · intro h
    obtain ⟨q, hq, -, hlate⟩ := h _ (reachable_promises.run prolonging) _ _ ended
    obtain rfl : r = q := Option.some.inj (hr.symm.trans hq)
    exact hlater hlate
  · intro h
    have hkept := h _ reachable_promises _ _ 10 _ prolonging r found (by decide) hr hopen hlater
    have hstatus : (((store.release (.ofNat 2) (minute 6)).runFrom
        (promises.run prolonging)).2.byId.get? (.ofNat 2)).map (·.status) =
        some .expired := by decide
    rw [hkept, Option.map_some, hopen] at hstatus
    cases hstatus

end Stockroom
