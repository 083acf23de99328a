/-
Stockroom.Proofs.Reservation.Due — the reservations that are past their time to live.

* `IsDue` says which reservations these are, and `EndsBefore` which of two comes first, both
  read off the stored reservations alone. `due` is the list that `findExpired` answers from:
  it holds exactly those that are due (`mem_due_iff`), in that order (`pairwise_due`), and no
  other list does (`Reservation.eq_of_pairwise`).
* A release looks at the status alone: it ends the reservation exactly if it is open
  (`release_of_open`, `release_of_not_open`).
* `releasedAll` is what releasing reservations one after another leaves. Each of them that was
  open has ended, and all others are as they were (`get?_releasedAll`). What was released is no
  longer due, and what was not keeps its place among those that are (`due_releasedAll`).
-/
import Mathlib.Data.List.Nodup
import Stockroom.Proofs.Reservation.History

namespace Stockroom

open StoreM MemoryReservations

/-! ## The order of ending -/

namespace Reservation

/-- Whether a reservation ends before another one: it lives shorter, or as long under a
smaller identifier. -/
def EndsBefore (r q : Reservation) : Prop :=
  r.expireAt < q.expireAt ∨ r.expireAt = q.expireAt ∧ r.id.toNat < q.id.toNat

/-- The comparison by which expired reservations are sorted. -/
def endOrder : Reservation → Reservation → Ordering :=
  compareLex (compareOn Reservation.expireAt) (compareOn Reservation.id)

instance : Std.TransCmp endOrder :=
  inferInstanceAs (Std.TransCmp
    (compareLex (compareOn Reservation.expireAt) (compareOn Reservation.id)))

theorem endOrder_eq_lt_iff {r q : Reservation} : endOrder r q = .lt ↔ r.EndsBefore q := by
  show (compare r.expireAt q.expireAt).then (compare r.id q.id) = .lt ↔ _
  rw [Ordering.then_eq_lt, Instant.compare_eq_lt_iff, Std.LawfulEqOrd.compare_eq_iff_eq,
    Uuid.compare_eq_lt_iff]
  rfl

theorem id_eq_of_endOrder_eq {r q : Reservation} (h : endOrder r q = .eq) : r.id = q.id := by
  replace h : (compare r.expireAt q.expireAt).then (compare r.id q.id) = .eq := h
  exact Std.LawfulEqOrd.eq_of_compare (Ordering.then_eq_eq.mp h).2

theorem EndsBefore.asymm {r q : Reservation} (h : r.EndsBefore q) : ¬ q.EndsBefore r := by
  rw [← endOrder_eq_lt_iff] at h ⊢
  rw [Std.OrientedCmp.gt_of_lt h]
  decide

/-- Two lists in the order of ending that hold the same reservations are the same list. -/
theorem eq_of_pairwise {xs ys : List Reservation} (hx : xs.Pairwise EndsBefore)
    (hy : ys.Pairwise EndsBefore) (h : ∀ r, r ∈ xs ↔ r ∈ ys) : xs = ys := by
  have hne : ∀ {r q : Reservation}, r.EndsBefore q → r ≠ q := by
    rintro r q hrq rfl
    exact hrq.asymm hrq
  have hperm : xs.Perm ys := (List.perm_ext_iff_of_nodup (hx.imp hne) (hy.imp hne)).mpr h
  exact hperm.eq_of_pairwise (fun r q _ _ hrq hqr => (hrq.asymm hqr).elim) hx hy

end Reservation

namespace ReservationState

variable {s : ReservationState} {now : Instant} {id : Uuid}

/-! ## What is due -/

/-- Whether a reservation is open and past its time to live. -/
def IsDue (s : ReservationState) (now : Instant) (id : Uuid) : Prop :=
  ∃ r, s.byId.get? id = some r ∧ r.status = .open ∧ r.expireAt < now

/-- Whether one stored reservation ends before another one. -/
def EndsBefore (s : ReservationState) (id id' : Uuid) : Prop :=
  ∃ r q, s.byId.get? id = some r ∧ s.byId.get? id' = some q ∧
    (r.expireAt < q.expireAt ∨ r.expireAt = q.expireAt ∧ id.toNat < id'.toNat)

theorem EndsBefore.ne {id' : Uuid} (h : s.EndsBefore id id') : id ≠ id' := by
  rintro rfl
  obtain ⟨r, q, hr, hq, h⟩ := h
  obtain rfl : r = q := Option.some.inj (hr.symm.trans hq)
  have hself : ¬ r.EndsBefore r := fun hlt => hlt.asymm hlt
  rcases h with h | ⟨-, h⟩
  · exact hself (.inl h)
  · omega

/-- Expired reservations are those that are due. -/
theorem mem_expired_iff (hs : s.Filed) {r : Reservation} :
    r ∈ s.expired now ↔
      s.byId.get? r.id = some r ∧ r.status = .open ∧ r.expireAt < now := by
  simp only [expired, mem_sortBy, List.mem_filter, OrderedMap.mem_values_iff,
    Reservation.isExpiredAt, Bool.and_eq_true, beq_iff_eq, decide_eq_true_eq]
  constructor
  · rintro ⟨⟨id, hr⟩, hopen, hlate⟩
    obtain rfl := hs id r hr
    exact ⟨hr, hopen, hlate⟩
  · rintro ⟨hr, hopen, hlate⟩
    exact ⟨⟨r.id, hr⟩, hopen, hlate⟩

/-- Stored reservations have an identifier each. -/
theorem Filed.nodup_values (hs : s.Filed) : (s.byId.values.map (·.id)).Nodup := by
  have hkeys : s.byId.values.map (·.id) = s.byId.keys := by
    rw [OrderedMap.values, OrderedMap.keys, List.map_map]
    apply List.map_congr_left
    rintro ⟨id, r⟩ hmem
    exact hs id r (OrderedMap.mem_toList_iff.mp hmem)
  rw [hkeys]
  exact s.byId.nodup_keys

/-- Expired reservations are listed in the order in which they end. -/
theorem pairwise_expired (hs : s.Filed) : (s.expired now).Pairwise Reservation.EndsBefore := by
  have hle : (s.expired now).Pairwise (fun a b => (Reservation.endOrder a b).isLE = true) :=
    pairwise_sortBy_isLE Reservation.endOrder _
  have hids : ((s.expired now).map (·.id)).Nodup :=
    (((sortBy_perm _ _).map _).nodup_iff).mpr
      (hs.nodup_values.sublist (List.filter_sublist.map _))
  refine (hle.and (List.pairwise_map.mp hids)).imp ?_
  rintro a b ⟨hab, hne⟩
  rw [← Reservation.endOrder_eq_lt_iff]
  cases h : Reservation.endOrder a b with
  | lt => rfl
  | eq => exact (hne (Reservation.id_eq_of_endOrder_eq h)).elim
  | gt =>
    rw [h] at hab
    cases hab

/-- The identifiers of what is due, in the order in which it ends. -/
def due (s : ReservationState) (now : Instant) : List Uuid := (s.expired now).map (·.id)

theorem findExpired_runFrom (s : ReservationState) (now : Instant) (limit : Nat) :
    (store.findExpired now limit).runFrom s = (.ok ((s.due now).take limit), s) := by
  rw [due, ← List.map_take]
  rfl

theorem mem_due_iff (hs : s.Filed) : id ∈ s.due now ↔ s.IsDue now id := by
  simp only [due, List.mem_map]
  constructor
  · rintro ⟨r, hr, rfl⟩
    exact ⟨r, (mem_expired_iff hs).mp hr⟩
  · rintro ⟨r, hr, hdue⟩
    obtain rfl := hs id r hr
    exact ⟨r, (mem_expired_iff hs).mpr ⟨hr, hdue⟩, rfl⟩

theorem pairwise_due (hs : s.Filed) : (s.due now).Pairwise s.EndsBefore := by
  rw [due, List.pairwise_map]
  refine (pairwise_expired hs).imp_of_mem ?_
  intro a b ha hb hab
  exact ⟨a, b, ((mem_expired_iff hs).mp ha).1, ((mem_expired_iff hs).mp hb).1, hab⟩

theorem nodup_due (hs : s.Filed) : (s.due now).Nodup := (pairwise_due hs).imp EndsBefore.ne

theorem length_due_le (s : ReservationState) (now : Instant) :
    (s.due now).length ≤ s.byId.size := by
  have hvalues : s.byId.values.length = s.byId.size := List.length_map _
  rw [due, List.length_map, expired, length_sortBy, ← hvalues]
  exact List.length_filter_le _ _

/-! ## Releasing -/

theorem release_of_open (hs : s.Filed) {r : Reservation} (hr : s.byId.get? id = some r)
    (hopen : r.status = .open) (now : Instant) :
    (store.release id now).runFrom s = (.ok (.expired id),
      { s with byId := s.byId.insert id { r with status := .expired, updatedAt := now } }) := by
  show (release id now).runFrom s = _
  rw [release_known hr, Reservation.expire_of_open hopen, hs id r hr]

theorem release_of_not_open (hs : s.Filed)
    (hr : ∀ r, s.byId.get? id = some r → r.status ≠ .open) (now : Instant) :
    (store.release id now).runFrom s =
      (.ok (.noop ((s.byId.get? id).map (fun _ => id))), s) := by
  show (release id now).runFrom s = _
  cases h : s.byId.get? id with
  | none => exact release_unknown h now
  | some r =>
    rw [release_known h, Reservation.expire_of_not_open (hr r h), OrderedMap.insert_eq_self h,
      hs id r h]
    rfl

/-- A release that answers that a reservation has ended found it open. -/
theorem open_of_release (hs : s.Filed)
    (h : ((store.release id now).runFrom s).1 = .ok (.expired id)) :
    ∃ r, s.byId.get? id = some r ∧ r.status = .open := by
  by_contra hnone
  push Not at hnone
  rw [release_of_not_open hs hnone now] at h
  cases h

/-- The state after reservations have been released, one after another. -/
def releasedAll (s : ReservationState) (now : Instant) (ids : List Uuid) : ReservationState :=
  s.run (ids.map (ReservationAction.release · now))

theorem releasedAll_cons (s : ReservationState) (now : Instant) (id : Uuid) (rest : List Uuid) :
    s.releasedAll now (id :: rest) =
      ((store.release id now).runFrom s).2.releasedAll now rest := by
  show ((ReservationAction.release id now).step.runFrom s).2.run _ = _
  rw [ReservationAction.step, runFrom_forget_snd]
  rfl

theorem releasedAll_append (s : ReservationState) (now : Instant) (xs ys : List Uuid) :
    s.releasedAll now (xs ++ ys) = (s.releasedAll now xs).releasedAll now ys := by
  rw [releasedAll, List.map_append, run_append]
  rfl

theorem Filed.releasedAll (hs : s.Filed) (now : Instant) (ids : List Uuid) :
    (s.releasedAll now ids).Filed :=
  run_induction Filed.change hs _

/-- A release ends the reservation if it is open, and leaves all others alone. -/
theorem get?_release (s : ReservationState) (now : Instant) (id j : Uuid) :
    ((store.release id now).runFrom s).2.byId.get? j =
      if id = j then (s.byId.get? j).map (fun r => (r.expire now).1) else s.byId.get? j := by
  show ((release id now).runFrom s).2.byId.get? j = _
  cases h : s.byId.get? id with
  | none =>
    rw [release_unknown h]
    split
    · rename_i hid
      rw [← hid, h]
      rfl
    · rfl
  | some r =>
    rw [release_known h, OrderedMap.get?_insert]
    split
    · rename_i hid
      rw [← hid, h]
      rfl
    · rfl

theorem byKey_release (s : ReservationState) (now : Instant) (id : Uuid) :
    ((store.release id now).runFrom s).2.byKey = s.byKey := by
  show ((release id now).runFrom s).2.byKey = _
  cases h : s.byId.get? id with
  | none => rw [release_unknown h]
  | some r => rw [release_known h]

end ReservationState

/-- A second release makes no difference. -/
theorem Reservation.expire_expire (r : Reservation) (now : Instant) :
    ((r.expire now).1.expire now).1 = (r.expire now).1 := by
  by_cases h : r.status = .open
  · rw [expire_of_open h, expire_of_not_open (by simp)]
  · rw [expire_of_not_open h, expire_of_not_open h]

theorem Reservation.status_expire_ne (r : Reservation) (now : Instant) :
    (r.expire now).1.status ≠ .open := by
  by_cases h : r.status = .open
  · rw [expire_of_open h]
    simp
  · rw [expire_of_not_open h]
    exact h

namespace ReservationState

variable {s : ReservationState} {now : Instant}

theorem get?_releasedAll (s : ReservationState) (now : Instant) (ids : List Uuid) (j : Uuid) :
    (s.releasedAll now ids).byId.get? j =
      if j ∈ ids then (s.byId.get? j).map (fun r => (r.expire now).1) else s.byId.get? j := by
  induction ids generalizing s with
  | nil => rfl
  | cons id rest ih =>
    rw [releasedAll_cons, ih, get?_release]
    by_cases hid : id = j
    · subst hid
      simp only [if_true, List.mem_cons_self, Option.map_map]
      split
      · congr 1
        funext r
        exact r.expire_expire now
      · rfl
    · simp only [if_neg hid, List.mem_cons, Ne.symm hid, false_or]

theorem byKey_releasedAll (s : ReservationState) (now : Instant) (ids : List Uuid) :
    (s.releasedAll now ids).byKey = s.byKey := by
  induction ids generalizing s with
  | nil => rfl
  | cons id rest ih => rw [releasedAll_cons, ih, byKey_release]

/-- What was released is no longer due, and the rest of what is due stays in its order. -/
theorem due_releasedAll (hs : s.Filed) (ids : List Uuid) :
    (s.releasedAll now ids).due now = (s.due now).filter (fun id => decide (id ∉ ids)) := by
  rw [due, due, List.filter_map]
  congr 1
  apply Reservation.eq_of_pairwise (pairwise_expired (hs.releasedAll now ids))
    ((pairwise_expired hs).filter _)
  intro r
  rw [mem_expired_iff (hs.releasedAll now ids), List.mem_filter, mem_expired_iff hs,
    get?_releasedAll]
  simp only [Function.comp_apply, decide_eq_true_eq]
  by_cases hmem : r.id ∈ ids
  · -- a released reservation is not open, whatever it was before
    simp only [hmem, if_true, not_true, and_false, iff_false]
    rintro ⟨hr, hopen, -⟩
    obtain ⟨q, -, rfl⟩ := Option.map_eq_some_iff.mp hr
    exact q.status_expire_ne now hopen
  · simp only [hmem, if_false, not_false_eq_true, and_true]

theorem isDue_releasedAll (hs : s.Filed) {ids : List Uuid} {id : Uuid} :
    (s.releasedAll now ids).IsDue now id ↔ s.IsDue now id ∧ id ∉ ids := by
  rw [← mem_due_iff (hs.releasedAll now ids), due_releasedAll hs, List.mem_filter,
    mem_due_iff hs, decide_eq_true_eq]

end ReservationState

end Stockroom
