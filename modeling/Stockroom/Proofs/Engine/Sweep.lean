/-
Stockroom.Proofs.Engine.Sweep — a sweep ends all that is due, whatever the size of its batches
and whatever cannot be ended.

* `RefusesOnly` says of a store of reservations that it keeps them in memory, except that it
  fails to release some of them; `refusal` tells which, and how it fails.
* A round of a sweep takes up the first of those that are due and not noted as failed. What is
  noted stays due and stands in front, so a batch that is widened by the failures reaches just
  as far behind them (`candidates_eq`). That is the invariant of the loop: what is due consists
  of the failures and a rest, which every round but the last makes shorter (`drain_runFrom`).
* `sweep_complete` says what a sweep answers and leaves, and that a second one ends nothing.
-/
import Stockroom.Engine.Faults
import Stockroom.Engine.Memory
import Stockroom.Proofs.Engine.Step
import Stockroom.Proofs.Reservation.Due

namespace Stockroom

open EngineM ReservationState

variable {σ τ : Type}

/-! ## Stores that refuse -/

/-- Whether a store of reservations keeps them in memory, in the place that `place` gives them
in its state, except that it fails to release those with a `refusal`. -/
structure RefusesOnly (store : ReservationStore (StoreM σ)) (place : ReservationState → σ)
    (refusal : Uuid → Option StoreError) : Prop where
  finds : ∀ s now limit, (store.findExpired now limit).runFrom (place s) =
    (((MemoryReservations.store.findExpired now limit).runFrom s).1, place s)
  refuses : ∀ s id now e, refusal id = some e →
    (store.release id now).runFrom (place s) = (.error e, place s)
  ends : ∀ s id now, refusal id = none →
    (store.release id now).runFrom (place s) =
      (((MemoryReservations.store.release id now).runFrom s).1,
        place ((MemoryReservations.store.release id now).runFrom s).2)
  loads : ∀ s id, ((store.get id).runFrom (place s)).2 = place s

/-! ## Faults in front of memory -/

/-- How releasing a reservation fails behind faults, if it does. -/
def Faults.refusal (faults : Faults) (id : Uuid) : Option StoreError :=
  match faults.reservations.get? id with
  | some .releaseFails => some (.storage "connection reset")
  | some .releaseConflicts => some (.domain (.conflict s!"reservation {id} is busy"))
  | _ => .none

/-- Faults in front of an engine over memory make a store that refuses, if the search does not
fail and nobody else closes a reservation first. -/
theorem refusesOnly_faulty (audit : AuditSink τ) (settings : EngineSettings) (stock : StockState)
    (faults : Faults) (hfind : faults.findExpiredFails = false)
    (hfirst : ∀ id, faults.reservations.get? id ≠ some .consumedFirst ∧
      faults.reservations.get? id ≠ some .cancelledFirst) :
    RefusesOnly (Engine.inMemory audit settings).faulty.reservations
      (fun s => ⟨⟨stock, s⟩, faults⟩) faults.refusal := by
  have hfault : ∀ s id, (Faulty.faultOf id).runFrom (⟨⟨stock, s⟩, faults⟩ : Faulty MemoryState) =
      (.ok (faults.reservations.get? id), ⟨⟨stock, s⟩, faults⟩) := fun _ _ => rfl
  constructor
  case finds =>
    intro s now limit
    simp only [Engine.faulty, Faulty.reservations, StoreM.runFrom_get_bind, hfind,
      Bool.false_eq_true, if_false]
    rfl
  case refuses =>
    intro s id now e href
    simp only [Engine.faulty, Faulty.reservations, Faulty.release, StoreM.runFrom_bind, hfault]
    unfold Faults.refusal at href
    split at href
    · rename_i h
      rw [h]
      cases href
      rfl
    · rename_i h
      rw [h]
      cases href
      rfl
    · cases href
  case ends =>
    intro s id now href
    obtain ⟨hconsumed, hcancelled⟩ := hfirst id
    simp only [Engine.faulty, Faulty.reservations, Faulty.release, StoreM.runFrom_bind, hfault]
    unfold Faults.refusal at href
    cases h : faults.reservations.get? id with
    | none => rfl
    | some fault =>
      rw [h] at href hconsumed hcancelled
      cases fault with
      | releaseFails => cases href
      | releaseConflicts => cases href
      | consumedFirst => exact (hconsumed rfl).elim
      | cancelledFirst => exact (hcancelled rfl).elim
      | getFails => rfl
      | getFindsNothing => rfl
  case loads =>
    intro s id
    simp only [Engine.faulty, Faulty.reservations, Faulty.getReservation, StoreM.runFrom_bind,
      hfault]
    cases faults.reservations.get? id with
    | none => rfl
    | some fault => cases fault <;> rfl

/-! ## What is ended, what fails -/

section Refusal

variable (refusal : Uuid → Option StoreError)

/-- Those that can be ended. -/
def endable (ids : List Uuid) : List Uuid := ids.filter (fun id => (refusal id).isNone)

/-- How ending a reservation fails, if it does. -/
def sweepFailure (id : Uuid) : Option SweepFailure :=
  (refusal id).map (fun e => ⟨id, e.message⟩)

/-- A report to which reservations have been added, ended or failed. -/
def SweepReport.add (report : SweepReport) (ids : List Uuid) : SweepReport :=
  { report with
    expired := report.expired ++ endable refusal ids
    failed := report.failed ++ ids.filterMap (sweepFailure refusal) }

theorem endable_append (xs ys : List Uuid) :
    endable refusal (xs ++ ys) = endable refusal xs ++ endable refusal ys := by
  simp only [endable, List.filter_append]

theorem SweepReport.add_nil (report : SweepReport) : report.add refusal [] = report := by
  simp [add, endable]

theorem SweepReport.add_append (report : SweepReport) (xs ys : List Uuid) :
    report.add refusal (xs ++ ys) = (report.add refusal xs).add refusal ys := by
  simp only [add, endable_append, List.filterMap_append, List.append_assoc]

theorem mem_endable {id : Uuid} {ids : List Uuid} :
    id ∈ endable refusal ids ↔ id ∈ ids ∧ refusal id = none := by
  rw [endable, List.mem_filter, Option.isNone_iff_eq_none]

/-- Those that failed are those with a refusal, in their order. -/
theorem map_id_filterMap_sweepFailure (ids : List Uuid) :
    (ids.filterMap (sweepFailure refusal)).map (·.id) =
      ids.filter (fun id => (refusal id).isSome) := by
  induction ids with
  | nil => rfl
  | cons id rest ih =>
    cases h : refusal id with
    | none => simp [sweepFailure, h, ← ih]
    | some e => simp [sweepFailure, h, ← ih]

/-- Of those with a refusal none can be ended, -/
theorem endable_refused (ids : List Uuid) :
    endable refusal (ids.filter (fun id => (refusal id).isSome)) = [] := by
  rw [endable, List.filter_eq_nil_iff]
  intro id hid
  obtain ⟨e, he⟩ := Option.isSome_iff_exists.mp (List.mem_filter.mp hid).2
  simp [he]

/-- and all of them fail. -/
theorem filterMap_refused (ids : List Uuid) :
    (ids.filter (fun id => (refusal id).isSome)).filterMap (sweepFailure refusal) =
      ids.filterMap (sweepFailure refusal) := by
  rw [List.filterMap_filter]
  apply List.filterMap_congr
  intro id _
  cases h : refusal id with
  | none => simp [sweepFailure, h]
  | some e => simp

end Refusal

theorem SweepReport.hasFailed_iff {report : SweepReport} {id : Uuid} :
    report.hasFailed id = true ↔ id ∈ report.failed.map (·.id) := by
  simp only [hasFailed, List.any_eq_true, beq_iff_eq, List.mem_map]

namespace ReservationState

variable {s : ReservationState} {now : Instant}

/-- Only what a round has taken up can have ended. -/
theorem filter_not_endable_eq_self {refusal : Uuid → Option StoreError} {xs ids : List Uuid}
    (h : ∀ id ∈ ids, id ∉ xs) :
    ids.filter (fun id => decide (id ∉ endable refusal xs)) = ids := by
  rw [List.filter_eq_self]
  intro id hid
  rw [decide_eq_true_eq, mem_endable]
  rintro ⟨hmem, -⟩
  exact h id hid hmem

/-- After a round, what is due consists of the old failures, the new ones, and the rest. -/
theorem due_after_round (hs : s.Filed) (refusal : Uuid → Option StoreError)
    {noted xs rest : List Uuid} (hdue : s.due now = noted ++ (xs ++ rest)) :
    (s.releasedAll now (endable refusal xs)).due now =
      noted ++ xs.filter (fun id => (refusal id).isSome) ++ rest := by
  have hnodup : (s.due now).Nodup := nodup_due hs
  rw [hdue] at hnodup
  obtain ⟨-, hnodup, hbefore⟩ := List.nodup_append.mp hnodup
  obtain ⟨-, -, hbehind⟩ := List.nodup_append.mp hnodup
  have hnoted : ∀ id ∈ noted, id ∉ xs := fun id hid hmem =>
    hbefore id hid id (List.mem_append_left _ hmem) rfl
  have hrest : ∀ id ∈ rest, id ∉ xs := fun id hid hmem => hbehind id hmem id hid rfl
  have hround : xs.filter (fun id => decide (id ∉ endable refusal xs)) =
      xs.filter (fun id => (refusal id).isSome) := by
    apply List.filter_congr
    intro id hid
    simp only [mem_endable, hid, true_and]
    cases refusal id <;> rfl
  rw [due_releasedAll hs, hdue, List.filter_append, List.filter_append, hround,
    filter_not_endable_eq_self hnoted, filter_not_endable_eq_self hrest, List.append_assoc]

end ReservationState

/-! ## One reservation after another -/

namespace Sweep

variable {engine : Engine σ τ} {place : ReservationState → σ}
  {refusal : Uuid → Option StoreError} {s : ReservationState} {u : EngineState σ τ}
  {now : Instant}

theorem publishExpired_runFrom (h : RefusesOnly engine.reservations place refusal)
    (hu : u.store = place s) (id : Uuid) :
    ∃ v, (publishExpired engine id).runFrom u = (.ok (), v) ∧ v.store = place s := by
  have hload : ((engine.reservations.get id).runFrom u.store).2 = place s := by
    rw [hu, h.loads]
  unfold publishExpired
  rw [runFrom_bind_of_ok (runFrom_attempt _ u), hload]
  cases ((engine.reservations.get id).runFrom u.store).1 with
  | ok found =>
    cases found with
    | some r => exact tells_publishClosed engine r _
    | none => exact tells_pure _
  | error e => exact tells_log _ _

/-- A reservation that is due is ended, or its failure is noted and it stays. -/
theorem releaseOne_runFrom (h : RefusesOnly engine.reservations place refusal) (hs : s.Filed)
    (hu : u.store = place s) (report : SweepReport) {id : Uuid} (hdue : s.IsDue now id) :
    ∃ v, (releaseOne engine now report id).runFrom u = (.ok (report.add refusal [id]), v) ∧
      v.store = place (s.releasedAll now (endable refusal [id])) := by
  unfold releaseOne
  rw [runFrom_bind_of_ok (runFrom_attempt _ u), hu]
  cases href : refusal id with
  | some e =>
    have hadd : report.add refusal [id] =
        { report with failed := report.failed ++ [⟨id, e.message⟩] } := by
      simp [SweepReport.add, endable, sweepFailure, href]
    have hnone : endable refusal [id] = [] := by simp [endable, href]
    rw [h.refuses s id now e href, hadd, hnone]
    exact ⟨_, rfl, rfl⟩
  | none =>
    obtain ⟨r, hr, hopen, -⟩ := hdue
    have hadd : report.add refusal [id] = { report with expired := report.expired ++ [id] } := by
      simp [SweepReport.add, endable, sweepFailure, href]
    have hone : endable refusal [id] = [id] := by simp [endable, href]
    have hrelease := release_of_open hs hr hopen now
    have hafter : s.releasedAll now [id] =
        ((MemoryReservations.store.release id now).runFrom s).2 := releasedAll_cons s now id []
    rw [h.ends s id now href, hadd, hone, hafter, hrelease]
    obtain ⟨v, hv, hstore⟩ := publishExpired_runFrom (u := { u with store := place _ }) h rfl id
    exact ⟨v, runFrom_bind_of_ok hv _, hstore⟩

/-- Several that are due are ended, or noted as failed, in their order. -/
theorem releaseAll_runFrom (h : RefusesOnly engine.reservations place refusal) (hs : s.Filed)
    (hu : u.store = place s) (report : SweepReport) {ids : List Uuid}
    (hdue : ∀ id ∈ ids, s.IsDue now id) (hnodup : ids.Nodup) :
    ∃ v, (releaseAll engine now report ids).runFrom u = (.ok (report.add refusal ids), v) ∧
      v.store = place (s.releasedAll now (endable refusal ids)) := by
  induction ids generalizing s u report with
  | nil =>
    rw [report.add_nil]
    exact ⟨u, rfl, hu⟩
  | cons id rest ih =>
    obtain ⟨hfirst, hothers⟩ := List.forall_mem_cons.mp hdue
    obtain ⟨hnot, hrest⟩ := List.nodup_cons.mp hnodup
    obtain ⟨v, hv, hstore⟩ := releaseOne_runFrom h hs hu report hfirst
    have hstill : ∀ j ∈ rest, (s.releasedAll now (endable refusal [id])).IsDue now j := by
      intro j hj
      refine (isDue_releasedAll hs).mpr ⟨hothers j hj, fun hmem => ?_⟩
      obtain rfl := List.mem_singleton.mp ((mem_endable refusal).mp hmem).1
      exact hnot hj
    obtain ⟨w, hw, hstore'⟩ := ih (hs.releasedAll now _) hstore
      (report.add refusal [id]) hstill hrest
    refine ⟨w, ?_, ?_⟩
    · rw [releaseAll, runFrom_bind_of_ok hv, hw, ← SweepReport.add_append]
      rfl
    · rw [hstore', ← releasedAll_append, ← endable_append]
      rfl

/-! ## Batch by batch -/

/-- A batch that is widened by the failures holds these, and behind them as many others as a
batch has. -/
theorem candidates_eq (hs : s.Filed) {report : SweepReport} {rest : List Uuid}
    (hdue : s.due now = report.failed.map (·.id) ++ rest) (batchSize : Nat) :
    (s.due now).take (batchSize + report.failedCount) =
        report.failed.map (·.id) ++ rest.take batchSize ∧
      ((s.due now).take (batchSize + report.failedCount)).filter
        (fun id => !report.hasFailed id) = rest.take batchSize := by
  have hnodup : (s.due now).Nodup := nodup_due hs
  rw [hdue] at hnodup
  obtain ⟨-, -, hapart⟩ := List.nodup_append.mp hnodup
  have hcount : report.failedCount = (report.failed.map (·.id)).length := (List.length_map _).symm
  have htake : (s.due now).take (batchSize + report.failedCount) =
      report.failed.map (·.id) ++ rest.take batchSize := by
    rw [hdue, hcount, Nat.add_comm, List.take_length_add_append]
  refine ⟨htake, ?_⟩
  have hnoted : (report.failed.map (·.id)).filter (fun id => !report.hasFailed id) = [] := by
    rw [List.filter_eq_nil_iff]
    intro id hid
    rw [SweepReport.hasFailed_iff.mpr hid]
    decide
  have hnew : (rest.take batchSize).filter (fun id => !report.hasFailed id) =
      rest.take batchSize := by
    rw [List.filter_eq_self]
    intro id hid
    rw [Bool.not_eq_true', ← Bool.not_eq_true, SweepReport.hasFailed_iff]
    intro hmem
    exact hapart id hmem id (List.mem_of_mem_take hid) rfl
  rw [htake, List.filter_append, hnoted, hnew, List.nil_append]

/-- A round takes up the first of the rest, and leaves what is due in the same shape: the
failures, then what is left of the rest. -/
theorem round_runFrom (h : RefusesOnly engine.reservations place refusal) (hs : s.Filed)
    (hu : u.store = place s) (report : SweepReport) {rest : List Uuid}
    (hdue : s.due now = report.failed.map (·.id) ++ rest) (batchSize : Nat) :
    (∃ v, (releaseAll engine now report (rest.take batchSize)).runFrom u =
        (.ok (report.add refusal (rest.take batchSize)), v) ∧
      v.store = place (s.releasedAll now (endable refusal (rest.take batchSize)))) ∧
    (s.releasedAll now (endable refusal (rest.take batchSize))).due now =
      (report.add refusal (rest.take batchSize)).failed.map (·.id) ++ rest.drop batchSize := by
  have hisDue : ∀ id ∈ rest.take batchSize, s.IsDue now id := by
    intro id hid
    rw [← mem_due_iff hs, hdue]
    exact List.mem_append_right _ (List.mem_of_mem_take hid)
  have hnodup : (s.due now).Nodup := nodup_due hs
  rw [hdue] at hnodup
  have hround : (rest.take batchSize).Nodup :=
    (List.nodup_append.mp hnodup).2.1.sublist (List.take_sublist _ _)
  constructor
  · exact releaseAll_runFrom h hs hu report hisDue hround
  · rw [SweepReport.add, List.map_append, map_id_filterMap_sweepFailure]
    exact due_after_round hs refusal (by rw [hdue, List.take_append_drop])

/-- The loop ends all of the rest that can be ended, and notes the others, if it has more
rounds than there are reservations left. -/
theorem drain_runFrom (h : RefusesOnly engine.reservations place refusal) {batchSize : Nat}
    (hsize : 0 < batchSize) {rounds : Nat} (hs : s.Filed) (hu : u.store = place s)
    (report : SweepReport) {rest : List Uuid}
    (hdue : s.due now = report.failed.map (·.id) ++ rest) (hrounds : rest.length < rounds) :
    ∃ batches v, (drain engine now batchSize rounds report).runFrom u =
        (.ok { report.add refusal rest with batches }, v) ∧
      v.store = place (s.releasedAll now (endable refusal rest)) := by
  induction rounds generalizing s u report rest with
  | zero => omega
  | succ rounds ih =>
    obtain ⟨htake, hcandidates⟩ := candidates_eq hs hdue batchSize
    have hfind : (engine.reservations.findExpired now (batchSize + report.failedCount)).runFrom
        u.store = (.ok ((s.due now).take (batchSize + report.failedCount)), place s) := by
      rw [hu, h.finds, findExpired_runFrom]
    have hhas : ∀ id, SweepReport.hasFailed { report with batches := report.batches + 1 } id =
        report.hasFailed id := fun _ => rfl
    rw [drain, runFrom_bind_of_ok (runFrom_passing_of_ok hfind)]
    simp only [hhas, hcandidates]
    by_cases hrest : rest = []
    · rw [hrest, SweepReport.add_nil, List.take_nil]
      exact ⟨report.batches + 1, { u with store := place s }, rfl, rfl⟩
    · have hsome : (rest.take batchSize).isEmpty = false := by
        rw [List.isEmpty_eq_false_iff, ne_eq, List.take_eq_nil_iff]
        rintro (hzero | hnil)
        · omega
        · exact hrest hnil
      obtain ⟨⟨v, hv, hstore⟩, hdue'⟩ := round_runFrom (u := { u with store := place s }) h hs rfl
        { report with batches := report.batches + 1 } hdue batchSize
      simp only [hsome, Bool.false_eq_true, if_false]
      rw [runFrom_bind_of_ok hv]
      by_cases hshort : ((s.due now).take (batchSize + report.failedCount)).length <
          batchSize + report.failedCount
      · -- a batch that came back short has held all that was left
        have hall : rest.take batchSize = rest := by
          rw [htake, List.length_append, List.length_map, List.length_take,
            SweepReport.failedCount] at hshort
          exact List.take_of_length_le (by omega)
        rw [if_pos hshort, hall]
        rw [hall] at hstore
        exact ⟨report.batches + 1, v, rfl, hstore⟩
      · have hshorter : (rest.drop batchSize).length < rounds := by
          have hpos := List.length_pos_iff.mpr hrest
          rw [List.length_drop]
          omega
        obtain ⟨batches, w, hw, hstore'⟩ := ih (hs.releasedAll now _) hstore _ hdue' hshorter
        refine ⟨batches, w, ?_, ?_⟩
        · rw [if_neg hshort, hw, ← SweepReport.add_append, List.take_append_drop]
          rfl
        · rw [hstore', ← releasedAll_append, ← endable_append, List.take_append_drop]

/-- A sweep ends all that is due and can be ended, and notes the others. -/
theorem run_runFrom (h : RefusesOnly engine.reservations place refusal) {batchSize : Nat}
    (hsize : 0 < batchSize) {rounds : Nat} (hs : s.Filed) (hu : u.store = place s)
    (hrounds : (s.due now).length < rounds) :
    ∃ batches v, (engine.sweep rounds now batchSize).runFrom u =
        (.ok ⟨batches, endable refusal (s.due now), 0,
          (s.due now).filterMap (sweepFailure refusal)⟩, v) ∧
      v.store = place (s.releasedAll now (endable refusal (s.due now))) := by
  have hdue : s.due now = SweepReport.zero.failed.map (·.id) ++ s.due now := rfl
  obtain ⟨batches, v, hv, hstore⟩ := drain_runFrom h hsize hs hu .zero hdue hrounds
  generalize hreport : SweepReport.mk batches (endable refusal (s.due now)) 0
    ((s.due now).filterMap (sweepFailure refusal)) = report
  replace hv : (drain engine now batchSize rounds .zero).runFrom u = (.ok report, v) := by
    rw [hv, ← hreport]
    rfl
  -- what follows the loop only tells of it
  obtain ⟨v₁, hcount, hstore₁⟩ := tells_count .expiredReservations report.expired.length v
  obtain ⟨v₂, hlog, hstore₂⟩ := tells_log (summary report) v₁
  have hpositive : batchSize ≠ 0 := by omega
  refine ⟨batches, if !report.expired.isEmpty || !report.failed.isEmpty then v₂ else v₁, ?_, ?_⟩
  · rw [hreport]
    apply runFrom_watched_of_ok
    rw [if_neg hpositive, runFrom_bind_of_ok hv, runFrom_bind_of_ok hcount]
    split
    · rw [runFrom_bind_of_ok hlog]
      rfl
    · rfl
  · rw [← hstore, ← hstore₁]
    split
    · exact hstore₂
    · rfl

end Sweep

/-! ## A whole sweep -/

/-- What a sweep of the reservations `s` at the instant `now` answers, `expired` and `failed`,
and what it leaves, `t`, where `refusal` tells what cannot be ended. -/
structure Swept (refusal : Uuid → Option StoreError) (now : Instant) (s : ReservationState)
    (expired : List Uuid) (failed : List SweepFailure) (t : ReservationState) : Prop where
  /-- What has ended is what was due and could be ended, -/
  expired_iff : ∀ id, id ∈ expired ↔ s.IsDue now id ∧ refusal id = none
  /-- each once, in the order in which their times were over. -/
  expired_order : expired.Pairwise s.EndsBefore
  /-- What has failed is what was due and could not be ended, -/
  failed_iff : ∀ f, f ∈ failed ↔
    s.IsDue now f.id ∧ ∃ e, refusal f.id = some e ∧ f.error = e.message
  /-- each once, in the same order. -/
  failed_order : failed.Pairwise (fun f g => s.EndsBefore f.id g.id)
  /-- What has ended is closed from now on; nothing else of it has changed, -/
  ended : ∀ id ∈ expired, ∃ r, s.byId.get? id = some r ∧
    t.byId.get? id = some { r with status := .expired, updatedAt := now }
  /-- and nothing of any other reservation, -/
  kept : ∀ id, id ∉ expired → t.byId.get? id = s.byId.get? id
  /-- nor the keys. -/
  byKey : t.byKey = s.byKey

variable {engine : Engine σ τ} {place : ReservationState → σ}
  {refusal : Uuid → Option StoreError} {s : ReservationState} {now : Instant}

theorem swept (hs : s.Filed) :
    Swept refusal now s (endable refusal (s.due now))
      ((s.due now).filterMap (sweepFailure refusal))
      (s.releasedAll now (endable refusal (s.due now))) where
  expired_iff id := by rw [mem_endable, mem_due_iff hs]
  expired_order := (pairwise_due hs).filter _
  failed_iff f := by
    simp only [List.mem_filterMap, sweepFailure, Option.map_eq_some_iff, mem_due_iff hs]
    constructor
    · rintro ⟨id, hdue, e, href, rfl⟩
      exact ⟨hdue, e, href, rfl⟩
    · rintro ⟨hdue, e, href, herror⟩
      exact ⟨f.id, hdue, e, href, by rw [← herror]⟩
  failed_order := by
    rw [← List.pairwise_map, map_id_filterMap_sweepFailure]
    exact (pairwise_due hs).filter _
  ended id hid := by
    obtain ⟨r, hr, hopen, -⟩ := (mem_due_iff hs).mp ((mem_endable refusal).mp hid).1
    refine ⟨r, hr, ?_⟩
    rw [get?_releasedAll, if_pos hid, hr, Option.map_some, Reservation.expire_of_open hopen]
  kept id hid := by rw [get?_releasedAll, if_neg hid]
  byKey := byKey_releasedAll s now _

/-- After a sweep only that is due which could not be ended. -/
theorem due_swept (hs : s.Filed) :
    (s.releasedAll now (endable refusal (s.due now))).due now =
      (s.due now).filter (fun id => (refusal id).isSome) := by
  have hdue : s.due now = [] ++ (s.due now ++ []) := (List.append_nil _).symm
  rw [due_after_round hs refusal hdue, List.nil_append, List.append_nil]

/-- Over reservations kept in memory, some of which cannot be ended, a sweep always comes to
its end, and answers and leaves the same whatever the size of its batches. A second sweep
at the same instant ends nothing. -/
theorem sweep_complete (h : RefusesOnly engine.reservations place refusal) (hs : s.Reachable)
    (now : Instant) :
    ∃ expired failed t, Swept refusal now s expired failed t ∧
      ∀ batchSize rounds u, 0 < batchSize → s.byId.size < rounds → u.store = place s →
        ∃ batches v, (engine.sweep rounds now batchSize).runFrom u =
            (.ok ⟨batches, expired, 0, failed⟩, v) ∧
          v.store = place t ∧
          ∀ batchSize' rounds', 0 < batchSize' → s.byId.size < rounds' →
            ∃ batches' w, (engine.sweep rounds' now batchSize').runFrom v =
                (.ok ⟨batches', [], 0, failed⟩, w) ∧
              w.store = place t := by
  have hfiled := hs.filed
  have hlength : (s.due now).length ≤ s.byId.size := length_due_le s now
  refine ⟨_, _, _, swept hfiled, ?_⟩
  intro batchSize rounds u hsize hrounds hu
  have henough : (s.due now).length < rounds := by omega
  obtain ⟨batches, v, hv, hstore⟩ := Sweep.run_runFrom h hsize hfiled hu henough
  refine ⟨batches, v, hv, hstore, ?_⟩
  intro batchSize' rounds' hsize' hrounds'
  have hshorter := List.length_filter_le (fun id => (refusal id).isSome) (s.due now)
  have henough' : ((s.releasedAll now (endable refusal (s.due now))).due now).length <
      rounds' := by
    rw [due_swept hfiled]
    omega
  obtain ⟨batches', w, hw, hstore'⟩ :=
    Sweep.run_runFrom h hsize' (hfiled.releasedAll now _) hstore henough'
  rw [due_swept hfiled, endable_refused] at hw hstore'
  rw [filterMap_refused] at hw
  exact ⟨batches', w, hw, hstore'⟩

namespace Sample

/-- Whatever ends the third promise fails. -/
def locked : Faults :=
  { Faults.none with reservations := OrderedMap.empty.insert (.ofNat 3) .releaseFails }

/-- An engine over memory with faults in front of it. -/
def faultyEngine : Engine (Faulty MemoryState) Unit :=
  (Engine.inMemory (.discard Unit) (.ofConfig {})).faulty

/-- The promises, behind the faults. -/
def lockedPromises : EngineState (Faulty MemoryState) Unit :=
  .start ⟨⟨.empty .epoch, promises⟩, locked⟩ ()

/-- Two of the promises are due, and the sweep can end one of them. -/
theorem swept_locked :
    ((faultyEngine.sweep 5 (minute 6) 1).runFrom lockedPromises).1 =
      .ok ⟨3, [.ofNat 2], 0, [⟨.ofNat 3, "storage error: connection reset"⟩]⟩ := by
  rfl

end Sample

open Sample in
/-- One by one, or all in one batch: of two promises that are due, the locked one fails and the
other one ends, and sweeping again ends nothing. -/
theorem sweep_complete_locked :
    RefusesOnly faultyEngine.reservations (fun s => ⟨⟨.empty .epoch, s⟩, locked⟩)
      locked.refusal ∧
    promises.Reachable ∧ promises.byId.size < 5 ∧
    ∃ t, Swept locked.refusal (minute 6) promises [.ofNat 2]
        [⟨.ofNat 3, "storage error: connection reset"⟩] t ∧
      ∃ batches v, (faultyEngine.sweep 5 (minute 6) 100).runFrom lockedPromises =
          (.ok ⟨batches, [.ofNat 2], 0, [⟨.ofNat 3, "storage error: connection reset"⟩]⟩, v) ∧
        v.store = ⟨⟨.empty .epoch, t⟩, locked⟩ ∧
        ∃ batches' w, (faultyEngine.sweep 5 (minute 6) 1).runFrom v =
            (.ok ⟨batches', [], 0, [⟨.ofNat 3, "storage error: connection reset"⟩]⟩, w) ∧
          w.store = ⟨⟨.empty .epoch, t⟩, locked⟩ := by
  have hlocked : RefusesOnly faultyEngine.reservations
      (fun s => ⟨⟨.empty .epoch, s⟩, locked⟩) locked.refusal := by
    refine refusesOnly_faulty _ _ _ _ rfl ?_
    intro id
    rw [locked, OrderedMap.get?_insert]
    split
    · simp
    · simp
  have hsize : promises.byId.size < 5 := by decide
  obtain ⟨expired, failed, t, hswept, hsweep⟩ :=
    sweep_complete hlocked reachable_promises (minute 6)
  obtain ⟨batches, v, hv, -, -⟩ := hsweep 1 5 lockedPromises (by decide) hsize rfl
  have hanswer := swept_locked
  rw [hv] at hanswer
  obtain ⟨-, rfl, -, rfl⟩ := SweepReport.mk.inj (Except.ok.inj hanswer)
  obtain ⟨batches', v', hv', hstore, hagain⟩ := hsweep 100 5 lockedPromises (by decide) hsize rfl
  exact ⟨hlocked, reachable_promises, hsize, t, hswept, batches', v', hv', hstore,
    hagain 1 5 (by decide) hsize⟩

end Stockroom
