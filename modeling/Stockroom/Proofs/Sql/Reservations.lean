/-
Stockroom.Proofs.Sql.Reservations — reservations come to the same on a server as in memory.

* `Row.ofReservation` and `Row.ofReservationLine` are the rows that stand for a reservation and its
  lines; where warehouse and items are numbered from one on, they are read as what they stand for.
* `AnswersReservations`: the server answers out of a state: the row of a reservation or no row, and
  its lines by their numbers. That they come back as they were stored rests on the lines being in
  that order in memory (`Reachable.sortOn_lines`).
* A call first locks and loads a reservation, applies the same rule as memory to it, and then writes
  it down with all of its lines (`saveWrites`), unless there was nothing to do.
* `reservations_agree`: the answers are the same but for the identifier of a new reservation, and
  what is written is the reservation that memory has then.
-/
import Stockroom.Proofs.Reservation.History
import Stockroom.Proofs.Sql.Mirror

namespace Stockroom

/-- Whether whatever is stored can be stored on a server: warehouse and items are numbered from one
on. -/
structure ReservationState.Storable (s : ReservationState) : Prop where
  warehouse : ∀ id r, s.byId.get? id = some r → 0 < r.key.warehouse.val
  items : ∀ id r, s.byId.get? id = some r → ∀ l ∈ r.lines, 0 < l.item.val

theorem ReservationState.storable_iff {s : ReservationState} :
    s.Storable ↔
      ∀ r ∈ s.byId.values, 0 < r.key.warehouse.val ∧ ∀ l ∈ r.lines, 0 < l.item.val := by
  constructor
  · rintro ⟨hwarehouse, hitems⟩ r hr
    obtain ⟨id, hid⟩ := OrderedMap.mem_values_iff.mp hr
    exact ⟨hwarehouse id r hid, hitems id r hid⟩
  · intro h
    exact ⟨fun id r hid => (h r (OrderedMap.mem_values_iff.mpr ⟨id, hid⟩)).1,
      fun id r hid => (h r (OrderedMap.mem_values_iff.mpr ⟨id, hid⟩)).2⟩

instance (s : ReservationState) : Decidable s.Storable :=
  decidable_of_iff _ ReservationState.storable_iff.symm

/-- The identifier makes no difference to anything else. -/
theorem Reservation.start_under (fresh fresh' : Uuid) (n : NewReservation) (now : Instant) :
    Reservation.start fresh' n now =
      (Reservation.start fresh n now).map fun r => { r with id := fresh' } := by
  unfold Reservation.start
  cases n.check <;> rfl

/-- A new reservation under another identifier; one that was refreshed keeps its own. -/
def CreatedReservation.under (id : Uuid) (c : CreatedReservation) : CreatedReservation :=
  if c.created then { c with reservation := { c.reservation with id } } else c

namespace Sql

open StoreM

/-! ## Rows -/

namespace Row

/-- The columns of a business key. -/
def ofReservationKey (k : ReservationKey) : Row :=
  [("platform", .text k.platform), ("shop_id", .text k.shop),
   ("warehouse_id", .integer k.warehouse.val), ("ref", .text k.reference)]

/-- The row of a reservation. -/
def ofReservation (r : Reservation) : Row :=
  ("id", .uuid r.id) :: ofReservationKey r.key ++
    [("status", .text r.status.text), ("trace_id", .text r.trace.val),
     ("created_at", .instant r.createdAt), ("updated_at", .instant r.updatedAt),
     ("expire_at", .instant r.expireAt)]

/-- The row of a reserved line. -/
def ofReservationLine (l : ReservationLine) : Row :=
  [("ref_line", .integer l.line), ("item_id", .integer l.item.val), ("qty", .integer l.quantity),
   ("consumed_qty", .integer l.consumed)]

theorem reservationKey_of_lookup {row : Row} {k : ReservationKey} (hk : 0 < k.warehouse.val)
    (hplatform : row.text "platform" = .ok k.platform) (hshop : row.text "shop_id" = .ok k.shop)
    (hwarehouse : row.integer "warehouse_id" = .ok k.warehouse.val)
    (hreference : row.text "ref" = .ok k.reference) : row.reservationKey = .ok k := by
  unfold reservationKey
  rw [hplatform, hshop, warehouse_of_lookup hk hwarehouse, hreference]
  rfl

theorem reservationKey_ofReservationKey {k : ReservationKey} (h : 0 < k.warehouse.val) :
    (ofReservationKey k).reservationKey = .ok k :=
  reservationKey_of_lookup h rfl rfl rfl rfl

theorem reservationKey_ofReservation {r : Reservation} (h : 0 < r.key.warehouse.val) :
    (ofReservation r).reservationKey = .ok r.key :=
  reservationKey_of_lookup h rfl rfl rfl rfl

theorem reservationLine_ofReservationLine {l : ReservationLine} (h : 0 < l.item.val) :
    (ofReservationLine l).reservationLine = .ok l := by
  refine bind_eq_ok_iff.mpr ⟨l.line, rfl, ?_⟩
  refine bind_eq_ok_iff.mpr ⟨l.item, item_of_lookup h rfl, ?_⟩
  refine bind_eq_ok_iff.mpr ⟨l.quantity, rfl, ?_⟩
  refine bind_eq_ok_iff.mpr ⟨l.consumed, rfl, ?_⟩
  rfl

theorem read_status_text (status : ReservationStatus) :
    ReservationStatus.read status.text = .ok status := by
  cases status <;> rfl

end Row

/-! ## The server -/

/-- Whether a server answers what is asked about reservations out of the state. -/
structure AnswersReservations (server : Server) (s : ReservationState) : Prop
    extends server.Obliging where
  keys : ∀ id past, server past (.selectReservationKey id) =
    .rows ((s.byId.get? id).map fun r => Row.ofReservationKey r.key).toList
  rows : ∀ id past, server past (.selectReservation id true) =
    .rows ((s.byId.get? id).map Row.ofReservation).toList
  rowsByKey : ∀ key past, server past (.selectReservationByKey key true) =
    .rows (((s.byKey.get? key).bind s.byId.get?).map Row.ofReservation).toList
  /-- The lines come in the order of their numbers. -/
  lines : ∀ id r past, s.byId.get? id = some r → server past (.selectLines id) =
    .rows ((sortOn (·.line) r.lines).map Row.ofReservationLine)
  locks : ∀ text past, ∃ rs, server past (.advisoryLock text) = .rows rs
  saves : ∀ r past, ∃ rs, server past (.upsertReservation r) = .rows rs
  savesLines : ∀ id l past, ∃ rs, server past (.upsertLine id l) = .rows rs

/-! ## What is compared -/

/-- The statements that write a reservation down with all of its lines. -/
def saveWrites (r : Reservation) : List Statement :=
  .upsertReservation r :: r.lines.map (.upsertLine r.id)

/-- Whether a call comes to the same on the server as in memory, where it went on from `s`. An
answer of memory is renamed on the server, and `saved` is the reservation that an answer has left
behind, if the call has changed one. -/
structure SameCall {α : Type} (rename : α → α) (saved : α → Option Reservation)
    (s : ReservationState) (memory : Except StoreError α × ReservationState)
    (out : Except StoreError α) (qs : List Statement) : Prop where
  answer : out = memory.1.map rename
  /-- What memory has changed is written down as memory has it now, and committed. -/
  written : ∀ a r, memory.1 = .ok a → saved a = some r →
    memory.2.byId.get? r.id = some r ∧ ∃ r', saved (rename a) = some r' ∧
      qs.filter Statement.isWrite = saveWrites r' ∧ qs.getLast? = some .commit
  /-- Any other call changes nothing, and writes nothing. -/
  idle : (∀ a, memory.1 = .ok a → saved a = none) →
    memory.2 = s ∧ qs.filter Statement.isWrite = []

/-- Whether the call comes to the same in the session as in memory. -/
def SameInSession {α : Type} (u : Session) (rename : α → α) (saved : α → Option Reservation)
    (s : ReservationState) (memory : Except StoreError α × ReservationState) (x : SqlM α) : Prop :=
  ∃ said out, x.runFrom u = (out, u.said said) ∧
    SameCall rename saved s memory out (said.map (·.statement))

/-- The reservation that a consumption has changed. -/
def consumedReservation : Reservation × ConsumeOutcome → Option Reservation
  | (r, .consumed) => some r
  | (_, .noop) => none

/-- The reservation that a release has ended, as memory has it afterwards. -/
def endedReservation (memory : Except StoreError ReleaseOutcome × ReservationState) :
    ReleaseOutcome → Option Reservation
  | .expired id => memory.2.byId.get? id
  | .noop _ => none

theorem filter_isWrite_saveWrites (r : Reservation) :
    (saveWrites r).filter Statement.isWrite = saveWrites r := by
  refine List.filter_eq_self.mpr fun q hq => ?_
  obtain rfl | hq := List.mem_cons.mp hq
  · rfl
  · obtain ⟨l, -, rfl⟩ := List.mem_map.mp hq
    rfl

section Courses

variable {α : Type} {u : Session} {rename : α → α} {saved : α → Option Reservation}
  {s t : ReservationState} {memory : Except StoreError α × ReservationState}
  {body : SqlM (Ending α)} {qs : List Statement} {e : StoreError} {a : α} {r r' : Reservation}

/-- A call that is refused before anything is asked for. -/
theorem SameInSession.of_silent {x : SqlM α} (hmemory : memory = (.error e, s))
    (h : x.runFrom u = (.error e, u)) : SameInSession u rename saved s memory x := by
  subst hmemory
  refine ⟨[], .error e, by rw [h, Session.said_nil], rfl, ?_, fun _ => ⟨rfl, rfl⟩⟩
  rintro _ _ ⟨⟩

variable (hopen : u.isOpen = true) (hserver : u.server.Obliging)

include hopen hserver

/-- Whatever the body asks for and answers, the transaction has to come to the same as memory. -/
theorem SameInSession.of_asked {o : Except StoreError (Ending α)}
    (hbody : Says u body (Asked qs (· = o)))
    (hsame : SameCall rename saved s memory (o.map Ending.answer)
      (.begin :: (qs ++ [closing o]))) :
    SameInSession u rename saved s memory (transaction body) := by
  obtain ⟨said, hsaid, o', rfl, hqs, hout⟩ := (asked_transaction hopen hserver hbody).here
  refine ⟨said, _, Prod.ext hout hsaid, ?_⟩
  rw [hqs]
  exact hsame

/-- A failure, before which nothing is written. -/
theorem SameInSession.of_error (qs : List Statement) (hmemory : memory = (.error e, s))
    (hbody : Says u body (Asked qs (· = .error e))) (hqs : qs.filter Statement.isWrite = []) :
    SameInSession u rename saved s memory (transaction body) := by
  subst hmemory
  refine .of_asked hopen hserver hbody ⟨rfl, ?_, fun _ => ⟨rfl, ?_⟩⟩
  · rintro _ _ ⟨⟩
  · simp [hqs, closing, Statement.isWrite]

/-- There is nothing to do. -/
theorem SameInSession.of_idle (qs : List Statement) (ending : Ending α)
    (hmemory : memory = (.ok a, s)) (hsaved : saved a = none) (hending : ending.answer = rename a)
    (hbody : Says u body (Asked qs (· = .ok ending))) (hqs : qs.filter Statement.isWrite = []) :
    SameInSession u rename saved s memory (transaction body) := by
  subst hmemory
  refine .of_asked hopen hserver hbody ⟨congrArg Except.ok hending, ?_, fun _ => ⟨rfl, ?_⟩⟩
  · rintro _ r ⟨⟩ hr
    rw [hsaved] at hr
    cases hr
  · cases ending <;> simp [hqs, closing, Statement.isWrite]

/-- A reservation is written down. -/
theorem SameInSession.of_saved (qs : List Statement) (hmemory : memory = (.ok a, t))
    (hsaved : saved a = some r) (hstored : t.byId.get? r.id = some r)
    (hsaved' : saved (rename a) = some r')
    (hbody : Says u body (Asked (qs ++ saveWrites r') (· = .ok (.keep (rename a)))))
    (hqs : qs.filter Statement.isWrite = []) :
    SameInSession u rename saved s memory (transaction body) := by
  subst hmemory
  refine .of_asked hopen hserver hbody ⟨rfl, ?_, fun hidle => ?_⟩
  · rintro _ _ ⟨⟩ hr
    obtain rfl := Option.some.inj (hsaved.symm.trans hr)
    refine ⟨hstored, r', hsaved', ?_, ?_⟩
    · simp [hqs, filter_isWrite_saveWrites, closing, Statement.isWrite]
    · rw [← List.cons_append, List.getLast?_append]
      rfl
  · rw [hidle a rfl] at hsaved
    cases hsaved

end Courses

/-! ## Loading -/

section Loading

variable {u : Session} {s : ReservationState} {id : Uuid} {r : Reservation} {key : ReservationKey}

/-- What is asked for until a stored reservation is locked and loaded. -/
def lockStatements (r : Reservation) : List Statement :=
  [.selectReservationKey r.id, .advisoryLock r.key.lockText, .selectReservation r.id true,
    .selectLines r.id]

/-- A reservation is written down with all of its lines. -/
theorem asked_save (hserver : AnswersReservations u.server s) (r : Reservation) :
    Says u (Reservations.save r) (Asked (saveWrites r) (· = .ok ())) := by
  have hlines (ls : List ReservationLine) :
      Says u (Reservations.saveLines r.id ls)
        (Asked (ls.map (.upsertLine r.id)) (· = .ok ())) := by
    induction ls with
    | nil => exact asked_pure rfl
    | cons l rest ih => exact asked_execute_bind (hserver.savesLines r.id l) ih
  exact asked_execute_bind (hserver.saves r) (hlines r.lines)

theorem asked_save_pure {β : Type} (hserver : AnswersReservations u.server s) (r : Reservation)
    (b : β) : Says u (do Reservations.save r; pure b) (Asked (saveWrites r) (· = .ok b)) :=
  ((asked_save hserver r).imp fun _ _ h => ⟨h.1, (), h.2, trivial⟩).asked_map (r := fun _ => True)
    fun _ _ => rfl

/-- The row of a reservation is read as the reservation, if what is found of its lines is. -/
theorem asked_ofRow_of_lines (hkey : 0 < r.key.warehouse.val)
    (hlines : ∀ past, (u.server past (.selectLines r.id)).all "load_lines" Row.reservationLine =
      .ok r.lines) :
    Says u (Reservations.ofRow (Row.ofReservation r)) (Asked [.selectLines r.id] (· = .ok r)) := by
  refine says_ofResult_ok (a := (r.id, r.status.text, r.trace.val)) rfl ?_
  refine says_ofResult_ok (a := (r.key, r.status)) ?_ ?_
  · rw [Row.reservationKey_ofReservation hkey, Row.read_status_text]
    rfl
  · refine (Reservations.asks_linesOf r.id).asked_bind hlines ?_
    exact says_of_silent (fun _ => rfl) ⟨rfl, rfl⟩

variable (hserver : AnswersReservations u.server s) (hs : s.Reachable) (hstorable : s.Storable)

include hserver

theorem asked_lockKey_bind {β : Type} {f : Unit → SqlM β} {qs : List Statement}
    {p : Except StoreError β → Prop} (key : ReservationKey) (hf : Says u (f ()) (Asked qs p)) :
    Says u (Reservations.lockKey key >>= f) (Asked (.advisoryLock key.lockText :: qs) p) :=
  asked_execute_bind (hserver.locks key.lockText) hf

include hs hstorable

/-- The row of a stored reservation, and its lines, are read as the reservation. -/
theorem asked_ofRow (hr : s.byId.get? id = some r) :
    Says u (Reservations.ofRow (Row.ofReservation r)) (Asked [.selectLines r.id] (· = .ok r)) := by
  have hid : r.id = id := hs.filed id r hr
  subst hid
  refine asked_ofRow_of_lines (hstorable.warehouse _ r hr) fun past => ?_
  rw [hserver.lines _ r past hr, hs.sortOn_lines hr]
  exact Reply.all_map fun l hl =>
    Row.reservationLine_ofReservationLine (hstorable.items _ r hr l hl)

theorem asked_ofRow? {o : Option Reservation} (ho : ∀ r ∈ o, s.byId.get? r.id = some r) :
    Says u (Reservations.ofRow? (o.map Row.ofReservation))
      (Asked (o.map fun r => .selectLines r.id).toList (· = .ok o)) := by
  cases o with
  | none => exact asked_pure rfl
  | some r =>
    refine (Says.imp (asked_ofRow hserver hs hstorable (ho r rfl)) ?_).asked_map
      (r := (· = r)) fun _ h => ?_
    · exact fun _ _ h => ⟨h.1, r, h.2, rfl⟩
    · rw [h]

/-- A business key is looked up. -/
theorem asked_loadByKey (key : ReservationKey) :
    Says u (Reservations.loadByKey key true)
      (Asked (.selectReservationByKey key true ::
          (((s.byKey.get? key).bind s.byId.get?).map fun r => .selectLines r.id).toList)
        (· = .ok ((s.byKey.get? key).bind s.byId.get?))) := by
  refine (asks_row? _ _).asked_bind
    (a := ((s.byKey.get? key).bind s.byId.get?).map Row.ofReservation) (fun past => ?_) ?_
  · rw [hserver.rowsByKey, Reply.first?_ok]
  · refine asked_ofRow? hserver hs hstorable fun r hr => ?_
    obtain ⟨id, -, hid⟩ := Option.bind_eq_some_iff.mp hr
    rw [hs.filed id r hid]
    exact hid

/-- A stored reservation is locked, and loaded as it is stored. -/
theorem asked_lockReservation (hr : s.byId.get? r.id = some r) :
    Says u (Reservations.lockReservation r.id)
      (Asked (lockStatements r) (· = .ok (some r))) := by
  refine (asks_row? _ _).asked_bind (a := some (Row.ofReservationKey r.key)) (fun past => ?_) ?_
  · rw [hserver.keys, hr, Reply.first?_ok]
    rfl
  refine says_ofResult_ok (Row.reservationKey_ofReservationKey (hstorable.warehouse _ r hr)) ?_
  refine asked_lockKey_bind hserver r.key ?_
  refine (asks_row? _ _).asked_bind (a := some (Row.ofReservation r)) (fun past => ?_) ?_
  · rw [hserver.rows, hr, Reply.first?_ok]
    rfl
  · refine asked_ofRow? hserver hs hstorable (o := some r) ?_
    rintro _ ⟨⟩
    exact hr

omit hs hstorable in
/-- What is not stored is not found. -/
theorem asked_lockReservation_unknown (hid : s.byId.get? id = none) :
    Says u (Reservations.lockReservation id)
      (Asked [.selectReservationKey id] (· = .ok none)) := by
  refine (asks_row? _ _).asked_bind (a := none) (fun past => ?_) (asked_pure rfl)
  rw [hserver.keys, hid, Reply.first?_ok]
  rfl

omit hs hstorable in
theorem asked_lockExisting_unknown (hid : s.byId.get? id = none) :
    Says u (Reservations.lockExisting id) (Asked [.selectReservationKey id]
      (· = .error (.domain (.notFound s!"reservation {id}")))) :=
  (asked_lockReservation_unknown hserver hid).asked_bind_last (says_throw ⟨rfl, rfl⟩)

theorem asked_lockExisting (hr : s.byId.get? r.id = some r) :
    Says u (Reservations.lockExisting r.id) (Asked (lockStatements r) (· = .ok r)) :=
  (asked_lockReservation hserver hs hstorable hr).asked_bind_last (asked_pure rfl)

end Loading

/-! ## Calls -/

section Calls

variable {u : Session} {s : ReservationState} {id : Uuid} {r : Reservation} {n : NewReservation}

/-- A rule that holds makes no difference. -/
theorem SameInSession.of_ofRule {α : Type} {rename : α → α} {saved : α → Option Reservation}
    {memory : Except StoreError α × ReservationState} {rule : Except DomainError Unit}
    {f : Unit → SqlM α} (h : rule = .ok ()) (hf : SameInSession u rename saved s memory (f ())) :
    SameInSession u rename saved s memory (StoreM.ofRule rule >>= f) := by
  subst h
  exact hf

/-- A malformed request is refused before anything is asked for. -/
theorem create_malformed_agrees {e : DomainError} (hcheck : n.check = .error e)
    (fresh fresh' : Uuid) (now : Instant) :
    SameInSession u (·.under fresh') (fun c => some c.reservation) s
      ((MemoryReservations.create fresh n now).runFrom s) (Reservations.create fresh' n now) := by
  refine .of_silent (e := .domain e) ?_ ?_
  · unfold MemoryReservations.create
    rw [hcheck]
    rfl
  · unfold Reservations.create
    rw [hcheck]
    rfl

variable (hopen : u.isOpen = true) (hserver : AnswersReservations u.server s) (hs : s.Reachable)
  (hstorable : s.Storable)

include hopen hserver hs hstorable

/-- A request whose key is known refreshes the reservation, or is refused. -/
theorem create_known_agrees (hcheck : n.check = .ok ()) (hkey : s.byKey.get? n.key = some id)
    (hid : s.byId.get? id = some r) (fresh fresh' : Uuid) (now : Instant) :
    SameInSession u (·.under fresh') (fun c => some c.reservation) s
      ((MemoryReservations.create fresh n now).runFrom s) (Reservations.create fresh' n now) := by
  have hload : Says u (Reservations.loadByKey n.key true)
      (Asked [.selectReservationByKey n.key true, .selectLines r.id] (· = .ok (some r))) := by
    have h := asked_loadByKey hserver hs hstorable n.key
    rw [hkey, Option.bind_some, hid] at h
    exact h
  refine .of_ofRule hcheck ?_
  cases hq : r.refresh n now with
  | error e =>
    refine .of_error hopen hserver.toObliging [.advisoryLock n.key.lockText,
      .selectReservationByKey n.key true, .selectLines r.id] (e := .domain e) ?_ ?_ rfl
    · rw [MemoryReservations.create_known hkey hid, hq]
    · refine asked_lockKey_bind hserver n.key (hload.asked_bind_last ?_)
      exact says_ofRule_error hq ⟨rfl, rfl⟩
  | ok q =>
    refine .of_saved hopen hserver.toObliging [.advisoryLock n.key.lockText,
      .selectReservationByKey n.key true, .selectLines r.id] (a := ⟨q, false⟩) (r := q)
      (t := { s with byId := s.byId.insert id q }) ?_ rfl ?_ rfl ?_ rfl
    · rw [MemoryReservations.create_known hkey hid, hq]
    · rw [(Reservation.Turn.refreshed hq).id_eq, hs.filed id r hid]
      exact (OrderedMap.get?_insert ..).trans (if_pos rfl)
    · refine asked_lockKey_bind hserver n.key (hload.asked_bind_eq ?_)
      exact says_ofRule_ok hq (asked_save_pure hserver q _)

/-- A request whose key is not known opens a reservation, under whatever identifier. -/
theorem create_unknown_agrees (hcheck : n.check = .ok ()) (hkey : s.byKey.get? n.key = none)
    (fresh fresh' : Uuid) (now : Instant) :
    SameInSession u (·.under fresh') (fun c => some c.reservation) s
      ((MemoryReservations.create fresh n now).runFrom s) (Reservations.create fresh' n now) := by
  have hload : Says u (Reservations.loadByKey n.key true)
      (Asked [.selectReservationByKey n.key true] (· = .ok none)) := by
    have h := asked_loadByKey hserver hs hstorable n.key
    rw [hkey] at h
    exact h
  refine .of_ofRule hcheck ?_
  obtain ⟨r, hr⟩ : ∃ r, Reservation.start fresh n now = .ok r :=
    ⟨_, Reservation.start_eq_ok_iff.mpr ⟨hcheck, rfl⟩⟩
  have hr' : Reservation.start fresh' n now = .ok { r with id := fresh' } := by
    rw [Reservation.start_under fresh, hr]
    rfl
  refine .of_saved hopen hserver.toObliging [.advisoryLock n.key.lockText,
    .selectReservationByKey n.key true] (a := ⟨r, true⟩) (r := r)
    (t := { s with byKey := s.byKey.insert n.key r.id }.put r) ?_ rfl ?_ rfl ?_ rfl
  · rw [MemoryReservations.create_unknown hkey, hr]
  · exact (OrderedMap.get?_insert ..).trans (if_pos rfl)
  · refine asked_lockKey_bind hserver n.key (hload.asked_bind_eq ?_)
    exact says_ofRule_ok hr' (asked_save_pure hserver _ _)

theorem create_agrees (fresh fresh' : Uuid) (n : NewReservation) (now : Instant) :
    SameInSession u (·.under fresh') (fun c => some c.reservation) s
      ((MemoryReservations.create fresh n now).runFrom s) (Reservations.create fresh' n now) := by
  cases hcheck : n.check with
  | error e => exact create_malformed_agrees hcheck fresh fresh' now
  | ok _ =>
    cases hkey : s.byKey.get? n.key with
    | none => exact create_unknown_agrees hopen hserver hs hstorable hcheck hkey fresh fresh' now
    | some id =>
      obtain ⟨r, hid⟩ := hs.exists_of_byKey hkey
      exact create_known_agrees hopen hserver hs hstorable hcheck hkey hid fresh fresh' now

/-- A reservation is consumed, is consumed already, or cannot be consumed. -/
theorem consume_agrees (id : Uuid) (now : Instant) :
    SameInSession u (·) consumedReservation s
      ((MemoryReservations.consume id now).runFrom s) (Reservations.consume id now) := by
  cases hid : s.byId.get? id with
  | none =>
    refine .of_error hopen hserver.toObliging [.selectReservationKey id]
      (MemoryReservations.consume_unknown hid now) ?_ rfl
    exact (asked_lockExisting_unknown hserver hid).asked_bind_error rfl
  | some r =>
    obtain rfl := hs.filed id r hid
    have hlock := asked_lockExisting hserver hs hstorable hid
    have hmemory := MemoryReservations.consume_known hid now
    cases hq : r.consume now with
    | error e =>
      rw [hq] at hmemory
      refine .of_error hopen hserver.toObliging (lockStatements r) hmemory ?_ rfl
      refine hlock.asked_bind_last ?_
      exact says_ofRule_error hq ⟨rfl, rfl⟩
    | ok out =>
      obtain ⟨q, outcome⟩ := out
      rw [hq] at hmemory
      rcases Reservation.consume_eq_ok_iff.mp hq with ⟨-, rfl, rfl⟩ | ⟨-, rfl, -⟩
      · dsimp only at hmemory
        rw [OrderedMap.insert_eq_self hid] at hmemory
        refine .of_idle hopen hserver.toObliging (lockStatements q)
          (.keep (q, .noop)) hmemory rfl rfl ?_ rfl
        refine hlock.asked_bind_last (says_ofRule_ok hq ?_)
        exact says_of_silent (fun _ => rfl) ⟨rfl, rfl⟩
      · refine .of_saved hopen hserver.toObliging (lockStatements r) (r := q)
          hmemory rfl ?_ rfl ?_ rfl
        · rw [(Reservation.Turn.consumed hq).id_eq]
          exact (OrderedMap.get?_insert ..).trans (if_pos rfl)
        · exact hlock.asked_bind_eq (says_ofRule_ok hq (asked_save_pure hserver q _))

/-- A reservation is cancelled, or cannot be cancelled. -/
theorem cancel_agrees (id : Uuid) (now : Instant) :
    SameInSession u (·) some s ((MemoryReservations.cancel id now).runFrom s)
      (Reservations.cancel id now) := by
  cases hid : s.byId.get? id with
  | none =>
    refine .of_error hopen hserver.toObliging [.selectReservationKey id]
      (MemoryReservations.cancel_unknown hid now) ?_ rfl
    exact (asked_lockExisting_unknown hserver hid).asked_bind_error rfl
  | some r =>
    obtain rfl := hs.filed id r hid
    have hlock := asked_lockExisting hserver hs hstorable hid
    have hmemory := MemoryReservations.cancel_known hid now
    cases hq : r.cancel now with
    | error e =>
      rw [hq] at hmemory
      refine .of_error hopen hserver.toObliging (lockStatements r) hmemory ?_ rfl
      refine hlock.asked_bind_last ?_
      exact says_ofRule_error hq ⟨rfl, rfl⟩
    | ok q =>
      rw [hq] at hmemory
      refine .of_saved hopen hserver.toObliging (lockStatements r) (r := q)
        hmemory rfl ?_ rfl ?_ rfl
      · rw [(Reservation.Turn.cancelled hq).id_eq]
        exact (OrderedMap.get?_insert ..).trans (if_pos rfl)
      · exact hlock.asked_bind_eq (says_ofRule_ok hq (asked_save_pure hserver q _))

/-- An open reservation is ended; any other is left alone, and so is one that is not known. -/
theorem release_agrees (id : Uuid) (now : Instant) :
    SameInSession u (·) (endedReservation ((MemoryReservations.release id now).runFrom s)) s
      ((MemoryReservations.release id now).runFrom s) (Reservations.release id now) := by
  cases hid : s.byId.get? id with
  | none =>
    refine .of_idle hopen hserver.toObliging [.selectReservationKey id]
      (.leave (.noop none)) (MemoryReservations.release_unknown hid now) rfl rfl ?_ rfl
    exact (asked_lockReservation_unknown hserver hid).asked_bind_last (asked_pure rfl)
  | some r =>
    obtain rfl := hs.filed id r hid
    have hlock := asked_lockReservation hserver hs hstorable hid
    rw [MemoryReservations.release_known hid now]
    by_cases hopened : r.status = .open
    · rw [Reservation.expire_of_open hopened]
      have hstored {q : Reservation} : (s.byId.insert r.id q).get? r.id = some q :=
        (OrderedMap.get?_insert ..).trans (if_pos rfl)
      refine .of_saved hopen hserver.toObliging (lockStatements r) rfl hstored hstored
        hstored (hlock.asked_bind_eq ?_) rfl
      dsimp only
      rw [Reservation.expire_of_open hopened]
      exact asked_save_pure hserver _ _
    · rw [Reservation.expire_of_not_open hopened, OrderedMap.insert_eq_self hid]
      refine .of_idle hopen hserver.toObliging (lockStatements r)
        (.keep (.noop (some r.id))) rfl rfl rfl (hlock.asked_bind_last ?_) rfl
      dsimp only
      rw [Reservation.expire_of_not_open hopened]
      exact says_of_silent (fun _ => rfl) ⟨rfl, rfl⟩

end Calls

/-- A server that answers out of reservations kept in memory gives every call the answer that it
gets there, but for the identifier of a new reservation. A request that succeeds, a consumption, a
cancellation and a release that ends a reservation write it down with all of its lines, as memory
has it then; no other call writes anything. -/
theorem reservations_agree {u : Session} {s : ReservationState} (hopen : u.isOpen = true)
    (hs : s.Reachable) (hstorable : s.Storable) (hserver : AnswersReservations u.server s) :
    (∀ fresh fresh' n now,
      SameInSession u (·.under fresh') (fun c => some c.reservation) s
        ((MemoryReservations.store.create fresh n now).runFrom s)
        (Reservations.store.create fresh' n now)) ∧
    (∀ id now, SameInSession u (·) consumedReservation s
      ((MemoryReservations.store.consume id now).runFrom s)
      (Reservations.store.consume id now)) ∧
    (∀ id now, SameInSession u (·) some s
      ((MemoryReservations.store.cancel id now).runFrom s) (Reservations.store.cancel id now)) ∧
    ∀ id now, SameInSession u (·)
      (endedReservation ((MemoryReservations.store.release id now).runFrom s)) s
      ((MemoryReservations.store.release id now).runFrom s)
      (Reservations.store.release id now) :=
  ⟨create_agrees hopen hserver hs hstorable, consume_agrees hopen hserver hs hstorable,
    cancel_agrees hopen hserver hs hstorable, release_agrees hopen hserver hs hstorable⟩

/-- The server that answers out of reservations, whatever was said before. -/
def Server.recalling (s : ReservationState) : Server := fun _ q =>
  .rows <| match q with
    | .selectReservationKey id =>
      ((s.byId.get? id).map fun r => Row.ofReservationKey r.key).toList
    | .selectReservation id _ => ((s.byId.get? id).map Row.ofReservation).toList
    | .selectReservationByKey key _ =>
      (((s.byKey.get? key).bind s.byId.get?).map Row.ofReservation).toList
    | .selectLines id =>
      match s.byId.get? id with
      | some r => (sortOn (·.line) r.lines).map Row.ofReservationLine
      | none => []
    | _ => []

theorem answersReservations_recalling (s : ReservationState) :
    AnswersReservations (.recalling s) s where
  begins _ := ⟨_, rfl⟩
  commits _ := ⟨_, rfl⟩
  keys _ _ := rfl
  rows _ _ := rfl
  rowsByKey _ _ := rfl
  lines id r _ hr := by simp only [Server.recalling, hr]
  locks _ _ := ⟨_, rfl⟩
  saves _ _ := ⟨_, rfl⟩
  savesLines _ _ _ := ⟨_, rfl⟩

theorem storable_promises : Sample.promises.Storable := by decide

open Stockroom.Sample in
/-- A new promise gets its identifier elsewhere, another one is consumed, one that was cancelled is
not cancelled again, and one is ended. -/
theorem reservations_agree_promises :
    promises.Reachable ∧ promises.Storable ∧ AnswersReservations (.recalling promises) promises ∧
    SameInSession (.start (.recalling promises)) (·.under (.ofNat 8))
      (fun c => some c.reservation) promises
      ((MemoryReservations.store.create (.ofNat 9) (promise "SO-5" 9) (minute 2)).runFrom promises)
      (Reservations.store.create (.ofNat 8) (promise "SO-5" 9) (minute 2)) ∧
    SameInSession (.start (.recalling promises)) (·) consumedReservation promises
      ((MemoryReservations.store.consume (.ofNat 1) (minute 2)).runFrom promises)
      (Reservations.store.consume (.ofNat 1) (minute 2)) ∧
    SameInSession (.start (.recalling promises)) (·) some promises
      ((MemoryReservations.store.cancel (.ofNat 4) (minute 2)).runFrom promises)
      (Reservations.store.cancel (.ofNat 4) (minute 2)) ∧
    SameInSession (.start (.recalling promises)) (·)
      (endedReservation ((MemoryReservations.store.release (.ofNat 3) (minute 6)).runFrom promises))
      promises ((MemoryReservations.store.release (.ofNat 3) (minute 6)).runFrom promises)
      (Reservations.store.release (.ofNat 3) (minute 6)) := by
  have hserver := answersReservations_recalling promises
  obtain ⟨hcreate, hconsume, hcancel, hrelease⟩ :=
    reservations_agree (u := .start (.recalling promises)) rfl reachable_promises
      storable_promises hserver
  exact ⟨reachable_promises, storable_promises, hserver, hcreate _ _ _ _, hconsume _ _,
    hcancel _ _, hrelease _ _⟩

end Sql

end Stockroom
