/-
Stockroom.Proofs.Engine.Runner — what a runner does between its start and the shutdown.

* `Tries` tells how the attempts of a wake-up go: the job is done or given up, or the shutdown
  comes before the next attempt, or there is one. `Paced` is what follows for the attempts as
  a list: how many there are, and when each of them starts.
* `Pending` says that a signal, a tick or a trigger, has come and that no wake-up has answered
  it. Triggers that come before the wake-up that answers them count as one, and so do ticks.
* `Wake.Follows` is the rule for a wake-up after those before it, `Rests` is what a runner that
  waits remembers of them. `Rests.wake` is the step: a runner that rests wakes up by the rule,
  and rests again. `Rests.loop` carries it through the loop; the number of signals to come bounds
  the number of wake-ups.
-/
import Mathlib.Algebra.Group.Nat.Defs
import Stockroom.Engine.Runner

namespace Stockroom

/-! ## Attempts -/

/-- Whether an attempt goes as the job has it. -/
structure Attempt.Follows (a : Attempt) (t : Trial) : Prop where
  finish : a.finish = a.start + t.duration
  succeeded : a.succeeded = t.succeeds

/-- The attempts of one wake-up from time `now` on, after so many failures and with so many
retries left. -/
structure Paced (c : RunnerConfig) (shutdown retries failures now : Nat) (as : List Attempt) :
    Prop where
  ne_nil : as ≠ []
  length_le : as.length ≤ retries + 1
  /-- The first attempt is made at once. -/
  start : ∀ a ∈ as.head?, a.start = now
  /-- There is a next attempt only after a failure and a wait, which doubles with each failure. -/
  again : ∀ i, (h : i + 1 < as.length) → as[i].succeeded = false ∧
    as[i + 1].start = as[i].finish + min (c.baseBackoff * 2 ^ min (failures + i) 10) 10000
  /-- No attempt starts after the shutdown. -/
  started : ∀ a ∈ as, a.start < shutdown
  /-- The last attempt succeeds, or is the last one allowed, or the shutdown comes before the
  next one. -/
  ends : ∀ a ∈ as.getLast?, a.succeeded = true ∨ as.length = retries + 1 ∨
    shutdown ≤ a.finish + min (c.baseBackoff * 2 ^ min (failures + as.length - 1) 10) 10000

namespace Runner

variable {c : RunnerConfig} {course : JobCourse} {shutdown retries number failures now ended : Nat}
  {as : List Attempt}

/-- An attempt at a time, as the job has it. -/
def attemptAt (course : JobCourse) (number now : Nat) : Attempt :=
  ⟨now, now + (course number).duration, (course number).succeeds⟩

/-- How the attempts of a wake-up go, and when they are over. -/
inductive Tries (c : RunnerConfig) (course : JobCourse) (shutdown : Nat) :
    (retries number failures now : Nat) → List Attempt → Nat → Prop
  /-- The job is done, or given up. -/
  | last {retries number failures now : Nat}
      (hlast : (attemptAt course number now).succeeded = true ∨ retries = 0) :
      Tries c course shutdown retries number failures now [attemptAt course number now]
        (attemptAt course number now).finish
  /-- The shutdown comes before the next attempt. -/
  | cut {retries number failures now : Nat}
      (hfailed : (attemptAt course number now).succeeded = false)
      (hcut : shutdown ≤ (attemptAt course number now).finish + c.backoff (failures + 1)) :
      Tries c course shutdown (retries + 1) number failures now [attemptAt course number now]
        (max (attemptAt course number now).finish shutdown)
  /-- The next attempt is made after a wait. -/
  | again {retries number failures now ended : Nat} {later : List Attempt}
      (hfailed : (attemptAt course number now).succeeded = false)
      (hresume : (attemptAt course number now).finish + c.backoff (failures + 1) < shutdown)
      (hlater : Tries c course shutdown retries (number + 1) (failures + 1)
        ((attemptAt course number now).finish + c.backoff (failures + 1)) later ended) :
      Tries c course shutdown (retries + 1) number failures now
        (attemptAt course number now :: later) ended

theorem attemptsFrom_succ (retries number now failures : Nat) :
    attemptsFrom c course shutdown (retries + 1) number now failures =
      let attempt := attemptAt course number now
      let resume := attempt.finish + c.backoff (failures + 1)
      if attempt.succeeded then ([attempt], attempt.finish)
      else if shutdown ≤ resume then ([attempt], max attempt.finish shutdown)
      else
        let later := attemptsFrom c course shutdown retries (number + 1) resume (failures + 1)
        (attempt :: later.1, later.2) := rfl

theorem attemptsFrom_tries (c : RunnerConfig) (course : JobCourse) (shutdown : Nat) :
    ∀ retries number now failures,
      Tries c course shutdown retries number failures now
        (attemptsFrom c course shutdown retries number now failures).1
        (attemptsFrom c course shutdown retries number now failures).2
  | 0, number, now, failures => .last (.inr rfl)
  | retries + 1, number, now, failures => by
    rw [attemptsFrom_succ]
    dsimp only
    split
    case isTrue hdone => exact .last (.inl hdone)
    case isFalse hfailed =>
      split
      case isTrue hcut => exact .cut (by simpa using hfailed) hcut
      case isFalse hresume =>
        exact .again (by simpa using hfailed) (by omega) (attemptsFrom_tries c course shutdown ..)

namespace Tries

theorem ne_nil (h : Tries c course shutdown retries number failures now as ended) : as ≠ [] := by
  cases h <;> simp

theorem head (h : Tries c course shutdown retries number failures now as ended) :
    ∀ a ∈ as.head?, a.start = now := by
  cases h <;> simp [attemptAt]

theorem length_le (h : Tries c course shutdown retries number failures now as ended) :
    as.length ≤ retries + 1 := by
  induction h with
  | last => simp
  | cut => simp
  | again _ _ _ ih => simpa using ih

/-- The attempts go as the job has them, by their numbers. -/
theorem follows (h : Tries c course shutdown retries number failures now as ended) :
    ∀ i, (hi : i < as.length) → as[i].Follows (course (number + i)) := by
  induction h with
  | last =>
    intro i hi
    obtain rfl : i = 0 := by simpa using hi
    exact ⟨rfl, rfl⟩
  | cut =>
    intro i hi
    obtain rfl : i = 0 := by simpa using hi
    exact ⟨rfl, rfl⟩
  | @again _ number _ _ _ _ _ _ _ ih =>
    intro i hi
    cases i with
    | zero => exact ⟨rfl, rfl⟩
    | succ i =>
      have hshift : number + (i + 1) = number + 1 + i := by omega
      rw [hshift]
      exact ih i (by simpa using hi)

theorem started (h : Tries c course shutdown retries number failures now as ended)
    (hnow : now < shutdown) : ∀ a ∈ as, a.start < shutdown := by
  induction h with
  | last => simpa [attemptAt] using hnow
  | cut => simpa [attemptAt] using hnow
  | again _ hresume _ ih => exact List.forall_mem_cons.mpr ⟨hnow, ih hresume⟩

theorem again_of_lt (h : Tries c course shutdown retries number failures now as ended) :
    ∀ i, (hi : i + 1 < as.length) → as[i].succeeded = false ∧
      as[i + 1].start = as[i].finish + min (c.baseBackoff * 2 ^ min (failures + i) 10) 10000 := by
  induction h with
  | last => simp
  | cut => simp
  | @again _ number failures now _ later hfailed _ hlater ih =>
    intro i hi
    cases i with
    | zero =>
      refine ⟨hfailed, ?_⟩
      cases hlater <;> rfl
    | succ i =>
      have hshift : failures + (i + 1) = failures + 1 + i := by omega
      rw [hshift]
      exact ih i (by simpa using hi)

/-- The last attempt ends the wake-up, or the shutdown does. -/
theorem ends (h : Tries c course shutdown retries number failures now as ended) :
    ∃ a, as.getLast? = some a ∧
      ((ended = a.finish ∧ (a.succeeded = true ∨ as.length = retries + 1)) ∨
        (ended = max a.finish shutdown ∧ a.succeeded = false ∧ as.length ≤ retries ∧ shutdown ≤
          a.finish + min (c.baseBackoff * 2 ^ min (failures + as.length - 1) 10) 10000)) := by
  induction h with
  | last hlast => exact ⟨_, rfl, .inl ⟨rfl, hlast.imp_right fun h => by simp [h]⟩⟩
  | cut hfailed hcut => exact ⟨_, rfl, .inr ⟨rfl, hfailed, Nat.le_add_left 1 _, hcut⟩⟩
  | again _ _ _ ih =>
    obtain ⟨a, ha, h⟩ := ih
    refine ⟨a, by simp [List.getLast?_cons, ha], ?_⟩
    simpa [Nat.add_right_comm, Nat.add_assoc] using h

theorem le_ended (h : Tries c course shutdown retries number failures now as ended) :
    now ≤ ended := by
  induction h with
  | last => simp [attemptAt]
  | cut =>
    simp only [attemptAt]
    omega
  | again _ _ _ ih =>
    simp only [attemptAt] at ih
    omega

theorem paced (h : Tries c course shutdown retries number failures now as ended)
    (hnow : now < shutdown) : Paced c shutdown retries failures now as where
  ne_nil := h.ne_nil
  length_le := h.length_le
  start := h.head
  again := h.again_of_lt
  started := h.started hnow
  ends := by
    obtain ⟨last, hlast, h⟩ := h.ends
    intro a ha
    obtain rfl : last = a := Option.some.inj (hlast.symm.trans ha)
    obtain ⟨-, hsucceeded | hlength⟩ | ⟨-, -, -, hcut⟩ := h
    · exact .inl hsucceeded
    · exact .inr (.inl hlength)
    · exact .inr (.inr hcut)

end Tries

end Runner

/-! ## Signals -/

/-- What tells a runner to wake up: the ticks of its clock, and the triggers. -/
def Signals (c : RunnerConfig) (s : Schedule) : WakeCause → Nat → Prop
  | .tick, t => c.interval ∣ t
  | .trigger, t => t ∈ s.triggers

/-- Whether none of these wake-ups answers a signal that comes at time `t`. -/
def Unanswered (wakes : List Wake) (cause : WakeCause) (t : Nat) : Prop :=
  ∀ w ∈ wakes, w.cause = cause → w.woken < t

/-- Whether a signal has come by time `t` and is not answered. -/
def Pending (c : RunnerConfig) (s : Schedule) (wakes : List Wake) (cause : WakeCause) (t : Nat) :
    Prop :=
  ∃ τ, Signals c s cause τ ∧ τ ≤ t ∧ Unanswered wakes cause τ

/-! ## Wake-ups -/

namespace Wake

/-- When the last attempt is finished. -/
def finish (w : Wake) : Nat := (w.attempts.getLast?.map (·.finish)).getD w.woken

/-- Whether an attempt succeeded, or all retries were used. -/
def IsOver (c : RunnerConfig) (w : Wake) : Prop :=
  w.attempts.length = c.maxRetries + 1 ∨ ∃ a ∈ w.attempts.getLast?, a.succeeded = true

end Wake

/-- Since when a runner rests after these wake-ups. -/
def restsSince (wakes : List Wake) : Nat := (wakes.getLast?.map (·.finish)).getD 0

/-- The rule for a wake-up after those before it. -/
structure Wake.Follows (c : RunnerConfig) (s : Schedule) (before : List Wake) (w : Wake) :
    Prop where
  /-- The runner waits for it since the last attempt of the wake-up before it. -/
  parked : w.parked = restsSince before
  woken_le : ∀ previous ∈ before, previous.woken ≤ w.parked
  earlier_over : ∀ previous ∈ before.getLast?, previous.IsOver c
  parked_le : w.parked ≤ w.woken
  /-- Nothing was pending while the runner was waiting for it. -/
  idle : ∀ cause t, w.parked ≤ t → t < w.woken → ¬ Pending c s before cause t
  /-- What it answers is pending. -/
  caused : Pending c s before w.cause w.woken
  paced : Paced c s.shutdown c.maxRetries 0 w.woken w.attempts

/-! ## Waiting -/

section Waiting

variable {c : RunnerConfig} {course : JobCourse} {s : Schedule} {before : List Wake}
  {w first : Wake} {r : Runner.Waiting}

theorem unanswered_append {cause : WakeCause} {t : Nat} :
    Unanswered (before ++ [w]) cause t ↔
      Unanswered before cause t ∧ (w.cause = cause → w.woken < t) := by
  simp [Unanswered, or_imp, forall_and]

theorem restsSince_append : restsSince (before ++ [w]) = w.finish := by simp [restsSince]

/-- What a runner that waits remembers of its wake-ups. -/
structure Rests (c : RunnerConfig) (s : Schedule) (before : List Wake) (r : Runner.Waiting) :
    Prop where
  /-- It waits since its last attempt, unless the shutdown has kept it from the next one. -/
  now : (r.now = restsSince before ∧ ∀ w ∈ before.getLast?, w.IsOver c) ∨
    (r.now = max (restsSince before) s.shutdown ∧ ∃ w ∈ before.getLast?, ¬ w.IsOver c)
  woken_le : ∀ w ∈ before, w.woken ≤ r.now
  tick_dvd : c.interval ∣ r.tick
  tick_le_iff : ∀ t, c.interval ∣ t → (r.tick ≤ t ↔ Unanswered before .tick t)
  mem_triggers : ∀ t, t ∈ r.triggers ↔ t ∈ s.triggers ∧ Unanswered before .trigger t
  sorted : r.triggers.Pairwise (· ≤ ·)
  number : r.number = (before.flatMap (·.attempts)).length

theorem Rests.pending_tick_iff (h : Rests c s before r) {t : Nat} :
    Pending c s before .tick t ↔ r.tick ≤ t := by
  constructor
  · rintro ⟨τ, hτ, hle, hnew⟩
    exact Nat.le_trans ((h.tick_le_iff τ hτ).mpr hnew) hle
  · exact fun hle => ⟨r.tick, h.tick_dvd, hle, (h.tick_le_iff _ h.tick_dvd).mp (Nat.le_refl _)⟩

theorem Rests.pending_trigger_iff (h : Rests c s before r) {t : Nat} :
    Pending c s before .trigger t ↔ ∃ τ ∈ r.triggers, τ ≤ t := by
  constructor
  · rintro ⟨τ, hτ, hle, hnew⟩
    exact ⟨τ, (h.mem_triggers τ).mpr ⟨hτ, hnew⟩, hle⟩
  · rintro ⟨τ, hτ, hle⟩
    obtain ⟨hs, hnew⟩ := (h.mem_triggers τ).mp hτ
    exact ⟨τ, hs, hle, hnew⟩

namespace Runner

theorem le_nextEvent (r : Waiting) (shutdown : Nat) : r.now ≤ r.nextEvent shutdown :=
  Nat.le_max_left ..

theorem loop_succ (c : RunnerConfig) (course : JobCourse) (shutdown wakeUps : Nat) (r : Waiting) :
    loop c course shutdown (wakeUps + 1) r =
      if shutdown ≤ r.nextEvent shutdown then ⟨[], r.nextEvent shutdown⟩
      else
        let out := wake c course shutdown r (r.nextEvent shutdown)
        let rest := loop c course shutdown wakeUps out.2
        ⟨out.1 :: rest.wakes, rest.stopped⟩ := rfl

/-- The next event is the first thing to come, but not before now. -/
theorem lt_nextEvent_iff (hsorted : r.triggers.Pairwise (· ≤ ·)) (shutdown t : Nat) :
    t < r.nextEvent shutdown ↔
      t < r.now ∨ (t < shutdown ∧ t < r.tick ∧ ∀ τ ∈ r.triggers, t < τ) := by
  unfold Waiting.nextEvent
  cases hr : r.triggers with
  | nil =>
    simp only [List.head?_nil, Option.map_none, Option.getD_none, List.not_mem_nil, false_implies,
      implies_true, and_true]
    omega
  | cons first later =>
    rw [hr] at hsorted
    -- the other triggers are no earlier than the first one
    have hfirst : (∀ τ ∈ first :: later, t < τ) ↔ t < first := by
      refine List.forall_mem_cons.trans (and_iff_left_of_imp fun hlt τ hτ => ?_)
      exact Nat.lt_of_lt_of_le hlt (List.rel_of_pairwise_cons hsorted hτ)
    simp only [List.head?_cons, Option.map_some, Option.getD_some, hfirst]
    omega

theorem tickAfter_eq {interval due now : Nat} (hdue : due ≤ now) :
    tickAfter interval due now = due + ((now - due) / interval + 1) * interval := by
  have h := Nat.div_add_mod' (now - due) interval
  rw [tickAfter, Nat.add_mul, Nat.one_mul]
  omega

/-- The next tick is the first multiple of the interval after now. -/
theorem tickAfter_le_iff {interval due now t : Nat} (hinterval : interval ≠ 0)
    (hdue : due ≤ now) (hdvd : interval ∣ due) (ht : interval ∣ t) :
    tickAfter interval due now ≤ t ↔ now < t := by
  rw [tickAfter_eq hdue]
  obtain ⟨k, rfl⟩ := hdvd
  obtain ⟨m, rfl⟩ := ht
  generalize hq : (now - interval * k) / interval = q
  have hlow : interval * (k + q) ≤ now := by
    have := Nat.div_mul_le_self (now - interval * k) interval
    rw [hq, Nat.mul_comm] at this
    rw [Nat.mul_add]
    omega
  have hhigh : now < interval * (k + q + 1) := by
    have := Nat.lt_mul_div_succ (now - interval * k) (Nat.pos_of_ne_zero hinterval)
    rw [hq] at this
    rw [Nat.add_assoc, Nat.mul_add]
    omega
  have hsum : interval * k + (q + 1) * interval = interval * (k + q + 1) := by
    rw [Nat.mul_comm (q + 1), ← Nat.mul_add, Nat.add_assoc]
  rw [hsum, Nat.mul_le_mul_left_iff (Nat.pos_of_ne_zero hinterval)]
  constructor
  · exact fun hle => Nat.lt_of_lt_of_le hhigh (Nat.mul_le_mul_left interval hle)
  · exact fun hlt => Nat.lt_of_mul_lt_mul_left (Nat.lt_of_le_of_lt hlow hlt)

theorem mem_dropWhile_le_iff {now t : Nat} {ts : List Nat} (hsorted : ts.Pairwise (· ≤ ·)) :
    t ∈ ts.dropWhile (fun τ => decide (τ ≤ now)) ↔ t ∈ ts ∧ now < t := by
  induction hsorted with
  | nil => simp
  | @cons first later hfirst _ ih =>
    rw [List.dropWhile_cons]
    split
    case isTrue hle =>
      rw [ih, List.mem_cons]
      have hle : first ≤ now := by simpa using hle
      constructor
      · exact fun ⟨ht, hlt⟩ => ⟨.inr ht, hlt⟩
      · rintro ⟨rfl | ht, hlt⟩
        · omega
        · exact ⟨ht, hlt⟩
    case isFalse hlt =>
      have hlt : now < first := by simpa using hlt
      refine (and_iff_left_of_imp fun ht => ?_).symm
      obtain rfl | ht := List.mem_cons.mp ht
      · exact hlt
      · exact Nat.lt_of_lt_of_le hlt (hfirst t ht)

/-- A due tick comes before a trigger. -/
theorem wake_eq (c : RunnerConfig) (course : JobCourse) (shutdown : Nat) (r : Waiting) (now : Nat) :
    wake c course shutdown r now =
      let tried := attemptsFrom c course shutdown c.maxRetries r.number now 0
      (⟨r.now, now, if r.tick ≤ now then .tick else .trigger, tried.1⟩,
        ⟨tried.2, if r.tick ≤ now then tickAfter c.interval r.tick now else r.tick,
          if r.tick ≤ now then r.triggers else r.triggers.dropWhile (fun t => decide (t ≤ now)),
          r.number + tried.1.length⟩) := by
  unfold wake
  dsimp only
  split <;> simp_all

end Runner

/-- The rule for what a runner does after these wake-ups. -/
structure RunsOn (c : RunnerConfig) (course : JobCourse) (s : Schedule) (before : List Wake)
    (run : RunnerRun) : Prop where
  follows : ∀ mid w after, run.wakes = mid ++ w :: after → w.Follows c s (before ++ mid)
  course : ∀ i, (hi : i < run.attempts.length) →
    run.attempts[i].Follows (course ((before.flatMap (·.attempts)).length + i))
  stopped : run.stopped = max (restsSince (before ++ run.wakes)) s.shutdown
  /-- Unless the shutdown comes between two attempts, nothing is pending until then. -/
  idle : (∀ last ∈ (before ++ run.wakes).getLast?, last.IsOver c) → ∀ cause t,
    restsSince (before ++ run.wakes) ≤ t → t < s.shutdown →
      ¬ Pending c s (before ++ run.wakes) cause t

/-- A wake-up by the rule comes before what is done after it. -/
theorem RunsOn.cons {rest : RunnerRun} (hfirst : first.Follows c s before)
    (hcourse : ∀ i, (hi : i < first.attempts.length) →
      first.attempts[i].Follows (course ((before.flatMap (·.attempts)).length + i)))
    (hrest : RunsOn c course s (before ++ [first]) rest) :
    RunsOn c course s before ⟨first :: rest.wakes, rest.stopped⟩ where
  follows mid w after hwakes := by
    obtain ⟨rfl, hwakes⟩ | ⟨mid, rfl, hwakes⟩ := List.cons_eq_append_iff.mp hwakes
    · obtain ⟨rfl, -⟩ := List.cons.inj hwakes
      simpa using hfirst
    · simpa using hrest.follows mid w after (List.cons.inj hwakes).2
  course i hi := by
    have hattempts : RunnerRun.attempts ⟨first :: rest.wakes, rest.stopped⟩ =
        first.attempts ++ rest.attempts := by simp [RunnerRun.attempts]
    simp only [hattempts, List.getElem_append]
    split
    case isTrue hi' => exact hcourse i hi'
    case isFalse hge =>
      have hi' : i - first.attempts.length < rest.attempts.length := by
        rw [hattempts, List.length_append] at hi
        omega
      have h := hrest.course (i - first.attempts.length) hi'
      rw [List.flatMap_append, List.length_append, List.flatMap_singleton, Nat.add_assoc,
        Nat.add_sub_cancel' (Nat.le_of_not_lt hge)] at h
      exact h
  stopped := by simpa using hrest.stopped
  idle := by simpa using hrest.idle

/-- How many signals are to come before the shutdown, at most. -/
def toCome (c : RunnerConfig) (shutdown : Nat) (r : Runner.Waiting) : Nat :=
  r.triggers.length + (shutdown / c.interval + 1 - r.tick / c.interval)

namespace Rests

/-- A wake-up is over when its last attempt is finished, or else by the shutdown. -/
theorem wake_now (course : JobCourse) (r : Runner.Waiting) (now : Nat) :
    let out := Runner.wake c course s.shutdown r now
    (out.2.now = out.1.finish ∧ out.1.IsOver c) ∨
      (out.2.now = max out.1.finish s.shutdown ∧ ¬ out.1.IsOver c) := by
  have htries := Runner.attemptsFrom_tries c course s.shutdown c.maxRetries r.number now 0
  obtain ⟨last, hlast, h⟩ := htries.ends
  simp only [Runner.wake_eq, Wake.finish, Wake.IsOver, hlast, Option.map_some, Option.getD_some,
    Option.mem_some_iff, exists_eq_left']
  obtain ⟨hended, h⟩ | ⟨hended, hfailed, hlength, -⟩ := h
  · exact .inl ⟨hended, h.symm⟩
  · refine .inr ⟨hended, ?_⟩
    rintro (hall | hsucceeded)
    · omega
    · simp [hfailed] at hsucceeded

/-- Nothing is pending before the next event. -/
theorem idle (h : Rests c s before r) {t : Nat} (hle : r.now ≤ t)
    (hlt : t < r.nextEvent s.shutdown) (cause : WakeCause) : ¬ Pending c s before cause t := by
  obtain hnow | ⟨-, htick, htriggers⟩ := (Runner.lt_nextEvent_iff h.sorted ..).mp hlt
  · omega
  · cases cause with
    | tick =>
      rw [h.pending_tick_iff]
      omega
    | trigger =>
      rw [h.pending_trigger_iff]
      rintro ⟨τ, hτ, hle⟩
      exact Nat.not_lt.mpr hle (htriggers τ hτ)

/-- The next event before the shutdown is a signal. -/
theorem exists_trigger (h : Rests c s before r) (hnext : r.nextEvent s.shutdown < s.shutdown)
    (htick : ¬ r.tick ≤ r.nextEvent s.shutdown) :
    ∃ τ ∈ r.triggers, τ ≤ r.nextEvent s.shutdown := by
  by_cases hsome : ∃ τ ∈ r.triggers, τ ≤ r.nextEvent s.shutdown
  case pos => exact hsome
  case neg =>
    have hlater : ∀ τ ∈ r.triggers, r.nextEvent s.shutdown < τ := by simpa using hsome
    have := (Runner.lt_nextEvent_iff h.sorted ..).mpr (.inr ⟨hnext, Nat.lt_of_not_le htick, hlater⟩)
    exact absurd this (Nat.lt_irrefl _)

/-- A runner that waits wakes up by the rule. -/
theorem follows (h : Rests c s before r) (hnext : r.nextEvent s.shutdown < s.shutdown) :
    (Runner.wake c course s.shutdown r (r.nextEvent s.shutdown)).1.Follows c s before := by
  have hnow : r.now = restsSince before ∧ ∀ w ∈ before.getLast?, w.IsOver c := by
    refine h.now.resolve_right fun ⟨hnow, _⟩ => ?_
    have := Runner.le_nextEvent r s.shutdown
    omega
  have htries := Runner.attemptsFrom_tries c course s.shutdown c.maxRetries r.number
    (r.nextEvent s.shutdown) 0
  rw [Runner.wake_eq]
  refine ⟨hnow.1, h.woken_le, hnow.2, Runner.le_nextEvent ..,
    fun cause t hle hlt => h.idle hle hlt cause, ?_, htries.paced hnext⟩
  dsimp only
  split
  case isTrue htick => exact h.pending_tick_iff.mpr htick
  case isFalse htick => exact h.pending_trigger_iff.mpr (h.exists_trigger hnext htick)

/-- A runner rests again after a wake-up. -/
theorem wake (hinterval : c.interval ≠ 0) (h : Rests c s before r) :
    Rests c s (before ++ [(Runner.wake c course s.shutdown r (r.nextEvent s.shutdown)).1])
      (Runner.wake c course s.shutdown r (r.nextEvent s.shutdown)).2 where
  now := by
    have := wake_now (c := c) (s := s) course r (r.nextEvent s.shutdown)
    simpa [restsSince_append] using this
  woken_le w hw := by
    have hle := Runner.le_nextEvent r s.shutdown
    have hlater := (Runner.attemptsFrom_tries c course s.shutdown c.maxRetries r.number
      (r.nextEvent s.shutdown) 0).le_ended
    rw [Runner.wake_eq] at hw ⊢
    obtain hw | hw := List.mem_append.mp hw
    · have := h.woken_le w hw
      dsimp only
      omega
    · obtain rfl := List.mem_singleton.mp hw
      exact hlater
  tick_dvd := by
    rw [Runner.wake_eq]
    dsimp only
    split
    case isTrue htick =>
      rw [Runner.tickAfter_eq htick]
      exact Nat.dvd_add h.tick_dvd (Nat.dvd_mul_left ..)
    case isFalse => exact h.tick_dvd
  tick_le_iff t ht := by
    rw [unanswered_append, ← h.tick_le_iff t ht, Runner.wake_eq]
    dsimp only
    split
    case isTrue htick =>
      rw [Runner.tickAfter_le_iff hinterval htick h.tick_dvd ht]
      simp only [true_implies]
      omega
    case isFalse => simp
  mem_triggers t := by
    rw [unanswered_append, Runner.wake_eq]
    dsimp only
    split
    case isTrue => simpa using h.mem_triggers t
    case isFalse =>
      rw [Runner.mem_dropWhile_le_iff h.sorted, h.mem_triggers]
      simp [and_assoc]
  sorted := by
    rw [Runner.wake_eq]
    dsimp only
    split
    case isTrue => exact h.sorted
    case isFalse => exact h.sorted.sublist (List.dropWhile_sublist _)
  number := by simp [Runner.wake_eq, h.number]

/-! ### The loop -/

/-- A wake-up uses up a tick or a trigger. -/
theorem toCome_wake_lt (course : JobCourse) (hinterval : c.interval ≠ 0) (h : Rests c s before r)
    (hnext : r.nextEvent s.shutdown < s.shutdown) :
    toCome c s.shutdown (Runner.wake c course s.shutdown r (r.nextEvent s.shutdown)).2 <
      toCome c s.shutdown r := by
  rw [Runner.wake_eq]
  unfold toCome
  dsimp only
  split
  case isTrue htick =>
    have hdiv : r.tick / c.interval ≤ s.shutdown / c.interval :=
      Nat.div_le_div_right (by omega)
    rw [Runner.tickAfter_eq htick, Nat.add_mul_div_right _ _ (Nat.pos_of_ne_zero hinterval)]
    generalize (r.nextEvent s.shutdown - r.tick) / c.interval = skipped
    omega
  case isFalse htick =>
    obtain ⟨τ, hτ, hle⟩ := h.exists_trigger hnext htick
    have hsub := List.dropWhile_sublist (fun t => decide (t ≤ r.nextEvent s.shutdown))
      (l := r.triggers)
    have hne : (r.triggers.dropWhile fun t => decide (t ≤ r.nextEvent s.shutdown)).length ≠
        r.triggers.length := by
      intro hlength
      rw [← hsub.eq_of_length hlength, Runner.mem_dropWhile_le_iff h.sorted] at hτ
      omega
    have := hsub.length_le
    omega

/-- Without a wake-up before it, the shutdown ends the wait. -/
theorem stops (h : Rests c s before r) (hnext : s.shutdown ≤ r.nextEvent s.shutdown) :
    RunsOn c course s before ⟨[], r.nextEvent s.shutdown⟩ where
  follows mid w after hwakes := by simp at hwakes
  course i hi := by simp [RunnerRun.attempts] at hi
  stopped := by
    have hstop : r.nextEvent s.shutdown = max r.now s.shutdown := by
      have hnow := Runner.le_nextEvent r s.shutdown
      have := Runner.lt_nextEvent_iff h.sorted s.shutdown (max r.now s.shutdown)
      omega
    simp only [List.append_nil]
    obtain ⟨hnow, -⟩ | ⟨hnow, -⟩ := h.now <;> omega
  idle hover cause t hle hlt := by
    simp only [List.append_nil] at hover hle ⊢
    obtain ⟨hnow, -⟩ | ⟨-, w, hw, hnot⟩ := h.now
    · exact h.idle (by omega) (by omega) cause
    · exact absurd (hover w hw) hnot

/-- A runner that rests goes on by the rule until the shutdown. -/
theorem loop (hinterval : c.interval ≠ 0) : ∀ (wakeUps : Nat) {before : List Wake}
    {r : Runner.Waiting}, Rests c s before r → toCome c s.shutdown r < wakeUps →
    RunsOn c course s before (Runner.loop c course s.shutdown wakeUps r)
  | 0, _, _, _, hcome => absurd hcome (Nat.not_lt_zero _)
  | wakeUps + 1, before, r, h, hcome => by
    rw [Runner.loop_succ]
    split
    case isTrue hstop => exact h.stops hstop
    case isFalse hgo =>
      have hnext : r.nextEvent s.shutdown < s.shutdown := Nat.lt_of_not_le hgo
      have hless := h.toCome_wake_lt course hinterval hnext
      refine RunsOn.cons (h.follows hnext) ?_ (loop hinterval wakeUps (h.wake hinterval) (by omega))
      rw [← h.number]
      simp only [Runner.wake_eq]
      exact (Runner.attemptsFrom_tries c course s.shutdown c.maxRetries r.number _ 0).follows

theorem start (s : Schedule) (hsorted : s.triggers.Pairwise (· ≤ ·)) :
    Rests c s [] ⟨0, 0, s.triggers, 0⟩ where
  now := .inl ⟨rfl, by simp⟩
  woken_le := by simp
  tick_dvd := Nat.dvd_zero _
  tick_le_iff := by simp [Unanswered]
  mem_triggers := by simp [Unanswered]
  sorted := hsorted
  number := rfl

end Rests

theorem Runner.run_runsOn (course : JobCourse) (hinterval : c.interval ≠ 0)
    (hsorted : s.triggers.Pairwise (· ≤ ·)) : RunsOn c course s [] (Runner.run c course s) := by
  rw [Runner.run, if_neg hinterval]
  refine (Rests.start s hsorted).loop hinterval _ ?_
  simp only [toCome, Nat.zero_div]
  generalize s.shutdown / c.interval = ticks
  omega

/-- A trigger that comes after a wake-up and before its last attempt is finished is followed by
another wake-up, unless the shutdown comes first. -/
theorem RunsOn.next_of_trigger {run : RunnerRun} (h : RunsOn c course s [] run) {after : List Wake}
    (hwakes : run.wakes = before ++ w :: after) {τ : Nat} (hτ : τ ∈ s.triggers)
    (hwoken : w.woken < τ) (hfinish : τ ≤ w.finish) (hover : w.IsOver c)
    (hshutdown : w.finish < s.shutdown) : after ≠ [] := by
  rintro rfl
  have hlast : (restsSince run.wakes) = w.finish := by rw [hwakes, restsSince_append]
  have hidle := h.idle (by simpa [hwakes] using hover) .trigger w.finish (by simp [hlast]) hshutdown
  have hfollows := h.follows before w [] hwakes
  refine hidle ⟨τ, hτ, hfinish, ?_⟩
  -- no wake-up so far is as late as the trigger
  intro v hv _
  rw [List.nil_append, hwakes] at hv
  obtain hv | hv := List.mem_append.mp hv
  · have := hfollows.woken_le v hv
    have := hfollows.parked_le
    omega
  · rwa [List.mem_singleton.mp hv]

end Waiting

/-- The wake-ups of a runner, ticks and triggers alike, follow each other by the rule: each is
due when it comes, nothing is pending while the runner waits, and its attempts are paced. A
trigger that comes while attempts are made is followed by another wake-up, unless the shutdown
comes first. The attempts go as the job has them, and none starts after the shutdown, by which
the runner stops as soon as its last attempt is finished, with nothing pending until then. -/
theorem runner_keeps_pace (c : RunnerConfig) (course : JobCourse) (s : Schedule)
    (hinterval : c.interval ≠ 0) (hsorted : s.triggers.Pairwise (· ≤ ·)) :
    let run := Runner.run c course s
    (∀ before w after, run.wakes = before ++ w :: after →
      w.Follows c s before ∧
      ∀ τ ∈ s.triggers, w.woken < τ → τ ≤ w.finish → w.IsOver c → w.finish < s.shutdown →
        after ≠ []) ∧
    (∀ i, (hi : i < run.attempts.length) → run.attempts[i].Follows (course i)) ∧
    (∀ a ∈ run.attempts, a.start < s.shutdown) ∧
    run.stopped = max (restsSince run.wakes) s.shutdown ∧
    ((∀ last ∈ run.wakes.getLast?, last.IsOver c) → ∀ cause t, restsSince run.wakes ≤ t →
      t < s.shutdown → ¬ Pending c s run.wakes cause t) := by
  intro run
  have h : RunsOn c course s [] run := Runner.run_runsOn course hinterval hsorted
  refine ⟨?_, by simpa using h.course, ?_, h.stopped, h.idle⟩
  · intro before w after hwakes
    exact ⟨h.follows before w after hwakes, fun τ => h.next_of_trigger hwakes⟩
  · intro a ha
    obtain ⟨w, hw, ha⟩ := List.mem_flatMap.mp ha
    obtain ⟨before, after, hwakes⟩ := List.append_of_mem hw
    exact (h.follows before w after hwakes).paced.started a ha

namespace Sample

/-- A runner that ticks every second and may try a failing job twice more. -/
def pace : RunnerConfig := ⟨1000, 2, 10⟩

/-- A job whose first two attempts fail. -/
def slowStart : JobCourse := fun number => ⟨20, decide (2 ≤ number)⟩

/-- Two triggers while the job fails, and a shutdown after the second tick. -/
def hurried : Schedule := ⟨[3, 33], 1507⟩

end Sample

/-- Two failures, the triggers that came meanwhile answered at once, and the second tick. -/
theorem runner_keeps_pace_hurried :
    let run := Runner.run Sample.pace Sample.slowStart Sample.hurried
    run.attempts.map (·.start) = [0, 30, 70, 90, 1000] ∧
    (∀ before w after, run.wakes = before ++ w :: after →
      w.Follows Sample.pace Sample.hurried before) ∧
    ∀ a ∈ run.attempts, a.start < 1507 := by
  have h := runner_keeps_pace Sample.pace Sample.slowStart Sample.hurried (by decide) (by decide)
  exact ⟨by decide, fun before w after hwakes => (h.1 before w after hwakes).1, h.2.2.1⟩

end Stockroom
