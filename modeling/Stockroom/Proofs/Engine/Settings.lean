/-
Stockroom.Proofs.Engine.Settings — settings that are accepted, and runners that stand still.

Settings are refused when a batch or a pool of connections would be empty. The intervals of
the three jobs are read like every other count, and nothing is asked of them afterwards: an
interval of zero is accepted, and the runner that gets it never wakes up.

* `Job.intervalVariable` names the variable of a job's interval. `Config.accepted` says
  that the interval of accepted settings is what is read there, or the default.
* `Text.spellsZero` is the exact form of the texts that are read as the count zero: zeros,
  with or without a plus sign. `Config.count_eq_zero_iff` rests on following the reader digit
  by digit.
* `Runner.attempts_run_eq_nil_iff`: a runner with an interval attempts its job at once, when
  its first tick is due, so that an interval of zero is the only way to stand still.
-/
import Stockroom.Engine.Jobs
import Stockroom.Proofs.Engine.Runner
import Stockroom.Proofs.Step
import Stockroom.Proofs.Text

namespace Stockroom

/-! ## Texts for zero -/

namespace Text

/-- What follows the plus sign of a text, if it has one. -/
def unsignedDigits (s : String) : List Char :=
  match s.toList with
  | '+' :: digits => digits
  | digits => digits

/-- Whether a text consists of zeros, at least one, after a plus sign or none. -/
def spellsZero (s : String) : Bool :=
  !(unsignedDigits s).isEmpty && (unsignedDigits s).all (· == '0')

theorem digitValue?_eq_zero_iff {c : Char} : digitValue? c = some 0 ↔ c = '0' := by
  constructor
  · intro h
    unfold digitValue? at h
    split at h
    case isTrue hdigit =>
      have hbounds : 48 ≤ c.toNat ∧ c.toNat ≤ 57 := Char.isDigit_iff_toNat.mp hdigit
      have hzero : c.toNat - 48 = 0 := Option.some.inj h
      exact Char.toNat_inj.mp (by omega : c.toNat = 48)
    case isFalse => exact nomatch h
  · rintro rfl
    rfl

/-- Digits are read on while the number stays in the range. -/
theorem accumulate_cons_eq_ok_iff {r : IntegerRange} {negative : Bool} {acc n : Int} {c : Char}
    {rest : List Char} :
    accumulate r negative acc (c :: rest) = .ok n ↔
      ∃ d next, digitValue? c = some d ∧ next = (if negative then acc * 10 - d else acc * 10 + d) ∧
        r.contains next = true ∧ accumulate r negative next rest = .ok n := by
  rw [accumulate]
  cases digitValue? c with
  | none => simp
  | some d =>
    generalize hnext : (if negative then acc * 10 - (d : Int) else acc * 10 + d) = next
    have hcontains : r.contains next = true ↔ ¬ r.greatest < next ∧ ¬ next < r.least := by
      simp [IntegerRange.contains, and_comm]
    simp only [hnext, Option.some.injEq, exists_and_left, exists_eq_left, exists_eq_left',
      hcontains]
    split
    · simp_all
    · split <;> simp_all

theorem accumulate_contains {r : IntegerRange} {negative : Bool} {n : Int} :
    ∀ (cs : List Char) (acc : Int), r.contains acc = true →
      accumulate r negative acc cs = .ok n → r.contains n = true
  | [], acc, hacc, h => Except.ok.inj h ▸ hacc
  | c :: rest, acc, hacc, h => by
    obtain ⟨d, next, -, -, hnext, hrest⟩ := accumulate_cons_eq_ok_iff.mp h
    exact accumulate_contains rest next hnext hrest

/-- Digits come to zero only if each of them is a zero, and so is what stood before them. -/
theorem accumulate_eq_zero_iff {r : IntegerRange} (hzero : r.contains 0 = true) :
    ∀ (cs : List Char) (acc : Int), 0 ≤ acc →
      (accumulate r false acc cs = .ok 0 ↔ acc = 0 ∧ cs.all (· == '0') = true)
  | [], acc, _ => by simp [accumulate]
  | c :: rest, acc, hacc => by
    rw [accumulate_cons_eq_ok_iff, List.all_cons, Bool.and_eq_true, beq_iff_eq]
    constructor
    · rintro ⟨d, next, hd, hnext, -, hrest⟩
      simp only [Bool.false_eq_true, if_false] at hnext
      obtain ⟨hsum, hall⟩ := (accumulate_eq_zero_iff hzero rest next (by omega)).mp hrest
      obtain rfl : d = 0 := by omega
      exact ⟨by omega, digitValue?_eq_zero_iff.mp hd, hall⟩
    · rintro ⟨rfl, rfl, hall⟩
      exact ⟨0, 0, rfl, rfl, hzero,
        (accumulate_eq_zero_iff hzero rest 0 (Int.le_refl 0)).mpr ⟨rfl, hall⟩⟩

/-- A count is read from its digits. -/
theorem readInteger_eq_ok_iff {r : IntegerRange} (hr : r.least = 0) {s : String} {n : Int} :
    readInteger r s = .ok n ↔
      unsignedDigits s ≠ [] ∧ accumulate r false 0 (unsignedDigits s) = .ok n := by
  unfold readInteger unsignedDigits
  split <;> simp_all [accumulate, digitValue?]

end Text

/-! ## What is read -/

namespace Job

/-- The variable that sets the interval of a job. -/
def intervalVariable : Job → String
  | snapshotPipeline => "STOCKLEDGER_SNAPSHOT_INTERVAL_SECS"
  | reconciliationGuard => "STOCKLEDGER_GUARD_INTERVAL_SECS"
  | ttlSweeper => "STOCKLEDGER_SWEEP_INTERVAL_SECS"

theorem interval_default_pos (job : Job) : 0 < job.interval {} := by cases job <;> decide

end Job

namespace Config

variable {lookup : Lookup} {c : Config}

theorem checked_eq_ok {d : Config} (h : checked d = .ok c) :
    d = c ∧ 1 ≤ c.sweepBatchSize ∧ 1 ≤ c.maxConnections := by
  unfold checked at h
  split at h
  case isTrue => exact nomatch h
  case isFalse hbatch =>
    split at h
    case isTrue => exact nomatch h
    case isFalse hconnections =>
      obtain rfl := Except.ok.inj h
      exact ⟨rfl, by omega, by omega⟩

/-- Settings that are accepted have passed the check, and the interval of each job is what its
variable says. -/
theorem accepted (h : ofLookup lookup = .ok c) :
    (1 ≤ c.sweepBatchSize ∧ 1 ≤ c.maxConnections) ∧
    ∀ job : Job, valueOr lookup (count .unsigned64) job.intervalVariable (job.interval {}) =
      .ok (job.interval c) := by
  unfold ofLookup at h
  obtain ⟨maxConnections, -, h⟩ := bind_eq_ok_iff.mp h
  extract_lets rest at h
  obtain ⟨metricsAddress, h⟩ : ∃ metricsAddress, rest metricsAddress = .ok c := by
    split at h
    · exact ⟨none, h⟩
    · obtain ⟨metricsAddress, -, h⟩ := bind_eq_ok_iff.mp h
      exact ⟨metricsAddress, h⟩
  obtain ⟨sweepInterval, hsweep, h⟩ := bind_eq_ok_iff.mp h
  obtain ⟨sweepBatchSize, -, h⟩ := bind_eq_ok_iff.mp h
  obtain ⟨guardInterval, hguard, h⟩ := bind_eq_ok_iff.mp h
  obtain ⟨snapshotInterval, hsnapshot, h⟩ := bind_eq_ok_iff.mp h
  obtain ⟨ttl, -, h⟩ := bind_eq_ok_iff.mp h
  obtain ⟨reservationTtl, -, h⟩ := bind_eq_ok_iff.mp h
  obtain ⟨ageingWindow, -, h⟩ := bind_eq_ok_iff.mp h
  obtain ⟨verifyCommits, -, h⟩ := bind_eq_ok_iff.mp h
  obtain ⟨maxRetries, -, h⟩ := bind_eq_ok_iff.mp h
  obtain ⟨baseBackoff, -, h⟩ := bind_eq_ok_iff.mp h
  obtain ⟨rfl, hchecked⟩ := checked_eq_ok h
  refine ⟨hchecked, fun job => ?_⟩
  cases job with
  | snapshotPipeline => exact hsnapshot
  | reconciliationGuard => exact hguard
  | ttlSweeper => exact hsweep

/-- A count is read as zero only from a text for zero. -/
theorem count_eq_zero_iff {s : String} :
    count .unsigned64 s = .ok 0 ↔ Text.spellsZero s = true := by
  have hread : count .unsigned64 s = .ok 0 ↔ Text.readInteger .unsigned64 s = .ok 0 := by
    rw [count, map_eq_ok_iff]
    simp only [integer, mapError_eq_ok_iff]
    constructor
    · rintro ⟨n, hn, hzero⟩
      have hcontains : IntegerRange.unsigned64.contains n = true :=
        Text.accumulate_contains _ 0 rfl ((Text.readInteger_eq_ok_iff rfl).mp hn).2
      have hnonneg : 0 ≤ n := (IntegerRange.contains_iff.mp hcontains).1
      obtain rfl : n = 0 := by omega
      exact hn
    · exact fun h => ⟨0, h, rfl⟩
  rw [hread, Text.readInteger_eq_ok_iff rfl, Text.accumulate_eq_zero_iff rfl _ 0 (Int.le_refl 0)]
  simp [Text.spellsZero]

/-- A variable with a positive default sets zero only if it spells it. -/
theorem valueOr_eq_zero_iff {name : String} {default n : Nat} (hdefault : 0 < default)
    (h : valueOr lookup (count .unsigned64) name default = .ok n) :
    n = 0 ↔ ∃ raw, lookup name = some raw ∧ Text.spellsZero (Text.trim raw) = true := by
  unfold valueOr at h
  cases hraw : lookup name with
  | none =>
    rw [hraw] at h
    have hn : default = n := Except.ok.inj h
    simp only [reduceCtorEq, false_and, exists_false, iff_false]
    omega
  | some raw =>
    rw [hraw] at h
    simp only [Option.some.injEq, exists_eq_left', ← count_eq_zero_iff]
    unfold readValue at h
    cases hread : count .unsigned64 (Text.trim raw) with
    | error e => simp [hread] at h
    | ok m =>
      simp only [hread, Except.ok.injEq] at h ⊢
      omega

end Config

/-! ## Runners -/

namespace Runner

variable {c : RunnerConfig} {course : JobCourse} {s : Schedule}

/-- A runner with an interval attempts its job at the start, one without an interval never. -/
theorem attempts_run_eq_nil_iff (hshutdown : 0 < s.shutdown) :
    (run c course s).attempts = [] ↔ c.interval = 0 := by
  unfold run
  split
  case isTrue hzero => simp [hzero, RunnerRun.attempts]
  case isFalse hpos =>
    have hstart : Waiting.nextEvent ⟨0, 0, s.triggers, 0⟩ s.shutdown = 0 := by
      cases h : s.triggers <;> simp [Waiting.nextEvent]
    have hfirst := (attemptsFrom_tries c course s.shutdown c.maxRetries 0 0 0).ne_nil
    rw [loop_succ, hstart, if_neg (Nat.not_le.mpr hshutdown), wake_eq]
    simp [RunnerRun.attempts, hpos, hfirst]

end Runner

/-- In settings that are accepted neither batches nor the pool of connections are empty. An
interval is zero exactly if its variable spells zero, and exactly then the runner of the job
never attempts it, whatever may trigger it; every other runner does so at its start. -/
theorem accepted_settings_and_runners (lookup : Config.Lookup) (c : Config)
    (h : Config.ofLookup lookup = .ok c) :
    1 ≤ c.sweepBatchSize ∧ 1 ≤ c.maxConnections ∧
    ∀ job : Job,
      (job.interval c = 0 ↔
        ∃ raw, lookup job.intervalVariable = some raw ∧ Text.spellsZero (Text.trim raw) = true) ∧
      ∀ (course : JobCourse) (s : Schedule), 0 < s.shutdown →
        ((Runner.run (.ofConfig c (job.interval c)) course s).attempts = [] ↔
          job.interval c = 0) := by
  obtain ⟨⟨hbatch, hconnections⟩, hread⟩ := Config.accepted h
  refine ⟨hbatch, hconnections, fun job => ⟨?_, fun course s hshutdown => ?_⟩⟩
  · exact Config.valueOr_eq_zero_iff job.interval_default_pos (hread job)
  · rw [Runner.attempts_run_eq_nil_iff hshutdown]
    simp only [RunnerConfig.ofConfig]
    omega

namespace Sample

/-- Variables that set the interval of the sweeper to zero. -/
def noSweeps : Config.Lookup := fun name =>
  if name = "STOCKLEDGER_SWEEP_INTERVAL_SECS" then some "0" else none

end Sample

/-- The sweeper does nothing, though it is triggered; the other two jobs are attempted. -/
theorem accepted_settings_without_sweeps :
    let c : Config := { sweepInterval := 0 }
    Config.ofLookup Sample.noSweeps = .ok c ∧ (1 ≤ c.sweepBatchSize ∧ 1 ≤ c.maxConnections) ∧
    (Runner.run (.ofConfig c (Job.ttlSweeper.interval c)) Sample.slowStart ⟨[3], 7⟩).attempts = [] ∧
    (Runner.run (.ofConfig c (Job.reconciliationGuard.interval c)) Sample.slowStart
      ⟨[3], 7⟩).attempts ≠ [] := by
  intro c
  have hread : Config.ofLookup Sample.noSweeps = .ok c := rfl
  obtain ⟨hbatch, hconnections, hjobs⟩ := accepted_settings_and_runners Sample.noSweeps c hread
  refine ⟨hread, ⟨hbatch, hconnections⟩, ?_, ?_⟩
  · exact ((hjobs .ttlSweeper).2 Sample.slowStart ⟨[3], 7⟩ (by decide)).mpr rfl
  · exact mt ((hjobs .reconciliationGuard).2 Sample.slowStart ⟨[3], 7⟩ (by decide)).mp (by decide)

/-- Settings are accepted with which a runner cannot start: an interval of zero. -/
theorem accepted_settings_stand_still :
    ¬ ∀ (lookup : Config.Lookup) (c : Config), Config.ofLookup lookup = .ok c →
      (c.sweepInterval ≠ 0 ∧ c.guardInterval ≠ 0 ∧ c.snapshotInterval ≠ 0) ∧
        1 ≤ c.sweepBatchSize ∧ 1 ≤ c.maxConnections := by
  intro h
  have hread : Config.ofLookup Sample.noSweeps = .ok { sweepInterval := 0 } := rfl
  exact (h Sample.noSweeps _ hread).1.1 rfl

end Stockroom
