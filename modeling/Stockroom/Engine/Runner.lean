/-
Stockroom.Engine.Runner — doing a job at intervals, and again when it fails.

A runner waits for a tick of its clock, for a trigger, or for the shutdown. Woken up, it
attempts the job until an attempt succeeds or the retries are used up, and waits longer
after each failure. Triggers that come before the next wake-up count as one. A shutdown
ends every wait; only a running attempt is finished first. Times are in milliseconds from
the start of the runner.
-/
import Stockroom.Engine.Config
import Stockroom.Engine.Metrics

namespace Stockroom

/-- How a runner is paced. -/
structure RunnerConfig where
  /-- The time between ticks. -/
  interval : Nat
  /-- How many times a failing job is attempted again. -/
  maxRetries : Nat
  /-- The wait after the first failure. -/
  baseBackoff : Nat
  deriving DecidableEq, Repr

namespace RunnerConfig

/-- The pace that the settings give to a job with an interval in seconds. -/
def ofConfig (c : Config) (seconds : Nat) : RunnerConfig :=
  ⟨seconds * 1000, c.maxRetries, c.baseBackoff⟩

/-- The longest wait between two attempts. -/
def longestBackoff : Nat := 10000

/-- The wait after so many failures: it doubles with each failure, up to a limit. -/
def backoff (c : RunnerConfig) (failures : Nat) : Nat :=
  min (c.baseBackoff * Nat.pow 2 (min (failures - 1) 10)) longestBackoff

end RunnerConfig

/-! ## What a runner is faced with -/

/-- How an attempt goes. -/
structure Trial where
  /-- How long it takes. -/
  duration : Nat
  succeeds : Bool
  deriving DecidableEq, Repr

/-- How the attempts at a job go, by their number. -/
abbrev JobCourse := Nat → Trial

/-- What is asked of a runner from outside. -/
structure Schedule where
  /-- When it is triggered, the earliest time first. -/
  triggers : List Nat
  shutdown : Nat
  deriving DecidableEq, Repr

/-! ## What a runner does -/

/-- An attempt that was made. -/
structure Attempt where
  start : Nat
  finish : Nat
  succeeded : Bool
  deriving DecidableEq, Repr

/-- Why a runner woke up. -/
inductive WakeCause where
  | tick | trigger
  deriving DecidableEq, Repr

/-- A wake-up and its attempts. -/
structure Wake where
  /-- Since when the runner was waiting. -/
  parked : Nat
  woken : Nat
  cause : WakeCause
  attempts : List Attempt
  deriving DecidableEq, Repr

/-- Everything a runner does. -/
structure RunnerRun where
  wakes : List Wake
  stopped : Nat
  deriving DecidableEq, Repr

namespace RunnerRun

/-- The attempts of all wake-ups. -/
def attempts (r : RunnerRun) : List Attempt := r.wakes.flatMap (·.attempts)

/-- The failed attempts, counted. -/
def metrics (r : RunnerRun) (name : String) : Metrics :=
  (r.attempts.filter (fun a => !a.succeeded)).foldl
    (fun ms _ => ms.add (.runnerFailures name) 1) .empty

end RunnerRun

/-! ## Attempts -/

namespace Runner

/-- The attempts of one wake-up, from attempt `number` at time `now` on, after so many
failures and with so many retries left; and when they are over. -/
def attemptsFrom (c : RunnerConfig) (course : JobCourse) (shutdown : Nat) :
    (retries number now failures : Nat) → List Attempt × Nat
  | 0, number, now, _ =>
    let finish := now + (course number).duration
    ([⟨now, finish, (course number).succeeds⟩], finish)
  | retries + 1, number, now, failures =>
    let finish := now + (course number).duration
    let attempt : Attempt := ⟨now, finish, (course number).succeeds⟩
    let resume := finish + c.backoff (failures + 1)
    if (course number).succeeds then ([attempt], finish)
    else if shutdown ≤ resume then ([attempt], max finish shutdown)
    else
      let (later, ended) := attemptsFrom c course shutdown retries (number + 1) resume (failures + 1)
      (attempt :: later, ended)

/-! ## The loop -/

/-- A runner that waits for its next wake-up. -/
structure Waiting where
  now : Nat
  /-- When the next tick is due. -/
  tick : Nat
  /-- The triggers not answered yet. -/
  triggers : List Nat
  /-- The number of the next attempt. -/
  number : Nat
  deriving DecidableEq, Repr

/-- When something happens next. -/
def Waiting.nextEvent (w : Waiting) (shutdown : Nat) : Nat :=
  let alarm := min shutdown w.tick
  max w.now ((w.triggers.head?.map (min alarm)).getD alarm)

/-- The tick after one that was due at `due` and is answered at `now`: ticks missed meanwhile
are left out. -/
def tickAfter (interval due now : Nat) : Nat := now + interval - (now - due) % interval

/-- Answers a wake-up at `now`. -/
def wake (c : RunnerConfig) (course : JobCourse) (shutdown : Nat) (w : Waiting) (now : Nat) :
    Wake × Waiting :=
  let (attempts, ended) := attemptsFrom c course shutdown c.maxRetries w.number now 0
  let number := w.number + attempts.length
  if w.tick ≤ now then
    (⟨w.now, now, .tick, attempts⟩, ⟨ended, tickAfter c.interval w.tick now, w.triggers, number⟩)
  else
    (⟨w.now, now, .trigger, attempts⟩,
      ⟨ended, w.tick, w.triggers.dropWhile (fun t => decide (t ≤ now)), number⟩)

/-- Waits and wakes up until the shutdown, at most so many times. -/
def loop (c : RunnerConfig) (course : JobCourse) (shutdown : Nat) :
    (wakeUps : Nat) → Waiting → RunnerRun
  | 0, w => ⟨[], w.now⟩
  | wakeUps + 1, w =>
    let now := w.nextEvent shutdown
    if shutdown ≤ now then ⟨[], now⟩
    else
      let (first, w) := wake c course shutdown w now
      let rest := loop c course shutdown wakeUps w
      ⟨first :: rest.wakes, rest.stopped⟩

/-- What a runner does. The first tick is due at once. A runner without an interval never
wakes up; there are no more wake-ups than ticks before the shutdown and triggers. -/
def run (c : RunnerConfig) (course : JobCourse) (s : Schedule) : RunnerRun :=
  if c.interval = 0 then ⟨[], s.shutdown⟩
  else loop c course s.shutdown (s.shutdown / c.interval + s.triggers.length + 2)
    ⟨0, 0, s.triggers, 0⟩

end Runner

end Stockroom
