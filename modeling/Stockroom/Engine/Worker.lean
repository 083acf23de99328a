/-
Stockroom.Engine.Worker — the program that runs the jobs in the background.

The worker loads its settings, connects to a server, applies the schema, and then does
each job when its first tick comes, again and again as long as it fails and retries are
left. What it does is told in its log: events of reservations, alerts, failures. A worker
that cannot start says why.
-/
import Stockroom.Engine.Jobs
import Stockroom.Sql.Reservations
import Stockroom.Sql.Stock

namespace Stockroom

/-! ## Starting -/

/-- Why a worker cannot start. -/
inductive StartupError where
  /-- The settings cannot be read. -/
  | configuration (e : ConfigError)
  /-- A setting that the worker needs is missing. -/
  | missingSetting (e : ConfigError)
  /-- The server cannot be reached. -/
  | connection
  /-- The tables cannot be created. -/
  | schema (e : StoreError)
  deriving DecidableEq, Repr

namespace StartupError

/-- What the worker was doing. -/
def headline : StartupError → String
  | configuration _ => "loading configuration"
  | missingSetting e => e.message
  | connection => "connecting to postgres"
  | schema _ => "applying schema"

/-- What went wrong with it, where the headline does not say. -/
def cause? : StartupError → Option String
  | configuration e => some e.message
  | missingSetting _ => none
  | connection => none
  | schema e => some e.message

/-- The line that the worker leaves behind. -/
def line (e : StartupError) : String := "Error: " ++ e.headline

/-- A text each line of which is indented by four blanks. -/
def indented (s : String) : String :=
  "    " ++ String.ofList (s.toList.flatMap (fun c => if c = '\n' then "\n    ".toList else [c]))

/-- The lines of the cause, as they are shown below its heading. -/
def causeLines? (e : StartupError) : Option String := e.cause?.map indented

/-- The line, and below it the cause. -/
def text (e : StartupError) : String :=
  e.line ++ ((e.causeLines?.map ("\n\nCaused by:\n" ++ ·)).getD "")

end StartupError

/-! ## Lines of the log -/

namespace LogLine

/-- The line of an event. -/
def ofEvent (event : InventoryEvent) (trace : Option TraceId) : LogLine :=
  .saying .info "audit"
    ([("stream", .string event.stream), ("stream_key", .string event.streamKey)] ++
      (trace.map (fun t => ("trace_id", Json.string t.val))).toList ++
      [("payload", .string (JsonForm.toJson event).sorted.text)])

/-- The line of an alert. -/
def ofAlert (a : ReconciliationAlert) : LogLine :=
  .saying .error "inventory drift detected" (Job.mismatchFields a)

/-- A line about the runner of a job. -/
def ofRunner (level : LogLevel) (message : String) (job : Job) (fields : List (String × Json)) :
    LogLine := .saying level message (("runner", .string job.text) :: fields)

end LogLine

/-- The sink that logs every event. -/
def AuditSink.toLog : AuditSink (List LogLine) where
  publish event trace lines := lines ++ [LogLine.ofEvent event trace]

/-! ## Working -/

namespace Worker

/-- A step of the worker's engine. -/
abbrev WorkerM := EngineM Sql.Session (List LogLine)

/-- The engine of a worker: its stores are kept by the server, its events are logged. -/
def engine (c : Config) : Engine Sql.Session (List LogLine) :=
  ⟨Sql.Stock.store, Sql.Reservations.store, .toLog, .ofConfig c, .bounded⟩

/-- How far the runner of a job has come with its first wake-up. -/
structure Progress where
  job : Job
  failures : Nat
  /-- Whether an attempt has succeeded or the retries are used up. -/
  isOver : Bool
  deriving DecidableEq, Repr

/-- A runner that has not attempted its job. Without an interval it never will. -/
def Progress.start (c : Config) (job : Job) : Progress := ⟨job, 0, job.interval c == 0⟩

/-- The failure of an attempt. -/
def noteFailure (c : Config) (p : Progress) (e : StoreError) : WorkerM Progress := do
  let failures := p.failures + 1
  EngineM.count (.runnerFailures p.job.text) 1
  EngineM.log (.ofRunner .warn "run failed" p.job
    [("attempt", .integer failures), ("code", .string e.code), ("error", .string e.message)])
  if c.maxRetries < failures then do
    EngineM.log (.ofRunner .warn "retry budget exhausted; waiting for next tick" p.job [])
    pure { p with failures, isOver := true }
  else pure { p with failures }

/-- One attempt at a job whose wake-up is not over. -/
def advance (c : Config) (rounds : Nat) (now : Instant) (p : Progress) : WorkerM Progress := do
  if p.isOver then pure p
  else
    tryCatch
      (do
        p.job.runOnce (engine c) rounds now
        pure { p with isOver := true })
      (fun e =>
        match e with
        | .store e => noteFailure c p e
        | e => throw e)

/-- One attempt at each job whose wake-up is not over. -/
def advanceAll (c : Config) (rounds : Nat) (now : Instant) :
    List Progress → WorkerM (List Progress)
  | [] => pure []
  | p :: rest => do
    let p ← advance c rounds now p
    let ps ← advanceAll c rounds now rest
    pure (p :: ps)

/-- Everything that was logged so far. -/
def logged (s : EngineState Sql.Session (List LogLine)) : List LogLine :=
  s.log ++ s.audit ++ s.alerts.map .ofAlert

/-- When a worker is interrupted: by its log and by what it has asked of the server. -/
abbrev Interrupt := List LogLine → List Sql.Exchange → Bool

/-- Attempts the jobs until every wake-up is over or the worker is interrupted, at most so
many times. -/
def work (c : Config) (interrupt : Interrupt) (rounds : Nat) (now : Instant) :
    (attempts : Nat) → List Progress → WorkerM Unit
  | 0, _ => pure ()
  | attempts + 1, ps => do
    let ps ← advanceAll c rounds now ps
    let s ← get
    if ps.all (·.isOver) || interrupt (logged s) s.store.history then pure ()
    else work c interrupt rounds now attempts ps

/-- From the first runner to the last one's end. -/
def serve (c : Config) (interrupt : Interrupt) (rounds attempts : Nat) (now : Instant) :
    WorkerM Unit := do
  let runners := Job.all
  runners.forM fun job =>
    EngineM.log (.ofRunner .info "runner started" job [("interval_secs", .integer (job.interval c))])
  EngineM.log (.saying .info "worker started" [("runners", .integer runners.length)])
  work c interrupt rounds now attempts (runners.map (.start c))
  EngineM.log (.saying .info "shutting down" [])
  (runners.filter (fun job => job.interval c != 0)).forM fun job =>
    EngineM.log (.ofRunner .info "runner stopped" job [])

/-! ## From start to end -/

/-- What is left of a worker: why it could not start, or nothing, and its log. -/
structure Report where
  error : Option StartupError
  log : List LogLine

/-- The status that the worker exits with. -/
def Report.exitCode (r : Report) : Nat := if r.error.isSome then 1 else 0

/-- The line about where metrics are served. -/
def listening (c : Config) : List LogLine :=
  (c.metricsAddress.map (fun a =>
    LogLine.saying .info "metrics exporter listening" [("addr", .string a.text)])).toList

/-- Works with a server: applies the schema, and serves. -/
def runOn (server : Sql.Server) (c : Config) (interrupt : Interrupt) (rounds attempts : Nat)
    (now : Instant) : Report :=
  match Sql.migrate.run.run (.start server) with
  | (.error e, _) => ⟨some (.schema e), listening c⟩
  | (.ok (), session) =>
    let s := (((serve c interrupt rounds attempts now).run).run (.start session [])).2
    ⟨none, listening c ++ logged s⟩

/-- Runs a worker with the given variables; `connect` says what server an address leads to. -/
def run (lookup : Config.Lookup) (connect : String → Option Sql.Server) (interrupt : Interrupt)
    (rounds attempts : Nat) (now : Instant) : Report :=
  match Config.ofLookup lookup with
  | .error e => ⟨some (.configuration e), []⟩
  | .ok c =>
    match c.requireDatabaseUrl with
    | .error e => ⟨some (.missingSetting e), []⟩
    | .ok url =>
      match connect url with
      | none => ⟨some .connection, listening c⟩
      | some server => runOn server c interrupt rounds attempts now

end Worker

end Stockroom
