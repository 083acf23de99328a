/-
Stockroom.Engine.Config — settings from environment variables.

Each variable is read in a fixed order, and the first one that cannot be read is the
error; that batch size and pool size are not zero is checked last. A blank database URL or
metrics address counts as missing, any other blank value is malformed.
-/
import Stockroom.Engine.Address
import Stockroom.Text.Blank

namespace Stockroom

/-! ## Errors -/

/-- Why settings cannot be used. -/
inductive ConfigError where
  /-- A variable that is needed is missing. -/
  | missing (name : String)
  /-- The value of a variable is malformed. -/
  | invalid (name value reason : String)
  /-- A span of time is longer than times can be apart. -/
  | spanOutOfRange
  deriving DecidableEq, Repr

namespace ConfigError

/-- The stable name of the kind. -/
def code : ConfigError → String
  | missing _ => "config_missing"
  | invalid _ _ _ => "config_invalid"
  | spanOutOfRange => "config_span"

/-- The wording. -/
def message : ConfigError → String
  | missing name => s!"missing required environment variable {name}"
  | invalid name value reason => s!"invalid value for {name}: '{value}' ({reason})"
  | spanOutOfRange => "span of time out of range"

end ConfigError

/-! ## Settings -/

/-- Everything that can be set. Intervals are in seconds, the other spans in milliseconds. -/
structure Config where
  databaseUrl : Option String := none
  maxConnections : Nat := 10
  /-- Where metrics are served; nowhere if unset. -/
  metricsAddress : Option SocketAddress := none
  sweepInterval : Nat := 60
  sweepBatchSize : Nat := 200
  guardInterval : Nat := 300
  snapshotInterval : Nat := 3600
  reservationTtl : Int := 30 * 60000
  ageingWindow : Int := 30
  /-- Whether the keys that a write touches are read again after it. -/
  verifyCommits : Bool := true
  maxRetries : Nat := 5
  baseBackoff : Nat := 250
  deriving DecidableEq, Repr

namespace Config

/-- A source of variables. -/
abbrev Lookup := String → Option String

/-- The names of the variables. -/
def variableNames : List String :=
  ["DATABASE_URL", "STOCKLEDGER_DB_MAX_CONNECTIONS", "STOCKLEDGER_METRICS_ADDR",
   "STOCKLEDGER_SWEEP_INTERVAL_SECS", "STOCKLEDGER_SWEEP_BATCH_SIZE",
   "STOCKLEDGER_GUARD_INTERVAL_SECS", "STOCKLEDGER_SNAPSHOT_INTERVAL_SECS",
   "STOCKLEDGER_RESERVATION_TTL_MINS", "STOCKLEDGER_AGEING_WINDOW_DAYS",
   "STOCKLEDGER_VERIFY_COMMITS", "STOCKLEDGER_RUNNER_MAX_RETRIES",
   "STOCKLEDGER_RUNNER_BASE_BACKOFF_MS"]

/-- The value of a variable, unless it is blank. -/
def nonBlank (lookup : Lookup) (name : String) : Option String :=
  (lookup name).filter (fun v => !Text.isBlankText v)

/-- Reads the value of a variable without the blanks around it. -/
def readValue {α : Type} (read : String → Except String α) (name raw : String) :
    Except ConfigError α :=
  match read (Text.trim raw) with
  | .ok a => .ok a
  | .error reason => .error (.invalid name raw reason)

/-- The value of a variable, or `default` if it is not set. -/
def valueOr {α : Type} (lookup : Lookup) (read : String → Except String α) (name : String)
    (default : α) : Except ConfigError α :=
  match lookup name with
  | none => .ok default
  | some raw => readValue read name raw

/-- Reads an integer of a range. -/
def integer (r : IntegerRange) (s : String) : Except String Int :=
  (Text.readInteger r s).mapError Text.IntegerFault.message

/-- Reads a count. -/
def count (r : IntegerRange) (s : String) : Except String Nat := (integer r s).map Int.toNat

/-- Reads a truth value. -/
def truth (s : String) : Except String Bool :=
  if s = "true" then .ok true
  else if s = "false" then .ok false
  else .error "provided string was not \x60true\x60 or \x60false\x60"

/-- Reads a network address. -/
def address (s : String) : Except String SocketAddress :=
  match SocketAddress.read? s with
  | some a => .ok a
  | none => .error "invalid socket address syntax"

/-- The longest span of time, in minutes. -/
def longestSpan : Int := 153722867280912

/-- A span of minutes in milliseconds. -/
def minutes (n : Int) : Except ConfigError Int :=
  if -longestSpan ≤ n ∧ n ≤ longestSpan then .ok (n * 60000) else .error .spanOutOfRange

/-- Refuses a batch size and a pool size of zero. -/
def checked (c : Config) : Except ConfigError Config :=
  if c.sweepBatchSize = 0 then
    .error (.invalid "STOCKLEDGER_SWEEP_BATCH_SIZE" "0" "must be at least 1")
  else if c.maxConnections = 0 then
    .error (.invalid "STOCKLEDGER_DB_MAX_CONNECTIONS" "0" "must be at least 1")
  else .ok c

/-- Reads the settings from a source of variables. -/
def ofLookup (lookup : Lookup) : Except ConfigError Config := do
  let d : Config := {}
  let maxConnections ←
    valueOr lookup (count .unsigned32) "STOCKLEDGER_DB_MAX_CONNECTIONS" d.maxConnections
  let metricsAddress ←
    match nonBlank lookup "STOCKLEDGER_METRICS_ADDR" with
    | none => pure none
    | some raw => (readValue address "STOCKLEDGER_METRICS_ADDR" raw).map some
  let sweepInterval ←
    valueOr lookup (count .unsigned64) "STOCKLEDGER_SWEEP_INTERVAL_SECS" d.sweepInterval
  let sweepBatchSize ←
    valueOr lookup (count .unsigned64) "STOCKLEDGER_SWEEP_BATCH_SIZE" d.sweepBatchSize
  let guardInterval ←
    valueOr lookup (count .unsigned64) "STOCKLEDGER_GUARD_INTERVAL_SECS" d.guardInterval
  let snapshotInterval ←
    valueOr lookup (count .unsigned64) "STOCKLEDGER_SNAPSHOT_INTERVAL_SECS" d.snapshotInterval
  let ttl ← valueOr lookup (integer .signed64) "STOCKLEDGER_RESERVATION_TTL_MINS" 30
  let reservationTtl ← minutes ttl
  let ageingWindow ←
    valueOr lookup (integer .signed64) "STOCKLEDGER_AGEING_WINDOW_DAYS" d.ageingWindow
  let verifyCommits ← valueOr lookup truth "STOCKLEDGER_VERIFY_COMMITS" d.verifyCommits
  let maxRetries ←
    valueOr lookup (count .unsigned32) "STOCKLEDGER_RUNNER_MAX_RETRIES" d.maxRetries
  let baseBackoff ←
    valueOr lookup (count .unsigned64) "STOCKLEDGER_RUNNER_BASE_BACKOFF_MS" d.baseBackoff
  checked
    { databaseUrl := nonBlank lookup "DATABASE_URL"
      maxConnections, metricsAddress, sweepInterval, sweepBatchSize, guardInterval,
      snapshotInterval, reservationTtl, ageingWindow, verifyCommits, maxRetries, baseBackoff }

/-- The database URL, which must be set. -/
def requireDatabaseUrl (c : Config) : Except ConfigError String :=
  match c.databaseUrl with
  | some url => .ok url
  | none => .error (.missing "DATABASE_URL")

end Config

end Stockroom
