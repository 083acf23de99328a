/-
Stockroom.Engine.Metrics — counters and gauges.
-/
import Stockroom.Data.OrderedMap
import Stockroom.Stock.Reconciliation
import Stockroom.Stock.Fefo

namespace Stockroom

/-- How the values of a metric develop: added up, or replaced. -/
inductive MetricKind where
  | counter | gauge
  deriving DecidableEq, Repr

/-- The written name. -/
def MetricKind.text : MetricKind → String
  | counter => "counter"
  | gauge => "gauge"

/-- What is measured. -/
inductive MetricFamily where
  | allocations | movements | expiredReservations | mismatches | runnerFailures
  | commitCheckFailures
  deriving DecidableEq, Repr

namespace MetricFamily

/-- Every family. -/
def all : List MetricFamily :=
  [allocations, movements, expiredReservations, mismatches, runnerFailures, commitCheckFailures]

/-- The name under which a family is exported. -/
def text : MetricFamily → String
  | allocations => "inventory_fefo_allocations_total"
  | movements => "inventory_movements_applied_total"
  | expiredReservations => "inventory_reservations_expired_total"
  | mismatches => "inventory_reconciliation_mismatches"
  | runnerFailures => "inventory_runner_failures_total"
  | commitCheckFailures => "inventory_commit_check_failures_total"

/-- How the values of a family develop. -/
def kind : MetricFamily → MetricKind
  | mismatches => .gauge
  | _ => .counter

/-- What a family measures, in words. -/
def description : MetricFamily → String
  | allocations => "Allocations split by whether they followed strict FEFO order"
  | movements => "Ledger movements applied"
  | expiredReservations => "Reservations expired by the TTL sweep"
  | mismatches => "Mismatching keys found by the last reconciliation"
  | runnerFailures => "Failed background runner attempts"
  | commitCheckFailures => "Committed writes whose touched keys did not check out"

end MetricFamily

/-- One measured value: a family, and a label where it is split. -/
inductive Metric where
  | allocations (o : FefoOutcome)
  | movements (r : Reason)
  | expiredReservations
  | mismatches (k : MismatchKind)
  | runnerFailures (runner : String)
  | commitCheckFailures (operation : String)

namespace Metric

/-- The family of a value. -/
def family : Metric → MetricFamily
  | allocations _ => .allocations
  | movements _ => .movements
  | expiredReservations => .expiredReservations
  | mismatches _ => .mismatches
  | runnerFailures _ => .runnerFailures
  | commitCheckFailures _ => .commitCheckFailures

/-- The label of a value, as name and value. -/
def label? : Metric → Option (String × String)
  | allocations o => some ("outcome", o.text)
  | movements r => some ("reason", r.text)
  | expiredReservations => none
  | mismatches k => some ("kind", k.text)
  | runnerFailures runner => some ("runner", runner)
  | commitCheckFailures operation => some ("operation", operation)

/-- The name of a value, with its label in braces. -/
def text (m : Metric) : String :=
  match m.label? with
  | none => m.family.text
  | some (name, value) => m.family.text ++ "\x7b" ++ name ++ "=" ++ value ++ "\x7d"

end Metric

/-- The values of the metrics that were touched. -/
abbrev Metrics := OrderedMap String Nat

namespace Metrics

/-- Adds to a counter. -/
def add (ms : Metrics) (m : Metric) (n : Nat) : Metrics :=
  ms.alter m.text (fun present => some (present.getD 0 + n))

/-- Sets a gauge. -/
def put (ms : Metrics) (m : Metric) (n : Nat) : Metrics := OrderedMap.insert ms m.text n

/-- Sets the gauges of a report. -/
def ofReport (ms : Metrics) (r : ReconciliationReport) : Metrics :=
  ((ms.put (.mismatches .ledgerVsStock) r.ledgerVsStock.length).put
    (.mismatches .ledgerVsSnapshot) r.ledgerVsSnapshot.length).put
      (.mismatches .stockVsSnapshot) r.stockVsSnapshot.length

end Metrics

end Stockroom
