import Stockroom.Engine.Faults
import Stockroom.Engine.Memory
import Stockroom.Engine.Runner
import Stockroom.Engine.Worker
import Stockroom.Main
import Stockroom.Proofs.Stock.Repetition
import Stockroom.Wire.Engine
import Stockroom.Wire.Request
import Stockroom.Wire.Sql
import Stockroom.Proofs.Reservation.History
import Stockroom.Proofs.Reservation.Due
import Stockroom.Proofs.Reservation.Release
import Stockroom.Proofs.Refusal
import Stockroom.Proofs.Stock.Overselling
import Stockroom.Proofs.Engine.Step
import Stockroom.Proofs.Engine.Sweep
import Stockroom.Proofs.Sql.Locks
import Stockroom.Proofs.Sql.Discipline
import Stockroom.Proofs.Sql.Guards
import Stockroom.Proofs.Sql.Mirror
import Stockroom.Proofs.Sql.Movements
import Stockroom.Proofs.Stock.Independence
import Stockroom.Proofs.Sql.Allocations
import Stockroom.Proofs.Reservation.Lifecycle
import Stockroom.Proofs.Sql.Reservations
import Stockroom.Proofs.Sql.Collisions
import Stockroom.Proofs.Stock.Comparison
import Stockroom.Proofs.Engine.Healing
import Stockroom.Proofs.Engine.Rebuild
import Stockroom.Proofs.Stock.Account
import Stockroom.Proofs.Audit.Hearing
import Stockroom.Proofs.Engine.Calls
import Stockroom.Proofs.Engine.History
import Stockroom.Proofs.Engine.LedgerAudit
import Stockroom.Proofs.Identity
import Stockroom.Proofs.Engine.ReservationAudit
import Stockroom.Proofs.Engine.Release
import Stockroom.Proofs.Engine.Observers
import Stockroom.Proofs.Engine.CommitCheck
import Stockroom.Proofs.Sql.Storage
import Stockroom.Proofs.Audit.Delivery
import Stockroom.Proofs.Engine.Settings
import Stockroom.Proofs.Engine.Runner
import Stockroom.Proofs.Wire.RoundTrip
import Stockroom.Proofs.Stock.Batches
import Stockroom.Proofs.Stock.Representation
import Stockroom.Proofs.Stock.Shortage
import Stockroom.Proofs.Stock.Arithmetic
import Stockroom.Proofs.Stock.Bounded
import Stockroom.Proofs.Stock.Range
import Stockroom.Proofs.Engine.Bounded
import Stockroom.Proofs.Reservation.Merging
import Stockroom.Proofs.Stock.PriorLegs
import Stockroom.Proofs.Stock.Totals
import Stockroom.Proofs.Engine.Snapshots
import Stockroom.Proofs.Engine.Diagnostics
import Stockroom.Proofs.Engine.Insights
import Stockroom.Proofs.Stock.Mismatches
import Stockroom.Proofs.Stock.Ageing
import Stockroom.Proofs.Audit.StreamKeys
import Stockroom.Proofs.Stock.BatchCodes
