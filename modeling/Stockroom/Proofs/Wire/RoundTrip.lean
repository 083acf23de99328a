/-
Stockroom.Proofs.Wire.RoundTrip — what is written down is read back as it was.

* `RoundTrips a`: `a` is read back from its JSON form and from the text of that form, with the
  members as they were written or in the order of their names.
* `written_values_are_read_back` says so of all events and their envelopes, and of all that the
  stores, the allocator and the reports write; and that an envelope repeats what the event in its
  payload says of itself.
-/
import Stockroom.Proofs.Wire.Events
import Stockroom.Proofs.Wire.Reports

namespace Stockroom

open Wire

/-- Whether a value is read back from its JSON form and from the text of it, whether the members
stand as they were written or in the order of their names. -/
def RoundTrips {α : Type} [JsonForm α] (a : α) : Prop :=
  ∀ o : MemberOrder, ofJson? ((toJson a).inOrder o) = some a ∧
    (Json.scan? ((toJson a).inOrder o).text).bind ofJson? = some a

/-- What is nested no deeper than texts may be is read back from its text as well. -/
theorem Faithful.roundTrips {α : Type} [JsonForm α] [Ranged α] {depth : Nat} [Faithful α depth]
    (hdepth : depth ≤ Json.maxDepth) (a : α) (h : InRange a) : RoundTrips a := by
  intro o
  have hplain : ((toJson a).inOrder o).isPlain Json.maxDepth = true :=
    Json.isPlain_inOrder (isPlain_toJson h hdepth) o
  refine ⟨ofJson?_inOrder h, ?_⟩
  rw [Json.scan?_text hplain, Option.bind_some, ofJson?_inOrder h]

/-- Every value that is written down is read back as it was, whatever its texts, its times and its
numbers of 64 and 32 bits are. An envelope has the type, the version and the time of the event that
is decoded from its payload. -/
theorem written_values_are_read_back :
    ((∀ e : InventoryEvent, InRange e → RoundTrips e) ∧
      (∀ (v : Envelope) (e : InventoryEvent), IntegerRange.unsigned32.contains v.version = true →
        InRange e → v.Carries e → RoundTrips v) ∧
      (∀ m : Movement, InRange m → RoundTrips m) ∧
      (∀ e : LedgerEntry, InRange e → RoundTrips e) ∧
      (∀ b : Batch, InRange b → RoundTrips b) ∧
      (∀ r : Reservation, InRange r → RoundTrips r) ∧
      (∀ n : NewReservation, InRange n → RoundTrips n) ∧
      (∀ p : AllocationPlan, InRange p → RoundTrips p) ∧
      (∀ r : AllocationResult, InRange r → RoundTrips r) ∧
      (∀ r : ReconciliationReport, InRange r → RoundTrips r) ∧
      (∀ c : CommitCheck, InRange c → RoundTrips c) ∧
      (∀ d : LedgerDiagnostics, InRange d → RoundTrips d) ∧
      (∀ r : SweepReport, InRange r → RoundTrips r)) ∧
    ∀ (id : Uuid) (trace : Option TraceId) (e : InventoryEvent), InRange e →
      ∃ d : InventoryEvent, ofJson? (Envelope.ofEvent id trace e).payload = some d ∧
        (Envelope.ofEvent id trace e).eventType = d.eventType ∧
        (Envelope.ofEvent id trace e).version = d.version ∧
        (Envelope.ofEvent id trace e).occurredAt = d.occurredAt := by
  have henvelope : ∀ (v : Envelope) (e : InventoryEvent),
      IntegerRange.unsigned32.contains v.version = true → InRange e → v.Carries e →
      RoundTrips v := fun v e hversion he hcarries =>
    Faithful.roundTrips (by decide) v ⟨hversion, e, he, hcarries⟩
  refine ⟨⟨?_, henvelope, ?_, ?_, ?_, ?_, ?_, ?_, ?_, ?_, ?_, ?_, ?_⟩, fun id trace e he => ?_⟩
  case refine_13 =>
    have hcarries : (Envelope.ofEvent id trace e).Carries e := rfl
    exact ⟨e, hcarries.ofJson?_payload he, rfl, rfl, rfl⟩
  all_goals exact Faithful.roundTrips (by decide)

namespace Sample

/-- The leap second at the end of the last representable day. -/
def lastInstant : Instant :=
  ⟨Calendar.lastSecond, 1999999999, by decide, by decide, by decide⟩

/-- The first representable day. -/
def firstDate : Date := ⟨-96465292, by decide, by decide⟩

def extremeKey : StockKey := ⟨⟨-9223372036854775808⟩, ⟨9223372036854775807⟩, ⟨""⟩⟩

def extremeEvent : InventoryEvent :=
  .movementApplied 9223372036854775807 extremeKey (-9223372036854775808) (-1) .goodsReturn
    "\"quoted\"\n\x00" (-2147483648) lastInstant

def extremeEnvelope : Envelope :=
  { Envelope.ofEvent ⟨1⟩ (some ⟨""⟩) extremeEvent with version := 4294967295 }

def extremeMovement : Movement :=
  ⟨extremeKey, -9223372036854775808, .count, "", 2147483647, lastInstant, none, some firstDate,
    none, true⟩

def extremeEntry : LedgerEntry :=
  ⟨-1, extremeKey, 9223372036854775807, .pick, "", -2147483648, -9223372036854775808, lastInstant,
    ⟨""⟩⟩

def extremeBatch : Batch := ⟨0, ⟨-1⟩, ⟨-1⟩, "ü", none, some firstDate, lastInstant⟩

def extremeReservationKey : ReservationKey := ⟨"", "", ⟨-9223372036854775808⟩, ""⟩

def extremeReservation : Reservation :=
  ⟨⟨0⟩, extremeReservationKey, .cancelled, ⟨""⟩, [⟨-2147483648, ⟨0⟩, 9223372036854775807, -1⟩],
    lastInstant, lastInstant, lastInstant⟩

def extremeRequest : NewReservation :=
  ⟨extremeReservationKey, [⟨2147483647, ⟨0⟩, -9223372036854775808⟩], lastInstant, none⟩

def extremePlan : AllocationPlan :=
  ⟨⟨1⟩, ⟨2⟩, -9223372036854775808, [⟨extremeKey, -1, some firstDate⟩], .fallback ⟨"A"⟩ ⟨"B"⟩⟩

def extremeResult : AllocationResult := ⟨extremePlan, [extremeEntry], true⟩

def extremeReport : ReconciliationReport :=
  ⟨lastInstant, 18446744073709551615, 0, [⟨.ledgerVsStock, extremeKey, -1, 0, -1⟩], [], []⟩

def extremeCheck : CommitCheck :=
  ⟨"", 18446744073709551615, [.missingLedger extremeKey (-2147483648),
    .deltaMismatch extremeKey 0 (-1) 1, .stockDrift extremeKey 0 9223372036854775807]⟩

/-- One reference has the name that elsewhere marks a value given as text. -/
def extremeDiagnostics : LedgerDiagnostics :=
  ⟨lastInstant, lastInstant, .ofList [(.goodsReturn, ⟨18446744073709551615, -1⟩)],
    .ofList [(Json.embeddedName, ⟨1, -9223372036854775808⟩)], .empty⟩

def extremeSweep : SweepReport := ⟨18446744073709551615, [⟨0⟩], 0, [⟨⟨1⟩, "\t"⟩]⟩

end Sample

open Sample in
/-- Numbers at the ends of their ranges, empty identifiers, a leap second and a name that is
reserved elsewhere are read back. -/
theorem extreme_values_are_read_back :
    ((InRange extremeEvent ∧ RoundTrips extremeEvent) ∧
      ((IntegerRange.unsigned32.contains extremeEnvelope.version = true ∧
        extremeEnvelope.Carries extremeEvent) ∧ RoundTrips extremeEnvelope) ∧
      (InRange extremeMovement ∧ RoundTrips extremeMovement) ∧
      (InRange extremeEntry ∧ RoundTrips extremeEntry) ∧
      (InRange extremeBatch ∧ RoundTrips extremeBatch) ∧
      (InRange extremeReservation ∧ RoundTrips extremeReservation) ∧
      (InRange extremeRequest ∧ RoundTrips extremeRequest) ∧
      (InRange extremePlan ∧ RoundTrips extremePlan) ∧
      (InRange extremeResult ∧ RoundTrips extremeResult) ∧
      (InRange extremeReport ∧ RoundTrips extremeReport) ∧
      (InRange extremeCheck ∧ RoundTrips extremeCheck) ∧
      (InRange extremeDiagnostics ∧ RoundTrips extremeDiagnostics) ∧
      (InRange extremeSweep ∧ RoundTrips extremeSweep)) ∧
    ∃ d : InventoryEvent,
      ofJson? (Envelope.ofEvent ⟨1⟩ none extremeEvent).payload = some d ∧
        (Envelope.ofEvent ⟨1⟩ none extremeEvent).eventType = d.eventType ∧
        (Envelope.ofEvent ⟨1⟩ none extremeEvent).version = d.version ∧
        (Envelope.ofEvent ⟨1⟩ none extremeEvent).occurredAt = d.occurredAt := by
  obtain ⟨⟨hevent, henvelope, hmovement, hentry, hbatch, hreservation, hrequest, hplan, hresult,
    hreport, hcheck, hdiagnostics, hsweep⟩, hdecoded⟩ := written_values_are_read_back
  have key : InRange extremeKey := ⟨rfl, rfl⟩
  have event : InRange extremeEvent := ⟨rfl, key, rfl, rfl, rfl⟩
  have movement : InRange extremeMovement := ⟨key, rfl, rfl⟩
  have entry : InRange extremeEntry := ⟨rfl, key, rfl, rfl, rfl⟩
  have batch : InRange extremeBatch := ⟨rfl, rfl, rfl⟩
  have reservation : InRange extremeReservation :=
    ⟨rfl, List.forall_mem_singleton.mpr ⟨rfl, rfl, rfl, rfl⟩⟩
  have request : InRange extremeRequest := ⟨rfl, List.forall_mem_singleton.mpr ⟨rfl, rfl, rfl⟩⟩
  have plan : InRange extremePlan := ⟨rfl, rfl, rfl, List.forall_mem_singleton.mpr ⟨key, rfl⟩⟩
  have result : InRange extremeResult := ⟨plan, List.forall_mem_singleton.mpr entry⟩
  have report : InRange extremeReport :=
    ⟨rfl, rfl, List.forall_mem_singleton.mpr ⟨key, rfl, rfl, rfl⟩, List.forall_mem_nil _,
      List.forall_mem_nil _⟩
  have check : InRange extremeCheck :=
    ⟨rfl, List.forall_mem_cons.mpr ⟨⟨key, rfl⟩, List.forall_mem_cons.mpr
      ⟨⟨key, rfl, rfl, rfl⟩, List.forall_mem_singleton.mpr ⟨key, rfl, rfl⟩⟩⟩⟩
  have diagnostics : InRange extremeDiagnostics :=
    ⟨List.forall_mem_singleton.mpr ⟨rfl, rfl⟩, List.forall_mem_singleton.mpr ⟨rfl, rfl⟩,
      List.forall_mem_nil _⟩
  exact ⟨⟨⟨event, hevent _ event⟩, ⟨⟨rfl, rfl⟩, henvelope _ _ rfl event rfl⟩,
    ⟨movement, hmovement _ movement⟩, ⟨entry, hentry _ entry⟩, ⟨batch, hbatch _ batch⟩,
    ⟨reservation, hreservation _ reservation⟩, ⟨request, hrequest _ request⟩,
    ⟨plan, hplan _ plan⟩, ⟨result, hresult _ result⟩, ⟨report, hreport _ report⟩,
    ⟨check, hcheck _ check⟩, ⟨diagnostics, hdiagnostics _ diagnostics⟩,
    ⟨⟨rfl, rfl⟩, hsweep _ ⟨rfl, rfl⟩⟩⟩, hdecoded _ _ _ event⟩

end Stockroom
