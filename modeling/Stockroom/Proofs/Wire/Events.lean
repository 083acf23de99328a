/-
Stockroom.Proofs.Wire.Events — events and their envelopes are read back.

* An event may be read from its members in the order of their names, as they stand in the payload
  of an envelope (`InventoryEvent.ofJson?_sorted`).
* No member of an event has the name that marks a value given as text, so the payload is kept as it
  is when an envelope is read (`payload?_sorted`). An envelope is in range if its payload is that of
  an event in range.
-/
import Stockroom.Audit.Event
import Stockroom.Proofs.Wire.Stock

namespace Stockroom

open Wire

/-! ## Events -/

@[simp] theorem reasonInTagged?_toJson (r : Reason) (o : MemberOrder) :
    reasonInTagged? ((toJson r).inOrder o) = some r := by
  show reasonInTagged? ((Json.string r.text).inOrder o) = some r
  rw [Json.inOrder_string]
  exact Reason.ofText?_text r

/-- The numbers of an event. -/
instance : Ranged InventoryEvent where
  InRange
    | .movementApplied ledgerId key delta after _ _ line _ =>
      IntegerRange.signed64.contains ledgerId = true ∧ InRange key ∧
        IntegerRange.signed64.contains delta = true ∧
        IntegerRange.signed64.contains after = true ∧ IntegerRange.signed32.contains line = true
    | _ => True

/-- The end of a reservation is read back from what follows its name. -/
theorem closedForm?_of_holds {make : Uuid → String → Instant → InventoryEvent} {id : Uuid}
    {reference : String} {t : Instant} {o : MemberOrder} {j : Json}
    (hj : Holds j ([("reservation_id", toJson id), ("reference", .string reference),
      ("occurred_at", toJson t)].map (fun m => (m.1, m.2.inOrder o)))) :
    closedForm? make j = some (make id reference t) :=
  record?_bind hj fun _ _ => by simp [*]

instance : Faithful InventoryEvent 2 where
  readsBack e h := by
    cases e with
    | movementApplied ledgerId key delta after reason reference line t =>
      obtain ⟨hid, hkey, hdelta, hafter, hline⟩ := h
      refine .ofTagged rfl (fun _ => rfl) (by simp) (by simp [*]) fun _ _ hj => ?_
      exact record?_bind hj fun _ _ => by simp [*]
    | reservationCreated id reference expireAt t =>
      refine .ofTagged rfl (fun _ => rfl) (by simp) (by simp) fun _ _ hj => ?_
      exact record?_bind hj fun _ _ => by simp [*]
    | reservationConsumed id reference t =>
      exact .ofTagged rfl (fun _ => rfl) (by simp) (by simp) fun _ _ hj => closedForm?_of_holds hj
    | reservationCancelled id reference t =>
      exact .ofTagged rfl (fun _ => rfl) (by simp) (by simp) fun _ _ hj => closedForm?_of_holds hj
    | reservationExpired id reference t =>
      exact .ofTagged rfl (fun _ => rfl) (by simp) (by simp) fun _ _ hj => closedForm?_of_holds hj

/-- No member of an event marks a value given as text. -/
theorem InventoryEvent.isUnmarked_toJson (e : InventoryEvent) : (toJson e).isUnmarked = true := by
  cases e <;> rfl

/-! ## Envelopes -/

/-- What is not marked as a text is a payload with its members in order. -/
theorem payload?_sorted {j : Json} {d : Nat} (hunmarked : j.isUnmarked = true)
    (hplain : j.isPlain d = true) (o : MemberOrder) :
    payload? (j.sorted.inOrder o) = some j.sorted := by
  have hsorted : j.sorted.inOrder o = j.sorted := by
    cases o with
    | asWritten => rfl
    | byName => exact Json.sorted_sorted j
  have hresolved : j.sorted.resolve = j.sorted :=
    Json.resolveWith_of_isUnmarked _ _ (Json.isUnmarked_sorted j hunmarked)
  have hreadable : j.sorted.isReadable = true :=
    Json.isReadable_of_isPlain _ (Json.isPlain_sorted j hplain)
  simp [payload?, hsorted, hresolved, hreadable]

/-- Whether the payload of an envelope is the JSON form of an event. -/
def Envelope.Carries (v : Envelope) (e : InventoryEvent) : Prop := v.payload = (toJson e).sorted

/-- An envelope is in range if its version is and if it carries an event in range. -/
instance : Ranged Envelope :=
  ⟨fun v => IntegerRange.unsigned32.contains v.version = true ∧
    ∃ e : InventoryEvent, InRange e ∧ v.Carries e⟩

theorem isPlain_version {n : Nat} {d : Nat} (h : IntegerRange.unsigned32.contains n = true) :
    (ofCount n).isPlain d = true := by
  refine isPlain_ofCount ?_
  simp only [IntegerRange.contains_iff, IntegerRange.unsigned32, IntegerRange.unsigned64] at h ⊢
  omega

instance : Faithful Envelope 3 where
  readsBack v h := by
    obtain ⟨hversion, e, he, hpayload⟩ := h
    have hplain := isPlain_version (d := 2) hversion
    have hevent : v.payload.isPlain 2 = true :=
      hpayload ▸ Json.isPlain_sorted _ (Faithful.readsBack e he).1
    refine .ofRecord rfl (fun _ => rfl) (by simp [Envelope.members])
      (by simp [Envelope.members, *]) fun o _ hms => ?_
    have hread : payload? (v.payload.inOrder o) = some v.payload :=
      hpayload ▸ payload?_sorted e.isUnmarked_toJson (Faithful.readsBack e he).1 o
    have hcount : count32? (ofCount v.version) = some v.version := by
      simp [count32?, ofCount, integerIn?, hversion]
    simp [Envelope.members, *]

/-- An event is decoded from the payload of its envelope. -/
theorem Envelope.Carries.ofJson?_payload {v : Envelope} {e : InventoryEvent} (h : v.Carries e)
    (he : InRange e) : ofJson? v.payload = some e := by
  rw [h]
  exact ofJson?_inOrder (o := .byName) he

end Stockroom
