/-
Stockroom.Proofs.Audit.StreamKeys — the key of an event tells what it is about.

A key is made of free text: the batch code at the end of a slot's key may hold slashes and colons,
and whole pieces of another key. It is no matter, since the two numbers before it hold none, and
so everything before the code is found from the left (`StockKey.text_injective`).

`InventoryEvent.subject` is what an event is about. Keys of slots begin with a letter that no key
of a reservation has, so that even events of different streams never share a key
(`Subject.text_injective`).
-/
import Stockroom.Audit.Event
import Stockroom.Proofs.Identity
import Stockroom.Proofs.Text

namespace Stockroom

/-! ## Keys of slots -/

namespace StockKey

theorem toList_text (k : StockKey) : k.text.toList =
    "wh:".toList ++ ((toString k.warehouse.val).toList ++ '/' :: ("item:".toList ++
      ((toString k.item.val).toList ++ '/' :: ("batch:".toList ++ k.batch.key.toList)))) := by
  simp [text, toString]

/-- The parts of a slot's key are found again, whatever the batch code is. -/
theorem text_injective : Function.Injective text := by
  have hslash (n : Int) : '/' ∉ (toString n).toList := fun h => by
    rcases Text.eq_or_isDigit_of_mem_toString h with h | h <;> exact absurd h (by decide)
  intro k l h
  have hchars := congrArg String.toList h
  rw [toList_text, toList_text] at hchars
  obtain ⟨hwarehouse, hchars⟩ :=
    Text.eq_of_append_cons (hslash _) (hslash _) (List.append_cancel_left hchars)
  obtain ⟨hitem, hchars⟩ :=
    Text.eq_of_append_cons (hslash _) (hslash _) (List.append_cancel_left hchars)
  have hbatch := List.append_cancel_left hchars
  have hnumber {m n : Int} (h : (toString m).toList = (toString n).toList) : m = n :=
    Text.toString_injective (String.toList_inj.mp h)
  exact StockKey.ext (WarehouseId.ext (hnumber hwarehouse)) (ItemId.ext (hnumber hitem))
    (BatchKey.ext (String.toList_inj.mp hbatch))

end StockKey

/-! ## What events are about -/

/-- What an event can be about: the slot that a movement has changed, or a reservation. -/
inductive Subject where
  | slot (key : StockKey)
  | reservation (id : Uuid)
  deriving DecidableEq

namespace Subject

/-- The written form. -/
def text : Subject → String
  | slot key => key.text
  | reservation id => id.text

/-- No slot is written like a reservation. -/
theorem text_slot_ne (key : StockKey) (id : Uuid) : key.text ≠ id.text := by
  intro h
  have hw : 'w' ∈ id.text.toList := by
    rw [← h, key.toList_text]
    exact List.mem_append_left _ (by decide)
  rcases Uuid.mem_text hw with hw | ⟨d, hd, hw⟩
  · exact absurd hw (by decide)
  · have hnone : ∀ d < 16, 'w' ≠ Uuid.hexDigit d := by decide
    exact hnone d hd hw

theorem text_injective : Function.Injective text := by
  intro a b h
  cases a with
  | slot key =>
    cases b with
    | slot key' => rw [StockKey.text_injective h]
    | reservation id => exact absurd h (text_slot_ne key id)
  | reservation id =>
    cases b with
    | slot key => exact absurd h.symm (text_slot_ne key id)
    | reservation id' => rw [Uuid.text_injective h]

end Subject

namespace InventoryEvent

/-- What an event is about. -/
def subject : InventoryEvent → Subject
  | movementApplied _ key _ _ _ _ _ _ => .slot key
  | reservationCreated id _ _ _ => .reservation id
  | reservationConsumed id _ _ => .reservation id
  | reservationCancelled id _ _ => .reservation id
  | reservationExpired id _ _ => .reservation id

theorem streamKey_eq (e : InventoryEvent) : e.streamKey = e.subject.text := by cases e <;> rfl

/-- The ledger's stream holds the events about slots, and the other one those about reservations. -/
theorem stream_eq (e : InventoryEvent) : e.stream =
    match e.subject with
    | .slot _ => "stock_ledger"
    | .reservation _ => "reservations" := by cases e <;> rfl

end InventoryEvent

/-! ## Keys of streams -/

/-- Two events have the same key exactly if they are about the same slot, whatever characters its
batch code has, or about the same reservation. The events about slots are those of the ledger's
stream, and the events about reservations those of the other one. So who receives events in
envelopes, and takes them apart by stream and key, takes them apart by what they are about. -/
theorem stream_keys_never_alias (a b : InventoryEvent) :
    (a.streamKey = b.streamKey ↔ a.subject = b.subject) ∧
    (a.stream = "stock_ledger" ↔ ∃ key, a.subject = .slot key) ∧
    (a.stream = "reservations" ↔ ∃ id, a.subject = .reservation id) ∧
    ∀ (i j : Uuid) (t u : Option TraceId),
      let v := Envelope.ofEvent i t a
      let w := Envelope.ofEvent j u b
      v.stream = w.stream ∧ v.streamKey = w.streamKey ↔ a.subject = b.subject := by
  have hkey : a.streamKey = b.streamKey ↔ a.subject = b.subject := by
    rw [a.streamKey_eq, b.streamKey_eq, Subject.text_injective.eq_iff]
  refine ⟨hkey, ?_, ?_, fun i j t u => ?_⟩
  · rw [a.stream_eq]
    cases a.subject <;> simp
  · rw [a.stream_eq]
    cases a.subject <;> simp
  · show a.stream = b.stream ∧ a.streamKey = b.streamKey ↔ a.subject = b.subject
    rw [hkey, a.stream_eq, b.stream_eq]
    exact ⟨And.right, fun h => ⟨by rw [h], h⟩⟩

/-- A batch code that looks like more of the key. -/
example : StockKey.text ⟨⟨1⟩, ⟨2⟩, ⟨"A/item:3/batch:B"⟩⟩ = "wh:1/item:2/batch:A/item:3/batch:B" := by
  decide

end Stockroom
