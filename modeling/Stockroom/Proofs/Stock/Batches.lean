/-
Stockroom.Proofs.Stock.Batches — what becomes of batches.

* `BatchesAfter` lists what an action can do to the batches: it leaves them alone, creates one,
  or corrects the expiry date of one (`StockAction.batchesAfter`).
* `Registered` says how the batches of a state are kept: each under its own identity, numbered
  from one on, and with dates in order. `Endured` says how they go on from a state to a later
  one: none is lost, and only expiry dates change. Every single change keeps both.
* `batches_endure` puts this together for whole runs, with the corrections that alone change an
  expiry date.
* `undated_iff_cleared`: a batch is stored with a date, but a correction may take away the only
  date that it has. The theorem says exactly when a batch is left without any.
-/
import Mathlib.Data.List.Induction
import Stockroom.Proofs.Stock.Ending

namespace Stockroom

open StoreM MemoryStock

/-! ## Dates -/

/-- Dates pass the check exactly if the expiry date is not before the production date. -/
theorem checkDates_eq_ok_iff {production expiry : Option Date} :
    checkDates production expiry = .ok () ↔
      ∀ p e, production = some p → expiry = some e → p ≤ e := by
  unfold checkDates
  cases production with
  | none => simp
  | some p =>
    cases expiry with
    | none => simp
    | some e =>
      dsimp only
      split
      · next h =>
        refine iff_of_false nofun fun hle => ?_
        exact absurd (hle p e rfl rfl) (Int.not_le.mpr h)
      · next h =>
        refine iff_of_true rfl ?_
        rintro _ _ ⟨⟩ ⟨⟩
        exact Int.not_lt.mp h

/-- The dates of a new batch are those given, and the day itself as the production date where
none was given. -/
theorem inboundDates_eq_ok_iff {production expiry p e : Option Date} {on : Date} :
    inboundDates production expiry on = .ok (p, e) ↔
      p = (if production.isNone && expiry.isNone then some on else production) ∧ e = expiry ∧
        checkDates p e = .ok () := by
  simp only [inboundDates, bind_eq_ok_iff, pure, Except.pure, Except.ok.injEq, Prod.mk.injEq]
  constructor
  · rintro ⟨_, hcheck, rfl, rfl⟩
    exact ⟨rfl, rfl, hcheck⟩
  · rintro ⟨rfl, rfl, hcheck⟩
    exact ⟨(), hcheck, rfl, rfl⟩

namespace StockState

variable {s t : StockState} {b : Batch} {i : BatchIdentity}

/-- A new batch has a date. -/
theorem NewBatch.isSome (h : s.NewBatch b) : b.production ≠ none ∨ b.expiry ≠ none := by
  obtain ⟨production, expiry, on, hdates⟩ := h.dated
  obtain ⟨hp, he, -⟩ := inboundDates_eq_ok_iff.mp hdates
  rw [hp, he]
  cases production <;> cases expiry <;> simp

theorem get?_batches_putBatch (s : StockState) (b : Batch) (i : BatchIdentity) :
    (s.putBatch b).batches.get? i =
      if b.identity = i then some b else s.batches.get? i :=
  OrderedMap.get?_insert ..

theorem size_batches_putBatch (s : StockState) (b : Batch) :
    (s.putBatch b).batches.size =
      if (s.batches.get? b.identity).isSome then s.batches.size else s.batches.size + 1 :=
  OrderedMap.size_insert ..

/-- To create a batch leaves every other one. -/
theorem NewBatch.get?_of_known (new : s.NewBatch b) {c : Batch}
    (hc : s.batches.get? i = some c) : (s.putBatch b).batches.get? i = some c := by
  have hne : b.identity ≠ i := fun hi => by
    rw [← hi, new.unknown] at hc
    cases hc
  rw [get?_batches_putBatch, if_neg hne, hc]

theorem NewBatch.size_putBatch (new : s.NewBatch b) :
    (s.putBatch b).batches.size = s.batches.size + 1 := by
  rw [size_batches_putBatch, new.unknown]
  rfl

/-! ## How batches are kept -/

/-- How the batches of a state are kept. -/
structure Registered (s : StockState) : Prop where
  /-- Each batch is stored under its own identity. -/
  filed : ∀ i b, s.batches.get? i = some b → b.identity = i
  /-- The numbers are those from one on, -/
  numbers : ∀ n : Int, (∃ i b, s.batches.get? i = some b ∧ b.id = n) ↔
    1 ≤ n ∧ n ≤ s.batches.size
  /-- each of one batch only. -/
  apart : ∀ i j b c, s.batches.get? i = some b → s.batches.get? j = some c → b.id = c.id → i = j
  /-- No batch expires before it was produced. -/
  ordered : ∀ i b, s.batches.get? i = some b →
    ∀ p e, b.production = some p → b.expiry = some e → p ≤ e

namespace Registered

theorem empty (clock : Instant) : Registered (.empty clock) := by
  have hnone : ∀ i, (StockState.empty clock).batches.get? i = none := fun i => rfl
  have hsize : (StockState.empty clock).batches.size = 0 := rfl
  refine ⟨fun i b hb => ?_, fun n => ?_, fun i j b c hb => ?_, fun i b hb => ?_⟩
  · rw [hnone] at hb
    cases hb
  · rw [hsize]
    constructor
    · rintro ⟨i, b, hb, -⟩
      rw [hnone] at hb
      cases hb
    · rintro ⟨hlow, hhigh⟩
      omega
  · rw [hnone] at hb
    cases hb
  · rw [hnone] at hb
    cases hb

theorem congr (h : Registered s) (hb : t.batches = s.batches) : Registered t := by
  obtain ⟨filed, numbers, apart, ordered⟩ := h
  exact ⟨by rwa [hb], by rwa [hb], by rwa [hb], by rwa [hb]⟩

theorem id_le (h : Registered s) (hb : s.batches.get? i = some b) : b.id ≤ s.batches.size :=
  ((h.numbers b.id).mp ⟨i, b, hb, rfl⟩).2

theorem create (h : Registered s) (new : s.NewBatch b) : Registered (s.putBatch b) := by
  have hget := s.get?_batches_putBatch b
  have hid := new.numbered
  refine ⟨fun i c hc => ?_, fun n => ?_, fun i j c d hc hd hcd => ?_, fun i c hc => ?_⟩
  · rw [hget] at hc
    split at hc
    · next hi =>
      cases hc
      exact hi
    · exact h.filed i c hc
  · rw [new.size_putBatch]
    constructor
    · rintro ⟨i, c, hc, rfl⟩
      rw [hget] at hc
      split at hc
      · cases hc
        omega
      · have := (h.numbers c.id).mp ⟨i, c, hc, rfl⟩
        omega
    · rintro ⟨hlow, hhigh⟩
      by_cases hn : n ≤ s.batches.size
      · obtain ⟨i, c, hc, rfl⟩ := (h.numbers n).mpr ⟨hlow, hn⟩
        exact ⟨i, c, new.get?_of_known hc, rfl⟩
      · exact ⟨b.identity, b, by rw [hget, if_pos rfl], by omega⟩
  · rw [hget] at hc hd
    split at hc <;> split at hd
    · next hi hj => exact hi.symm.trans hj
    · cases hc
      have := h.id_le hd
      omega
    · cases hd
      have := h.id_le hc
      omega
    · exact h.apart i j c d hc hd hcd
  · rw [hget] at hc
    split at hc
    · cases hc
      obtain ⟨production, expiry, on, hdates⟩ := new.dated
      exact checkDates_eq_ok_iff.mp (inboundDates_eq_ok_iff.mp hdates).2.2
    · exact h.ordered i c hc

/-- To correct a batch leaves every other one. -/
theorem get?_corrected (h : Registered s) (known : s.batches.get? i = some b)
    (expiry : Option Date) (j : BatchIdentity) :
    (s.putBatch { b with expiry }).batches.get? j =
      if i = j then some { b with expiry } else s.batches.get? j := by
  obtain rfl := h.filed i b known
  exact s.get?_batches_putBatch _ j

theorem size_corrected (h : Registered s) (known : s.batches.get? i = some b)
    (expiry : Option Date) : (s.putBatch { b with expiry }).batches.size = s.batches.size := by
  obtain rfl := h.filed i b known
  exact (s.size_batches_putBatch _).trans (if_pos (Option.isSome_iff_exists.mpr ⟨b, known⟩))

/-- What is stored once a batch is corrected was stored before, under the same number. -/
theorem exists_of_corrected (h : Registered s) (known : s.batches.get? i = some b)
    {expiry : Option Date} {j : BatchIdentity} {c : Batch}
    (hc : (s.putBatch { b with expiry }).batches.get? j = some c) :
    ∃ c', s.batches.get? j = some c' ∧ c'.id = c.id ∧ c'.identity = c.identity := by
  rw [h.get?_corrected known] at hc
  split at hc
  · next hj =>
    cases hc
    exact ⟨b, hj ▸ known, rfl, rfl⟩
  · exact ⟨c, hc, rfl, rfl⟩

theorem correct (h : Registered s) (known : s.batches.get? i = some b) {expiry : Option Date}
    (dated : checkDates b.production expiry = .ok ()) :
    Registered (s.putBatch { b with expiry }) := by
  have hget := h.get?_corrected known expiry
  refine ⟨fun j c hc => ?_, fun n => ?_, fun j k c d hc hd hcd => ?_, fun j c hc => ?_⟩
  · obtain ⟨c', hc', -, hidentity⟩ := h.exists_of_corrected known hc
    rw [← hidentity]
    exact h.filed j c' hc'
  · rw [h.size_corrected known, ← h.numbers]
    constructor
    · rintro ⟨j, c, hc, rfl⟩
      obtain ⟨c', hc', hid, -⟩ := h.exists_of_corrected known hc
      exact ⟨j, c', hc', hid⟩
    · rintro ⟨j, c, hc, rfl⟩
      by_cases hj : i = j
      · subst hj
        obtain rfl : b = c := Option.some.inj (known.symm.trans hc)
        exact ⟨i, { b with expiry }, by rw [hget, if_pos rfl], rfl⟩
      · exact ⟨j, c, by rw [hget, if_neg hj, hc], rfl⟩
  · obtain ⟨c', hc', hcid, -⟩ := h.exists_of_corrected known hc
    obtain ⟨d', hd', hdid, -⟩ := h.exists_of_corrected known hd
    exact h.apart j k c' d' hc' hd' (hcid.trans (hcd.trans hdid.symm))
  · rw [hget] at hc
    split at hc
    · cases hc
      exact checkDates_eq_ok_iff.mp dated
    · exact h.ordered j c hc

theorem change (hc : Change s t) (h : Registered s) : Registered t := by
  cases hc with
  | tick clock => exact h.congr rfl
  | created new => exact h.create new
  | corrected known dated => exact h.correct known dated
  | entered admitted => exact h.congr (batches_enter ..)
  | photographed d => exact h.congr rfl

/-- The identities of the batches as they are listed are those under which they are stored. -/
theorem map_identity_values (h : Registered s) :
    s.batches.values.map Batch.identity = s.batches.keys := by
  rw [OrderedMap.values, OrderedMap.keys, List.map_map]
  refine List.map_congr_left fun x hx => ?_
  exact h.filed x.1 x.2 (OrderedMap.mem_toList_iff.mp hx)

end Registered

theorem Attained.registered (h : s.Attained) : s.Registered :=
  h.induction .empty fun _ hc hs => hs.change hc

/-! ## How batches go on -/

/-- How batches have come from one state to a later one: those that were there are as they were
but for their expiry date, and those that are new have greater numbers. -/
structure Endured (s t : StockState) : Prop where
  kept : ∀ i b, s.batches.get? i = some b → ∃ expiry, t.batches.get? i = some { b with expiry }
  added : ∀ i b, s.batches.get? i = none → t.batches.get? i = some b → s.batches.size < b.id
  size : s.batches.size ≤ t.batches.size

theorem Endured.of_eq (hb : t.batches = s.batches) : Endured s t := by
  refine ⟨fun i b h => ⟨b.expiry, by rw [hb, h]⟩, fun i b h h' => ?_, Nat.le_of_eq (by rw [hb])⟩
  rw [hb, h] at h'
  cases h'

theorem Endured.trans {u : StockState} (h : Endured s t) (h' : Endured t u) : Endured s u := by
  refine ⟨fun i b hs => ?_, fun i b hs hu => ?_, Nat.le_trans h.size h'.size⟩
  · obtain ⟨expiry, ht⟩ := h.kept i b hs
    obtain ⟨expiry', hu⟩ := h'.kept i _ ht
    exact ⟨expiry', hu⟩
  · cases ht : t.batches.get? i with
    | none =>
      have := h'.added i b ht hu
      have := h.size
      omega
    | some c =>
      obtain ⟨expiry, hu'⟩ := h'.kept i c ht
      obtain rfl := Option.some.inj (hu.symm.trans hu')
      exact h.added i c hs ht

theorem endured_of_change (hs : s.Registered) (hc : Change s t) : Endured s t := by
  cases hc with
  | tick clock => exact .of_eq rfl
  | entered admitted => exact .of_eq (batches_enter ..)
  | photographed d => exact .of_eq rfl
  | @created b new =>
    refine ⟨fun i c hc => ⟨c.expiry, new.get?_of_known hc⟩, fun i c hnone hc => ?_, ?_⟩
    · rw [get?_batches_putBatch, hnone] at hc
      split at hc
      · cases hc
        have := new.numbered
        omega
      · cases hc
    · rw [new.size_putBatch]
      omega
  | @corrected i b expiry known dated =>
    have hget := hs.get?_corrected known expiry
    refine ⟨fun j c hc => ?_, fun j c hnone hc => ?_, Nat.le_of_eq (hs.size_corrected known _).symm⟩
    · by_cases hj : i = j
      · subst hj
        obtain rfl : b = c := Option.some.inj (known.symm.trans hc)
        exact ⟨expiry, by rw [hget, if_pos rfl]⟩
      · exact ⟨c.expiry, by rw [hget, if_neg hj, hc]⟩
    · rw [hget] at hc
      split at hc
      · next hj =>
        rw [← hj, known] at hnone
        cases hnone
      · rw [hnone] at hc
        cases hc

theorem Attained.endured (hs : s.Attained) (hc : Changes s t) : Endured s t := by
  induction hc with
  | refl => exact .of_eq rfl
  | tail hsu hc ih => exact ih.trans (endured_of_change (hs.changes hsu).registered hc)

end StockState

/-! ## What an action does to batches -/

/-- What an action on the stock `s` can do to its batches. -/
inductive BatchesAfter (s : StockState) :
    StockAction → Except StoreError Unit × StockState → Prop where
  | kept {a : StockAction} {out : Except StoreError Unit × StockState}
      (same : out.2.batches = s.batches) : BatchesAfter s a out
  | created {a : StockAction} {out : Except StoreError Unit × StockState} {b : Batch}
      (new : s.NewBatch b) (stored : out.2.batches = s.batches.insert b.identity b) :
      BatchesAfter s a out
  | corrected {item : ItemId} {warehouse : WarehouseId} {code : String} {expiry : Option Date}
      {key : BatchKey} {b : Batch} (named : BatchKey.ofRequiredCode code = .ok key)
      (known : s.batches.get? ⟨item, warehouse, key.key⟩ = some b)
      (dated : checkDates b.production expiry = .ok ()) :
      BatchesAfter s (.correctExpiry item warehouse code expiry)
        (.ok (), s.putBatch { b with expiry })

/-- A known batch gets the expiry date that it is to have, if that passes the check. -/
theorem MemoryStock.correctExpiry_known {s : StockState} {item : ItemId} {warehouse : WarehouseId}
    {code : String} {key : BatchKey} {b : Batch} {expiry : Option Date}
    (named : BatchKey.ofRequiredCode code = .ok key)
    (known : s.batches.get? ⟨item, warehouse, key.key⟩ = some b)
    (dated : checkDates b.production expiry = .ok ()) :
    (correctExpiry item warehouse code expiry).runFrom s =
      (.ok { b with expiry }, s.putBatch { b with expiry }) := by
  simp only [correctExpiry, named, runFrom_bind, runFrom_ofRule_ok, runFrom_get, known, dated,
    runFrom_set, runFrom_pure]

/-- To correct an unknown batch changes nothing. -/
theorem MemoryStock.correctExpiry_unknown {s : StockState} {item : ItemId}
    {warehouse : WarehouseId} {code : String} {key : BatchKey}
    (named : BatchKey.ofRequiredCode code = .ok key)
    (unknown : s.batches.get? ⟨item, warehouse, key.key⟩ = none) (expiry : Option Date) :
    (correctExpiry item warehouse code expiry).runFrom s =
      (.error (.domain (.notFound s!"batch {key} of item {item}")), s) := by
  simp only [correctExpiry, named, runFrom_bind, runFrom_ofRule_ok, runFrom_get, unknown,
    runFrom_throw]

/-- A question changes nothing. -/
theorem StockQuery.runFrom_snd (q : StockQuery) (s : StockState) : (q.step.runFrom s).2 = s := by
  cases q with
  | plan item warehouse quantity options =>
    exact (runFrom_forget_snd _ s).trans (plan_snd item warehouse quantity options s)
  | _ => rfl

theorem batchesAfter_apply (m : Movement) (s : StockState) :
    BatchesAfter s (.apply m) ((StockAction.apply m).step.runFrom s) := by
  have h := writing m s
  simp only [StockAction.step, store, MemoryStock.apply, runFrom_bind]
  generalize (write m).runFrom s = out at h
  cases h with
  | refused e => exact .kept rfl
  | replayed valid found => exact .kept rfl
  | unchanged valid zero => exact .kept rfl
  | entered readied admitted =>
    rcases readied with rfl | ⟨b, hb, -, -, rfl⟩
    · exact .kept (StockState.batches_enter ..)
    · exact .created hb (StockState.batches_enter ..)

theorem batchesAfter_correctExpiry (item : ItemId) (warehouse : WarehouseId) (code : String)
    (expiry : Option Date) (s : StockState) :
    BatchesAfter s (.correctExpiry item warehouse code expiry)
      ((StockAction.correctExpiry item warehouse code expiry).step.runFrom s) := by
  simp only [StockAction.step, store, runFrom_bind]
  cases named : BatchKey.ofRequiredCode code with
  | error e =>
    simp only [correctExpiry, named, runFrom_bind, runFrom_ofRule_error]
    exact .kept rfl
  | ok key =>
    cases known : s.batches.get? ⟨item, warehouse, key.key⟩ with
    | none =>
      rw [correctExpiry_unknown named known]
      exact .kept rfl
    | some b =>
      cases dated : checkDates b.production expiry with
      | error e =>
        simp only [correctExpiry, named, runFrom_bind, runFrom_ofRule_ok, runFrom_get, known,
          dated, runFrom_ofRule_error]
        exact .kept rfl
      | ok _ =>
        rw [correctExpiry_known named known dated]
        exact .corrected named known dated

/-- Every action leaves the batches alone, creates one, or corrects the date of one. -/
theorem StockAction.batchesAfter {s : StockState} (hs : s.Attained) (a : StockAction) :
    BatchesAfter s a (a.step.runFrom s) := by
  cases a with
  | apply m => exact batchesAfter_apply m s
  | allocate r =>
    simp only [step, store, runFrom_bind]
    rcases allocate_cases hs r with ⟨e, h⟩ | ⟨legs, h⟩ | ⟨p, -, -, h⟩
    · rw [h]
      exact .kept rfl
    · rw [h]
      exact .kept rfl
    · rw [h]
      exact .kept (StockState.batches_enterAll ..)
  | resolveBatch item warehouse code production expiry on =>
    simp only [step, store, runFrom_bind]
    rcases resolveBatch_cases item warehouse code production expiry on s with
      ⟨e, h⟩ | ⟨b, t, h, rfl | ⟨hb, rfl⟩⟩
    · rw [h]
      exact .kept rfl
    · rw [h]
      exact .kept rfl
    · rw [h]
      exact .created hb rfl
  | correctExpiry item warehouse code expiry => exact batchesAfter_correctExpiry ..
  | rebuildSnapshot d => exact .kept rfl
  | query q => exact .kept (congrArg StockState.batches (q.runFrom_snd s))
  | tick clock => exact .kept rfl

/-! ## Corrections -/

/-- The action is to give the batch `i` the expiry date `expiry`, or to take it away. -/
def StockAction.Redates (a : StockAction) (i : BatchIdentity) (expiry : Option Date) : Prop :=
  ∃ code, a = .correctExpiry i.item i.warehouse code expiry ∧
    BatchKey.ofRequiredCode code = .ok ⟨i.code⟩

namespace StockAction

variable {s : StockState} {a : StockAction} {i : BatchIdentity} {b b' : Batch}
  {expiry : Option Date}

theorem Redates.expiry_eq {expiry' : Option Date} (h : a.Redates i expiry)
    (h' : a.Redates i expiry') : expiry = expiry' := by
  obtain ⟨code, rfl, -⟩ := h
  obtain ⟨code', heq, -⟩ := h'
  exact (StockAction.correctExpiry.inj heq).2.2.2

/-- A known batch gets its date, unless that is before its production date. -/
theorem Redates.get?_eq (h : a.Redates i expiry) (hs : s.Registered)
    (hb : s.batches.get? i = some b) (dated : checkDates b.production expiry = .ok ()) :
    (a.step.runFrom s).2.batches.get? i = some { b with expiry } := by
  obtain ⟨code, rfl, named⟩ := h
  simp only [step, store, runFrom_bind, correctExpiry_known named hb dated, runFrom_pure]
  rw [hs.get?_corrected hb, if_pos rfl]

theorem Redates.get?_eq_none (h : a.Redates i expiry) (hb : s.batches.get? i = none) :
    (a.step.runFrom s).2.batches.get? i = none := by
  obtain ⟨code, rfl, named⟩ := h
  simp only [step, store, runFrom_bind, correctExpiry_unknown named hb]
  exact hb

/-- An action that is no correction of a batch leaves it alone, or it creates it. -/
theorem eq_or_newBatch (hs : s.Attained) (h : ∀ expiry, ¬ a.Redates i expiry)
    (hb' : (a.step.runFrom s).2.batches.get? i = some b') :
    s.batches.get? i = some b' ∨ s.batches.get? i = none ∧ s.NewBatch b' := by
  have hafter := a.batchesAfter hs
  generalize a.step.runFrom s = out at hafter hb'
  cases hafter with
  | kept same =>
    rw [same] at hb'
    exact .inl hb'
  | created new stored =>
    rw [stored, OrderedMap.get?_insert] at hb'
    split at hb'
    · next hi =>
      cases hb'
      exact .inr ⟨hi ▸ new.unknown, new⟩
    · exact .inl hb'
  | @corrected item warehouse code expiry key b named known dated =>
    rw [hs.registered.get?_corrected known] at hb'
    split at hb'
    · next hi =>
      subst hi
      exact absurd ⟨code, rfl, named⟩ (h expiry)
    · exact .inl hb'

/-- An action changes the expiry date of a batch only as a correction of it that succeeds. -/
theorem expiry_eq_or_redates (hs : s.Attained) (hb : s.batches.get? i = some b)
    (hb' : (a.step.runFrom s).2.batches.get? i = some b') :
    b'.expiry = b.expiry ∨ a.Redates i b'.expiry ∧ (a.step.runFrom s).1 = .ok () := by
  have hafter := a.batchesAfter hs
  generalize a.step.runFrom s = out at hafter hb' ⊢
  cases hafter with
  | kept same =>
    rw [same, hb] at hb'
    cases hb'
    exact .inl rfl
  | created new stored =>
    rw [stored] at hb'
    obtain rfl : b = b' := Option.some.inj ((new.get?_of_known hb).symm.trans hb')
    exact .inl rfl
  | @corrected item warehouse code expiry key old named known dated =>
    rw [hs.registered.get?_corrected known] at hb'
    split at hb'
    · next hi =>
      subst hi
      cases hb'
      exact .inr ⟨⟨code, rfl, named⟩, rfl⟩
    · rw [hb] at hb'
      cases hb'
      exact .inl rfl

end StockAction

namespace StockState

variable {s : StockState} {i : BatchIdentity}

theorem run_concat (s : StockState) (actions : List StockAction) (a : StockAction) :
    s.run (actions ++ [a]) = (a.step.runFrom (s.run actions)).2 := run_append s actions [a]

/-- A run changes the expiry date of a batch only by corrections of it that succeed, and one of
these has given the batch the date that it has in the end. -/
theorem expiry_run (hs : s.Attained) (actions : List StockAction) {b b' : Batch}
    (hb : s.batches.get? i = some b) (hb' : (s.run actions).batches.get? i = some b') :
    b'.expiry = b.expiry ∨ ∃ before a after, actions = before ++ a :: after ∧
      a.Redates i b'.expiry ∧ (a.step.runFrom (s.run before)).1 = .ok () := by
  induction actions using List.reverseRecOn generalizing b' with
  | nil =>
    obtain rfl : b = b' := Option.some.inj (hb.symm.trans hb')
    exact .inl rfl
  | append_singleton actions a ih =>
    obtain ⟨expiry, hc⟩ := (hs.endured (s.changes_run actions)).kept i b hb
    rw [run_concat] at hb'
    rcases StockAction.expiry_eq_or_redates (hs.run actions) hc hb' with hkept | ⟨hr, hok⟩
    · rcases ih hc with hsame | ⟨before, a', after, rfl, hr, hok⟩
      · exact .inl (hkept.trans hsame)
      · refine .inr ⟨before, a', after ++ [a], by simp, ?_, hok⟩
        rw [hkept]
        exact hr
    · exact .inr ⟨actions, a, [], rfl, hr, hok⟩

end StockState

/-! ## Whole runs -/

/-- In all stock there can be the batches are stored under their identities, one at most under
each, are numbered from one on, and do not expire before they were produced. Whatever happens,
none is ever lost; later ones have greater numbers; and nothing of a batch changes but its expiry
date, that only by corrections of this batch that succeed. -/
theorem batches_endure {s : StockState} (hs : s.Reachable) (actions : List StockAction) :
    s.Registered ∧ (s.batches.values.map Batch.identity).Nodup ∧
    StockState.Endured s (s.run actions) ∧
    ∀ i b b', s.batches.get? i = some b → (s.run actions).batches.get? i = some b' →
      b'.expiry = b.expiry ∨ ∃ before a after, actions = before ++ a :: after ∧
        a.Redates i b'.expiry ∧ (a.step.runFrom (s.run before)).1 = .ok () := by
  have hattained := hs.attained
  refine ⟨hattained.registered, ?_, hattained.endured (s.changes_run actions),
    fun i b b' hb hb' => StockState.expiry_run hattained actions hb hb'⟩
  rw [hattained.registered.map_identity_values]
  exact s.batches.nodup_keys

namespace Sample

/-- The identity of batch A of item 10 in warehouse 1. -/
def identityA : BatchIdentity := ⟨⟨10⟩, ⟨1⟩, "A"⟩

/-- Batch A is looked up with other dates, received again with an earlier one, and found to last
for ever. -/
def relabelling : List StockAction :=
  [.resolveBatch ⟨10⟩ ⟨1⟩ "A" none none .epoch,
    .apply { delivery "A" 3 1 with expiry := some .epoch },
    .correctExpiry ⟨10⟩ ⟨1⟩ " A " (some .last)]

end Sample

open Sample in
/-- The corrected date of batch A comes from the correction, not from the other two calls. -/
theorem batches_endure_relabelled :
    stock.Reachable ∧ stock.Registered ∧ StockState.Endured stock (stock.run relabelling) ∧
    ∃ b b', stock.batches.get? identityA = some b ∧
      (stock.run relabelling).batches.get? identityA = some b' ∧
      b.expiry = some (midnight 20).date ∧ b'.expiry = some .last ∧
      ∃ before a after, relabelling = before ++ a :: after ∧ a.Redates identityA b'.expiry ∧
        (a.step.runFrom (stock.run before)).1 = .ok () := by
  obtain ⟨hregistered, -, hendured, hexpiry⟩ := batches_endure reachable_stock relabelling
  have hb : stock.batches.get? identityA =
      some ⟨1, ⟨10⟩, ⟨1⟩, "A", none, some (midnight 20).date, .epoch⟩ := by decide +kernel
  have hb' : (stock.run relabelling).batches.get? identityA =
      some ⟨1, ⟨10⟩, ⟨1⟩, "A", none, some .last, .epoch⟩ := by decide +kernel
  refine ⟨reachable_stock, hregistered, hendured, _, _, hb, hb', rfl, rfl, ?_⟩
  exact (hexpiry _ _ _ hb hb').resolve_left (by decide)

/-! ## Batches without a date -/

namespace StockState

variable {s : StockState} {i : BatchIdentity} {actions : List StockAction} {a : StockAction}
  {expiry : Option Date}

/-- Whether the last correction of the batch `i`, once it was known, has taken its expiry date
away. -/
def Cleared (s : StockState) (actions : List StockAction) (i : BatchIdentity) : Prop :=
  ∃ before a after, actions = before ++ a :: after ∧
    ((s.run before).batches.get? i).isSome = true ∧ a.Redates i none ∧
    ∀ a' ∈ after, ∀ d, ¬ a'.Redates i (some d)

/-- A batch whose date was taken away is still known. -/
theorem Cleared.isSome (hs : s.Attained) (h : s.Cleared actions i) :
    ((s.run actions).batches.get? i).isSome = true := by
  obtain ⟨before, a, after, rfl, hknown, -, -⟩ := h
  obtain ⟨b, hb⟩ := Option.isSome_iff_exists.mp hknown
  obtain ⟨expiry, hkept⟩ :=
    ((hs.run before).endured ((s.run before).changes_run (a :: after))).kept i b hb
  rw [run_append, hkept]
  rfl

/-- The last action takes the date away, or it was taken before and no other is given. -/
theorem cleared_concat_iff : s.Cleared (actions ++ [a]) i ↔
    (((s.run actions).batches.get? i).isSome = true ∧ a.Redates i none) ∨
      (s.Cleared actions i ∧ ∀ d, ¬ a.Redates i (some d)) := by
  constructor
  · rintro ⟨before, a', after, hsplit, hknown, hr, hlast⟩
    rcases List.eq_nil_or_concat after with rfl | ⟨after, last, rfl⟩
    · obtain ⟨rfl, hlast⟩ := List.append_inj' hsplit rfl
      obtain rfl := List.singleton_inj.mp hlast
      exact .inl ⟨hknown, hr⟩
    · rw [List.concat_eq_append, ← List.cons_append, ← List.append_assoc] at hsplit
      obtain ⟨hactions, hsplit⟩ := List.append_inj' hsplit rfl
      obtain rfl := List.singleton_inj.mp hsplit
      refine .inr ⟨⟨before, a', after, hactions, hknown, hr, fun x hx => ?_⟩, ?_⟩
      · exact hlast x (by simp [hx])
      · exact hlast a (by simp)
  · rintro (⟨hknown, hr⟩ | ⟨⟨before, a', after, rfl, hknown, hr, hlast⟩, hkept⟩)
    · exact ⟨actions, a, [], rfl, hknown, hr, fun _ hx => absurd hx List.not_mem_nil⟩
    · refine ⟨before, a', after ++ [a], by simp, hknown, hr, fun x hx => ?_⟩
      rcases List.mem_append.mp hx with hx | hx
      · exact hlast x hx
      · obtain rfl := List.mem_singleton.mp hx
        exact hkept

/-- Of two corrections the later one counts. -/
theorem cleared_concat_of_redates (hknown : ((s.run actions).batches.get? i).isSome = true)
    (h : a.Redates i expiry) : s.Cleared (actions ++ [a]) i ↔ expiry = none := by
  rw [cleared_concat_iff]
  cases expiry with
  | none => exact iff_of_true (.inl ⟨hknown, h⟩) rfl
  | some d =>
    refine iff_of_false ?_ nofun
    rintro (⟨-, hr⟩ | ⟨-, hkept⟩)
    · cases h.expiry_eq hr
    · exact hkept d h

/-- Other actions make no difference. -/
theorem cleared_concat_of_not_redates (h : ∀ expiry, ¬ a.Redates i expiry) :
    s.Cleared (actions ++ [a]) i ↔ s.Cleared actions i := by
  simp [cleared_concat_iff, h]

end StockState

/-- A correction of a batch without a production date succeeds, whatever date it is to have. -/
theorem StockAction.Redates.expiry_of_unproduced {s : StockState} {a : StockAction}
    {i : BatchIdentity} {b : Batch} {expiry : Option Date} (h : a.Redates i expiry)
    (hs : s.Attained) (hb : (a.step.runFrom s).2.batches.get? i = some b)
    (hp : b.production = none) : (s.batches.get? i).isSome = true ∧ b.expiry = expiry := by
  cases hold : s.batches.get? i with
  | none =>
    rw [h.get?_eq_none hold] at hb
    cases hb
  | some old =>
    obtain ⟨_, hkept⟩ := (hs.endured (a.step_moves _)).kept i old hold
    obtain rfl := Option.some.inj (hb.symm.trans hkept)
    have hdated : checkDates old.production expiry = .ok () := by
      rw [checkDates_eq_ok_iff]
      intro p e hp'
      rw [show old.production = none from hp] at hp'
      cases hp'
    rw [h.get?_eq hs.registered hold hdated] at hb
    exact ⟨rfl, (congrArg Batch.expiry (Option.some.inj hb)).symm⟩

/-- A batch is without any date exactly if it has no production date, which it then never had,
and the last correction of its expiry date has taken that away. -/
theorem undated_iff_cleared {clock : Instant} {actions : List StockAction} {i : BatchIdentity}
    {b : Batch} (h : ((StockState.empty clock).run actions).batches.get? i = some b) :
    b.production = none ∧ b.expiry = none ↔
      b.production = none ∧ (StockState.empty clock).Cleared actions i := by
  have hempty : (StockState.empty clock).Attained := ⟨clock, .refl⟩
  refine and_congr_right fun hp => ?_
  induction actions using List.reverseRecOn generalizing b with
  | nil => cases h
  | append_singleton actions a ih =>
    have hs := hempty.run actions
    rw [StockState.run_concat] at h
    by_cases hr : ∃ expiry, a.Redates i expiry
    · obtain ⟨expiry, hr⟩ := hr
      obtain ⟨hknown, rfl⟩ := hr.expiry_of_unproduced hs h hp
      exact (StockState.cleared_concat_of_redates hknown hr).symm
    · have hr : ∀ expiry, ¬ a.Redates i expiry := not_exists.mp hr
      rw [StockState.cleared_concat_of_not_redates hr]
      rcases StockAction.eq_or_newBatch hs hr h with hold | ⟨hnone, hnew⟩
      · exact ih hold hp
      · -- a new batch has a date, and nothing can have been taken from it before
        refine iff_of_false (hnew.isSome.resolve_left (absurd hp)) fun hcleared => ?_
        have hknown := hcleared.isSome hempty
        rw [hnone] at hknown
        cases hknown

namespace Sample

/-- Batch A is stored with an expiry date alone, and that is taken away. -/
def clearing : List StockAction :=
  [.resolveBatch ⟨10⟩ ⟨1⟩ "A" none (some .last) .epoch,
    .correctExpiry ⟨10⟩ ⟨1⟩ "A" none]

theorem get?_clearing : ((StockState.empty .epoch).run clearing).batches.get? identityA =
    some ⟨1, ⟨10⟩, ⟨1⟩, "A", none, none, .epoch⟩ := by decide +kernel

end Sample

open Sample in
theorem undated_iff_cleared_clearing :
    ((StockState.empty .epoch).run clearing).batches.get? identityA =
      some ⟨1, ⟨10⟩, ⟨1⟩, "A", none, none, .epoch⟩ ∧
    (StockState.empty .epoch).Cleared clearing identityA :=
  ⟨get?_clearing, ((undated_iff_cleared get?_clearing).mp ⟨rfl, rfl⟩).2⟩

/-- Not all batches carry a date. -/
theorem undated_batch_stored :
    ¬ ∀ s : StockState, s.Reachable → ∀ i b, s.batches.get? i = some b →
      b.production ≠ none ∨ b.expiry ≠ none := by
  intro h
  have hdated := h _ ⟨.epoch, Sample.clearing, rfl⟩ _ _ Sample.get?_clearing
  exact hdated.elim (absurd rfl) (absurd rfl)

end Stockroom
