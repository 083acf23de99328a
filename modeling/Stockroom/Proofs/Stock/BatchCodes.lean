/-
Stockroom.Proofs.Stock.BatchCodes — every text that is a batch code becomes one key.

* `BatchKey.trimmed` is what is left of a code without the blanks at its ends. A key is made of it
  alone (`BatchKey.ofCode_eq_ok_iff`): of nothing, the key of goods without a batch, and otherwise
  the text itself. Only the reserved key is refused, so the two never meet
  (`BatchKey.ofTrimmed_inj`).
* A key has nothing to trim, and gives its own code back (`BatchKey.ofCode_code?`).
* `StockState.SharesBatch` says that the calls which take the code of a batch go about the batch of
  the slot to which a movement with that code goes. So a batch is never split in two by the blanks
  with which its code is written.
* `StockStore.NormalisesCodes` says the same of a store without looking into it: a call with a text
  is the call with the code of its key.
-/
import Stockroom.Proofs.Stock.Account
import Stockroom.Proofs.Stock.Batches
import Stockroom.Proofs.Text
import Stockroom.Sql.Stock

namespace Stockroom

open StoreM MemoryStock

/-! ## Codes -/

namespace BatchKey

/-- What is left of a code without the blanks at its ends; of a missing code nothing is left. -/
def trimmed (code : Option String) : String := Text.trim (code.getD "")

/-- Whether a code is missing, or holds nothing but blanks. -/
def IsBlank (code : Option String) : Prop := ∀ s ∈ code, ∀ c ∈ s.toList, Text.isBlank c = true

/-- Whether a text names a batch: it is not blank, and what is left of it is not reserved. -/
def NamesBatch (code : String) : Prop := ¬ IsBlank (some code) ∧ Text.trim code ≠ reserved

/-- The key that is made of a trimmed code. -/
def ofTrimmed (c : String) : BatchKey := if c = "" then noBatch else ⟨c⟩

variable {code : Option String} {c d text : String} {k : BatchKey}

theorem trimmed_eq_empty_iff : trimmed code = "" ↔ IsBlank code := by
  rw [trimmed, Text.trim_eq_empty_iff]
  cases code with
  | none => simp [IsBlank]
  | some s => simp [IsBlank]

theorem ofCode_eq (code : Option String) : ofCode code =
    if trimmed code = reserved then
      .error (.batchResolution "batch code '__NULL_BATCH__' is reserved")
    else .ok (ofTrimmed (trimmed code)) := by
  cases code with
  | none => decide +kernel
  | some s =>
    have htrimmed : trimmed (some s) = Text.trim s := rfl
    rw [htrimmed, ofTrimmed]
    show (if Text.trim s = "" then _ else _) = _
    by_cases hempty : Text.trim s = ""
    · rw [if_pos hempty, if_pos hempty, hempty, if_neg (by decide)]
    · rw [if_neg hempty, if_neg hempty]
      rfl

theorem ofCode_eq_ok_iff :
    ofCode code = .ok k ↔ trimmed code ≠ reserved ∧ ofTrimmed (trimmed code) = k := by
  rw [ofCode_eq]
  split
  · next h => exact iff_of_false nofun fun hk => hk.1 h
  · next h => simp [h]

theorem ofCode_eq_error_iff {e : DomainError} :
    ofCode code = .error e ↔ trimmed code = reserved ∧
      e = .batchResolution "batch code '__NULL_BATCH__' is reserved" := by
  rw [ofCode_eq]
  split
  · next h =>
    constructor
    · intro he
      exact ⟨h, (Except.error.inj he).symm⟩
    · rintro ⟨-, rfl⟩
      rfl
  · next h => exact iff_of_false nofun fun he => h he.1

/-- Only of nothing the key of goods without a batch is made. -/
theorem ofTrimmed_eq_noBatch_iff (h : c ≠ reserved) : ofTrimmed c = noBatch ↔ c = "" := by
  unfold ofTrimmed
  split
  · next hempty => exact iff_of_true rfl hempty
  · next hempty => exact iff_of_false (fun heq => h (congrArg key heq)) hempty

theorem ofTrimmed_inj (hc : c ≠ reserved) (hd : d ≠ reserved) :
    ofTrimmed c = ofTrimmed d ↔ c = d := by
  refine ⟨fun h => ?_, congrArg ofTrimmed⟩
  by_cases hempty : d = ""
  · rw [hempty] at h ⊢
    exact (ofTrimmed_eq_noBatch_iff hc).mp h
  · have hnone : c ≠ "" := fun hc' => by
      rw [hc'] at h
      exact hempty ((ofTrimmed_eq_noBatch_iff hd).mp h.symm)
    rw [ofTrimmed, ofTrimmed, if_neg hempty, if_neg hnone] at h
    exact congrArg key h

/-- The code of a key is what the key was made of. -/
theorem trimmed_code?_ofTrimmed (h : trimmed code ≠ reserved) :
    trimmed (ofTrimmed (trimmed code)).code? = trimmed code := by
  by_cases hempty : trimmed code = ""
  · rw [hempty]
    decide +kernel
  · have hcode : (ofTrimmed (trimmed code)).code? = some (trimmed code) := by
      rw [ofTrimmed, if_neg hempty, code?, isNone, if_neg (by simpa using h)]
    rw [hcode, trimmed, Option.getD_some, trimmed, Text.trim_trim]

theorem ofCode_code? (h : ofCode code = .ok k) : ofCode k.code? = .ok k := by
  obtain ⟨hfree, rfl⟩ := ofCode_eq_ok_iff.mp h
  rw [ofCode_eq_ok_iff, trimmed_code?_ofTrimmed hfree]
  exact ⟨hfree, rfl⟩

theorem eq_noBatch_iff (h : ofCode code = .ok k) : k = noBatch ↔ IsBlank code := by
  obtain ⟨hfree, rfl⟩ := ofCode_eq_ok_iff.mp h
  rw [ofTrimmed_eq_noBatch_iff hfree, trimmed_eq_empty_iff]

theorem isNone_eq_false_iff : k.isNone = false ↔ k ≠ noBatch := by
  rw [isNone, beq_eq_false_iff_ne, ne_eq, ne_eq, BatchKey.ext_iff]
  rfl

theorem code?_eq (h : k ≠ noBatch) : k.code? = some k.key := by
  rw [code?, isNone_eq_false_iff.mpr h]
  rfl

/-- A text that names a batch gets the key that it has as a code, and no other one gets any. -/
theorem ofRequiredCode_eq_ok_iff :
    ofRequiredCode text = .ok k ↔ NamesBatch text ∧ ofCode (some text) = .ok k := by
  rw [ofRequiredCode, bind_eq_ok_iff]
  constructor
  · rintro ⟨l, hl, h⟩
    split at h
    · cases h
    · next hnone =>
      obtain rfl : l = k := Except.ok.inj h
      have hreal : l ≠ noBatch := isNone_eq_false_iff.mp (Bool.eq_false_iff.mpr hnone)
      exact ⟨⟨mt (eq_noBatch_iff hl).mpr hreal, (ofCode_eq_ok_iff.mp hl).1⟩, hl⟩
  · rintro ⟨hnames, hkey⟩
    have hreal : k.isNone = false := isNone_eq_false_iff.mpr (mt (eq_noBatch_iff hkey).mp hnames.1)
    exact ⟨k, hkey, by rw [hreal]; rfl⟩

/-- The code of a batch that is named names it as well. -/
theorem ofRequiredCode_key (h : ofRequiredCode text = .ok k) : ofRequiredCode k.key = .ok k := by
  obtain ⟨hnames, hkey⟩ := ofRequiredCode_eq_ok_iff.mp h
  have hreal : k ≠ noBatch := mt (eq_noBatch_iff hkey).mp hnames.1
  have hself : ofCode (some k.key) = .ok k := code?_eq hreal ▸ ofCode_code? hkey
  rw [ofRequiredCode_eq_ok_iff]
  exact ⟨⟨mt (eq_noBatch_iff hself).mpr hreal, (ofCode_eq_ok_iff.mp hself).1⟩, hself⟩

theorem exists_ofRequiredCode_iff : (∃ k, ofRequiredCode text = .ok k) ↔ NamesBatch text := by
  constructor
  · rintro ⟨k, h⟩
    exact (ofRequiredCode_eq_ok_iff.mp h).1
  · intro h
    exact ⟨_, ofRequiredCode_eq_ok_iff.mpr ⟨h, ofCode_eq_ok_iff.mpr ⟨h.2, rfl⟩⟩⟩

end BatchKey

/-! ## Batches of slots -/

namespace MemoryStock

variable {s t : StockState} {i : BatchIdentity} {item : ItemId} {warehouse : WarehouseId}
  {text : String} {k : BatchKey} {production expiry : Option Date} {on : Date} {b : Batch}

/-- A text that names a batch stands for the identity with the code of its key. -/
theorem resolveBatch_named (named : BatchKey.ofRequiredCode text = .ok k) (item : ItemId)
    (warehouse : WarehouseId) (production expiry : Option Date) (on : Date) :
    resolveBatch item warehouse text production expiry on =
      ensureBatch ⟨item, warehouse, k.key⟩ production expiry on := by
  rw [resolveBatch, named]
  rfl

/-- The batch that is found or created is the one that is stored. -/
theorem get?_of_ensureBatch (h : (ensureBatch i production expiry on).runFrom s = (.ok b, t)) :
    t.batches.get? i = some b := by
  cases hget : s.batches.get? i with
  | some old =>
    rw [ensureBatch_known hget] at h
    cases h
    exact hget
  | none =>
    rcases ensureBatch_unknown hget production expiry on with ⟨e, -, he⟩ | ⟨new, hi, -, he⟩
    · rw [he] at h
      cases h
    · rw [he] at h
      cases h
      rw [StockState.get?_batches_putBatch, if_pos hi]

/-- Where a correction succeeds there was a batch, and it has the new date. -/
theorem exists_of_correctExpiry (named : BatchKey.ofRequiredCode text = .ok k)
    (h : (correctExpiry item warehouse text expiry).runFrom s = (.ok b, t)) :
    ∃ old, s.batches.get? ⟨item, warehouse, k.key⟩ = some old ∧ b = { old with expiry } ∧
      t = s.putBatch b := by
  cases hget : s.batches.get? ⟨item, warehouse, k.key⟩ with
  | none =>
    rw [correctExpiry_unknown named hget] at h
    cases h
  | some old =>
    cases dated : checkDates old.production expiry with
    | error e =>
      simp only [correctExpiry, named, runFrom_bind, runFrom_ofRule_ok, runFrom_get, hget, dated,
        runFrom_ofRule_error] at h
      cases h
    | ok _ =>
      rw [correctExpiry_known named hget dated] at h
      cases h
      exact ⟨old, rfl, rfl, rfl⟩

/-- What a movement finds or creates is there after it, and what is there is found. -/
theorem hasBatch_of_ensureMovementBatch {m : Movement}
    (h : (ensureMovementBatch m).runFrom s = (.ok (), t)) :
    t.HasBatch m.key ∧ (s.HasBatch m.key → t = s) := by
  rcases ensureMovementBatch_cases m s with ⟨e, -, he⟩ | ⟨u, -, hhas, hu⟩
  · rw [he] at h
    cases h
  · obtain rfl : u = t := congrArg Prod.snd (hu.symm.trans h)
    refine ⟨hhas, fun hbefore => ?_⟩
    rw [ensureMovementBatch_of_hasBatch hbefore] at h
    exact (congrArg Prod.snd h).symm

end MemoryStock

namespace StockState

variable {s : StockState} {text : String} {key : StockKey}

/-- The batch of a key that names one. -/
theorem batchOf?_eq (h : key.batch ≠ .noBatch) :
    s.batchOf? key = s.batches.get? ⟨key.item, key.warehouse, key.batch.key⟩ := by
  rw [batchOf?, BatchKey.code?_eq h, Option.bind_some]

theorem hasBatch_iff (h : key.batch ≠ .noBatch) :
    s.HasBatch key ↔ ∃ b, s.batchOf? key = some b := by
  simp only [HasBatch, batchOf?, BatchKey.code?_eq h, Option.some.injEq, forall_eq',
    Option.bind_some]

/-- Calls that take the text of a batch code go about the batch that the movements of a slot go
about. -/
structure SharesBatch (s : StockState) (text : String) (key : StockKey) : Prop where
  /-- If there is one, it is found, -/
  found : ∀ production expiry on b, s.batchOf? key = some b →
    (resolveBatch key.item key.warehouse text production expiry on).runFrom s = (.ok b, s)
  /-- and if there is none, it is created. -/
  created : ∀ production expiry on b t,
    (resolveBatch key.item key.warehouse text production expiry on).runFrom s = (.ok b, t) →
      t.batchOf? key = some b
  /-- It is the one that gets another expiry date. -/
  corrected : ∀ expiry b t,
    (correctExpiry key.item key.warehouse text expiry).runFrom s = (.ok b, t) →
      ∃ old, s.batchOf? key = some old ∧ b = { old with expiry } ∧
        (s.Registered → t.batchOf? key = some b)
  /-- Movements of the slot create it if there is none, and leave it alone if there is one. -/
  moved : ∀ m t, m.key = key → (ensureMovementBatch m).runFrom s = (.ok (), t) →
    (∃ b, t.batchOf? key = some b) ∧ ((∃ b, s.batchOf? key = some b) → t = s)

theorem sharesBatch (s : StockState) (named : BatchKey.ofRequiredCode text = .ok key.batch) :
    s.SharesBatch text key := by
  obtain ⟨hnames, hkey⟩ := BatchKey.ofRequiredCode_eq_ok_iff.mp named
  have hreal : key.batch ≠ .noBatch := mt (BatchKey.eq_noBatch_iff hkey).mp hnames.1
  have hbatch (s : StockState) := s.batchOf?_eq hreal
  refine ⟨fun production expiry on b hb => ?_, fun production expiry on b t h => ?_,
    fun expiry b t h => ?_, fun m t hm h => ?_⟩
  · rw [hbatch] at hb
    rw [resolveBatch_named named, ensureBatch_known hb]
  · rw [resolveBatch_named named] at h
    rw [hbatch]
    exact get?_of_ensureBatch h
  · obtain ⟨old, hold, rfl, rfl⟩ := exists_of_correctExpiry named h
    refine ⟨old, (hbatch s).trans hold, rfl, fun hs => ?_⟩
    rw [hbatch, hs.get?_corrected hold, if_pos rfl]
  · subst hm
    have hmoved := hasBatch_of_ensureMovementBatch h
    rwa [hasBatch_iff hreal, hasBatch_iff hreal] at hmoved

end StockState

/-! ## Stores -/

/-- A store takes all texts of which the same is left for one code. -/
structure StockStore.NormalisesCodes {σ : Type} (store : StockStore (StoreM σ)) : Prop where
  /-- A call with a text that names a batch is the call with the code of its key; -/
  resolved : ∀ text k, BatchKey.ofRequiredCode text = .ok k →
    ∀ item warehouse production expiry on,
      store.resolveBatch item warehouse text production expiry on =
        store.resolveBatch item warehouse k.key production expiry on
  corrected : ∀ text k, BatchKey.ofRequiredCode text = .ok k → ∀ item warehouse expiry,
    store.correctExpiry item warehouse text expiry = store.correctExpiry item warehouse k.key expiry
  /-- with any other text it does nothing but fail. -/
  refused : ∀ text e, BatchKey.ofRequiredCode text = .error e →
    ∀ item warehouse production expiry on,
      store.resolveBatch item warehouse text production expiry on = throw (.domain e) ∧
      store.correctExpiry item warehouse text expiry = throw (.domain e)

/-- It is enough that the calls begin with the key of the text, and go on with the key alone. -/
theorem normalisesCodes_of {σ : Type} {store : StockStore (StoreM σ)}
    {resolve : ItemId → WarehouseId → Option Date → Option Date → Date → BatchKey → StoreM σ Batch}
    {correct : ItemId → WarehouseId → Option Date → BatchKey → StoreM σ Batch}
    (hresolve : ∀ item warehouse text production expiry on,
      store.resolveBatch item warehouse text production expiry on =
        StoreM.ofRule (BatchKey.ofRequiredCode text) >>=
          resolve item warehouse production expiry on)
    (hcorrect : ∀ item warehouse text expiry,
      store.correctExpiry item warehouse text expiry =
        StoreM.ofRule (BatchKey.ofRequiredCode text) >>= correct item warehouse expiry) :
    store.NormalisesCodes where
  resolved text k h item warehouse production expiry on := by
    rw [hresolve, hresolve, h, BatchKey.ofRequiredCode_key h]
  corrected text k h item warehouse expiry := by
    rw [hcorrect, hcorrect, h, BatchKey.ofRequiredCode_key h]
  refused text e h item warehouse production expiry on := by
    rw [hresolve, hcorrect, h]
    exact ⟨rfl, rfl⟩

theorem MemoryStock.normalisesCodes : MemoryStock.store.NormalisesCodes :=
  normalisesCodes_of (fun _ _ _ _ _ _ => rfl) fun _ _ _ _ => rfl

theorem Sql.Stock.normalisesCodes : Sql.Stock.store.NormalisesCodes :=
  normalisesCodes_of (fun _ _ _ _ _ _ => rfl) fun _ _ _ _ => rfl

/-! ## All texts -/

open BatchKey in
/-- Two codes that become keys become the same key exactly if the same is left of them once they
are trimmed, where nothing is left of a missing code. The key is that of goods without a batch
exactly if the code is missing or all blanks, and its own code becomes the key again. What does not
become a key are the codes of which the reserved key is left. A text that has to name a batch is
taken exactly if it is not blank and not the reserved key, and becomes the key that it becomes as a
code. Stores take such texts for the code of that key and refuse all others, so that their calls go
about the batch of the slot to which a movement with this code goes. -/
theorem batch_codes_normalised :
    (∀ (a b : Option String) (k l : BatchKey), ofCode a = .ok k → ofCode b = .ok l →
      (k = l ↔ trimmed a = trimmed b)) ∧
    (∀ (a : Option String) (k : BatchKey), ofCode a = .ok k →
      (k = noBatch ↔ IsBlank a) ∧ ofCode k.code? = .ok k) ∧
    (∀ a : Option String, (∃ e, ofCode a = .error e) ↔ trimmed a = reserved) ∧
    (∀ text : String, (∃ k, ofRequiredCode text = .ok k) ↔ NamesBatch text) ∧
    (∀ (text : String) (k : BatchKey), ofRequiredCode text = .ok k →
      ofCode (some text) = .ok k ∧
      ∀ (s : StockState) (item : ItemId) (warehouse : WarehouseId),
        s.SharesBatch text ⟨warehouse, item, k⟩) ∧
    MemoryStock.store.NormalisesCodes ∧ Sql.Stock.store.NormalisesCodes := by
  refine ⟨fun a b k l ha hb => ?_, fun a k ha => ⟨eq_noBatch_iff ha, ofCode_code? ha⟩, fun a => ?_,
    fun text => exists_ofRequiredCode_iff, fun text k h => ⟨?_, fun s item warehouse => ?_⟩,
    MemoryStock.normalisesCodes, Sql.Stock.normalisesCodes⟩
  · obtain ⟨hfreeA, rfl⟩ := ofCode_eq_ok_iff.mp ha
    obtain ⟨hfreeB, rfl⟩ := ofCode_eq_ok_iff.mp hb
    exact ofTrimmed_inj hfreeA hfreeB
  · simp only [ofCode_eq_error_iff, exists_and_left, exists_eq, and_true]
  · exact (ofRequiredCode_eq_ok_iff.mp h).2
  · exact s.sharesBatch h

open Sample BatchKey in
/-- Batch A is written with a blank before it and a wide one behind it, and is found all the same.
A text of one blank names no batch, though as a code it becomes a key. -/
theorem batch_codes_normalised_padded :
    ofCode (some " A\u3000") = .ok ⟨"A"⟩ ∧ ofCode (some "A") = .ok ⟨"A"⟩ ∧
    trimmed (some " A\u3000") = trimmed (some "A") ∧ ¬ IsBlank (some " A\u3000") ∧
    ofCode (BatchKey.code? ⟨"A"⟩) = .ok ⟨"A"⟩ ∧ ofRequiredCode " A\u3000" = .ok ⟨"A"⟩ ∧
    (∃ e, ofCode (some "__NULL_BATCH__ ") = .error e) ∧
    (∃ b, stock.batchOf? (Sample.key "A") = some b ∧
      (resolveBatch ⟨10⟩ ⟨1⟩ " A\u3000" none none .epoch).runFrom stock = (.ok b, stock)) ∧
    ofCode (some "\u2003") = .ok noBatch ∧ ¬ NamesBatch "\u2003" ∧
    ofRequiredCode "\u2003" = .error (.batchResolution "batch_code is required") ∧
    store.correctExpiry ⟨10⟩ ⟨1⟩ "\u2003" (some .last) =
      throw (.domain (.batchResolution "batch_code is required")) := by
  obtain ⟨hsame, hkey, hreserved, hnames, hshares, hmemory, -⟩ := batch_codes_normalised
  have hpadded : ofCode (some " A\u3000") = .ok ⟨"A"⟩ := by decide +kernel
  have hplain : ofCode (some "A") = .ok ⟨"A"⟩ := by decide +kernel
  have hblank : ofCode (some "\u2003") = .ok noBatch := by decide +kernel
  have hrequired : ofRequiredCode " A\u3000" = .ok ⟨"A"⟩ := by decide +kernel
  have hrefused : ofRequiredCode "\u2003" = .error (.batchResolution "batch_code is required") := by
    decide +kernel
  have hnone : ¬ NamesBatch "\u2003" := fun h => by
    obtain ⟨k, hk⟩ := (hnames _).mpr h
    rw [hrefused] at hk
    cases hk
  have hreal : (⟨"A"⟩ : BatchKey) ≠ noBatch := by decide
  have hfound : stock.batchOf? (Sample.key "A") =
      some ⟨1, ⟨10⟩, ⟨1⟩, "A", none, some (midnight 20).date, .epoch⟩ := by decide +kernel
  exact ⟨hpadded, hplain, (hsame _ _ _ _ hpadded hplain).mp rfl,
    mt (hkey _ _ hpadded).1.mpr hreal, (hkey _ _ hplain).2, hrequired,
    (hreserved _).mpr (by decide +kernel), ⟨_, hfound,
      ((hshares _ _ hrequired).2 stock ⟨10⟩ ⟨1⟩).found none none .epoch _ hfound⟩,
    hblank, hnone, hrefused,
    (hmemory.refused _ _ hrefused ⟨10⟩ ⟨1⟩ none (some .last) .epoch).2⟩

end Stockroom
