/-
Stockroom.Proofs.Stock.Repetition — which legs a repeated allocation finds.

How many legs an allocation had is stored nowhere: a repetition collects legs from the first
line on for as long as the lines go up by one. `LegsFrom` says that a list consists of such
legs, and `Ended` that no further leg follows.

* `priorLegs_eq` says what a repetition collects: legs from the first line on that have ended.
  As each line has one entry, every other list of legs from there is the front of it
  (`LegsFrom.prefix_of_ended`).
* `allocation_repeated`: however much has happened since, a repetition finds all the legs of
  the first allocation, in their order, and changes nothing. It finds more than these exactly
  if a leg of the same item and warehouse stands on the next line of the document, whichever
  allocation or movement wrote it (`allocation_repeated_longer`).
-/
import Stockroom.Proofs.Stock.Allocation
import Stockroom.Proofs.Stock.Lines

namespace Stockroom

open StoreM MemoryStock

/-! ## Legs on consecutive lines -/

section Legs

variable {r : AllocationRequest} {entries xs ys : List LedgerEntry} {line : Int}

/-- Whether a list consists of legs among some entries, on consecutive lines from `line` on. -/
def LegsFrom (r : AllocationRequest) (entries : List LedgerEntry) :
    Int → List LedgerEntry → Prop
  | _, [] => True
  | line, e :: rest =>
    e ∈ entries ∧ r.isLeg e = true ∧ e.line = line ∧ LegsFrom r entries (line + 1) rest

/-- Whether no leg stands on the line. -/
def Ended (r : AllocationRequest) (entries : List LedgerEntry) (line : Int) : Prop :=
  ∀ e ∈ entries, e.line = line → r.isLeg e = false

theorem line_add_length_cons (line : Int) (x : LedgerEntry) (xs : List LedgerEntry) :
    line + ((x :: xs).length : Int) = line + 1 + xs.length := by
  rw [List.length_cons]
  omega

/-- Legs on consecutive lines are the front of any other ones that have ended, where each
line has one entry. -/
theorem LegsFrom.prefix_of_ended (hone : (entries.map (·.line)).Nodup)
    (hx : LegsFrom r entries line xs) (hy : LegsFrom r entries line ys)
    (hend : Ended r entries (line + ys.length)) : xs <+: ys := by
  induction xs generalizing line ys with
  | nil => exact List.nil_prefix
  | cons x xs ih =>
    obtain ⟨hmem, hleg, hline, hx⟩ := hx
    cases ys with
    | nil =>
      have := hend x hmem (by simpa using hline)
      rw [hleg] at this
      cases this
    | cons y ys =>
      obtain ⟨hmem', -, hline', hy⟩ := hy
      obtain rfl : x = y := List.inj_on_of_nodup_map hone hmem hmem' (hline.trans hline'.symm)
      rw [line_add_length_cons] at hend
      exact (List.prefix_cons_inj x).mpr (ih hx hy hend)

theorem legsFrom_append :
    LegsFrom r entries line (xs ++ ys) ↔
      LegsFrom r entries line xs ∧ LegsFrom r entries (line + xs.length) ys := by
  induction xs generalizing line with
  | nil => simp [LegsFrom]
  | cons x xs ih => simp only [List.cons_append, LegsFrom, ih, line_add_length_cons, and_assoc]

/-- Legs that have ended are none at all exactly if they have ended where they begin. -/
theorem LegsFrom.eq_nil_iff (hx : LegsFrom r entries line xs)
    (hend : Ended r entries (line + xs.length)) : xs = [] ↔ Ended r entries line := by
  constructor
  · rintro rfl
    simpa using hend
  · intro hnone
    cases xs with
    | nil => rfl
    | cons x xs =>
      obtain ⟨hmem, hleg, hline, -⟩ := hx
      rw [hnone x hmem hline] at hleg
      cases hleg

/-! ## Collecting legs -/

theorem consecutiveFrom_eq_nil {legs : List LedgerEntry} (h : ∀ e ∈ legs, line < e.line) :
    consecutiveFrom line legs = [] := by
  induction legs with
  | nil => rfl
  | cons e rest ih =>
    obtain ⟨he, hrest⟩ := List.forall_mem_cons.mp h
    rw [consecutiveFrom, if_neg (by omega), ih hrest]

/-- Where all legs stand behind the line, none stands on it. -/
theorem ended_of_forall_lt {legs : List LedgerEntry}
    (hmem : ∀ e, e ∈ legs ↔ e ∈ entries ∧ r.isLeg e = true ∧ line ≤ e.line)
    (hlater : ∀ e ∈ legs, line < e.line) : Ended r entries line := by
  intro e he hline
  by_contra hleg
  have := hlater e ((hmem e).mpr ⟨he, eq_true_of_ne_false hleg, by omega⟩)
  omega

/-- Legs that are sorted by line are collected for as long as one stands on the next line. -/
theorem legsFrom_consecutiveFrom {legs : List LedgerEntry}
    (hsorted : legs.Pairwise (fun a b => a.line < b.line))
    (hmem : ∀ e, e ∈ legs ↔ e ∈ entries ∧ r.isLeg e = true ∧ line ≤ e.line) :
    LegsFrom r entries line (consecutiveFrom line legs) ∧
      Ended r entries (line + (consecutiveFrom line legs).length) := by
  induction legs generalizing line with
  | nil =>
    rw [consecutiveFrom, List.length_nil, Int.natCast_zero, Int.add_zero]
    exact ⟨trivial, ended_of_forall_lt hmem (by simp)⟩
  | cons e rest ih =>
    obtain ⟨hhead, hrest⟩ := List.pairwise_cons.mp hsorted
    obtain ⟨he, hleg, hle⟩ := (hmem e).mp List.mem_cons_self
    by_cases hline : e.line = line
    · -- the leg is collected, and all others stand behind its line
      have hmem' : ∀ e', e' ∈ rest ↔
          e' ∈ entries ∧ r.isLeg e' = true ∧ line + 1 ≤ e'.line := by
        intro e'
        constructor
        · intro h
          obtain ⟨h1, h2, -⟩ := (hmem e').mp (List.mem_cons_of_mem _ h)
          have := hhead e' h
          exact ⟨h1, h2, by omega⟩
        · rintro ⟨h1, h2, h3⟩
          rcases List.mem_cons.mp ((hmem e').mpr ⟨h1, h2, by omega⟩) with rfl | h
          · omega
          · exact h
      obtain ⟨hlegs, hend⟩ := ih hrest hmem'
      rw [consecutiveFrom, if_pos hline, line_add_length_cons]
      exact ⟨⟨he, hleg, hline, hlegs⟩, hend⟩
    · have hlater : ∀ e' ∈ e :: rest, line < e'.line := by
        refine List.forall_mem_cons.mpr ⟨by omega, fun e' h => ?_⟩
        have := hhead e' h
        omega
      rw [consecutiveFrom_eq_nil hlater, List.length_nil, Int.natCast_zero, Int.add_zero]
      exact ⟨trivial, ended_of_forall_lt hmem hlater⟩

/-- The entries that entering legs adds are legs on consecutive lines. -/
theorem legsFrom_entriesFor {legs : List AllocationLeg}
    (hlegs : ∀ leg ∈ legs, leg.key.isOf r.item r.warehouse = true ∧ 0 < leg.quantity)
    {s : StockState} (hmem : ∀ e ∈ s.entriesFor (r.legMovementsFrom line legs), e ∈ entries) :
    LegsFrom r entries line (s.entriesFor (r.legMovementsFrom line legs)) := by
  induction legs generalizing s line with
  | nil => trivial
  | cons leg rest ih =>
    obtain ⟨⟨hof, hpos⟩, hrest⟩ := List.forall_mem_cons.mp hlegs
    obtain ⟨hhead, htail⟩ := List.forall_mem_cons.mp hmem
    refine ⟨hhead, ?_, rfl, ih hrest htail⟩
    simp only [AllocationRequest.isLeg, Bool.and_eq_true, decide_eq_true_eq]
    refine ⟨hof, ?_⟩
    show -leg.quantity < 0
    omega

end Legs

/-- Where each element has a key of its own, it is found by its key. -/
theorem find?_key_eq_some_iff {α κ : Type} [BEq κ] [LawfulBEq κ] {key : α → κ} {xs : List α}
    (hone : (xs.map key).Nodup) {k : κ} {x : α} :
    xs.find? (fun y => key y == k) = some x ↔ x ∈ xs ∧ key x = k := by
  constructor
  · intro h
    exact ⟨List.mem_of_find?_eq_some h, by simpa using List.find?_some h⟩
  · rintro ⟨hx, rfl⟩
    obtain ⟨y, hfind⟩ : ∃ y, xs.find? (fun y => key y == key x) = some y := by
      rw [← Option.isSome_iff_exists, List.find?_isSome]
      exact ⟨x, hx, beq_self_eq_true _⟩
    have hkey : key y = key x := by simpa using List.find?_some hfind
    rw [hfind, List.inj_on_of_nodup_map hone (List.mem_of_find?_eq_some hfind) hx hkey]

theorem Indexed.nodup_line_entriesOf {s : StockState} (h : Indexed s) (reference : String) :
    ((s.entriesOf reference).map (·.line)).Nodup := by
  rw [List.Nodup, List.pairwise_map]
  refine (h.pairwise_ne.filter _).imp_of_mem ?_
  intro a b ha hb hne heq
  apply hne
  have ha := (List.mem_filter.mp ha).2
  have hb := (List.mem_filter.mp hb).2
  rw [beq_iff_eq] at ha hb
  exact DocumentLine.ext (ha.trans hb.symm) heq

/-- If a leg stands on the first line, a repetition collects the legs from there on. -/
theorem priorLegs_of_mem {r : AllocationRequest} {entries : List LedgerEntry}
    (hone : (entries.map (·.line)).Nodup) {head : LedgerEntry} (hmem : head ∈ entries)
    (hline : head.line = r.startLine) (hleg : r.isLeg head = true) :
    ∃ legs, priorLegs entries r = .ok (some legs) ∧ LegsFrom r entries r.startLine legs ∧
      Ended r entries (r.startLine + legs.length) := by
  have hfind : entries.find? (fun e => e.line == r.startLine) = some head :=
    (find?_key_eq_some_iff hone).mpr ⟨hmem, hline⟩
  refine ⟨_, by rw [priorLegs, hfind]; exact if_pos hleg, ?_⟩
  apply legsFrom_consecutiveFrom
  · exact pairwise_lt_sortOn (hone.sublist (List.filter_sublist.map _))
  · intro e
    simp only [sortOn, mem_sortBy, List.mem_filter, Bool.and_eq_true, decide_eq_true_eq]
    tauto

/-! ## Repeated allocations -/

/-- The entries of an allocation that was not a repetition stay with its reference. -/
theorem mem_entriesOf_run {s t : StockState} {r : AllocationRequest} {a : AllocationResult}
    (hs : s.Attained) (h : (allocate r).runFrom s = (.ok a, t)) (fresh : a.replayed = false)
    (actions : List StockAction) {e : LedgerEntry} (he : e ∈ a.entries) :
    e ∈ (t.run actions).entriesOf r.reference := by
  obtain ⟨-, -, hentries, rfl⟩ := allocate_fresh hs h fresh
  refine List.mem_filter.mpr ⟨?_, ?_⟩
  · apply (StockState.ledger_prefix_run _ actions).subset
    rw [StockState.ledger_enterAll, ← hentries]
    exact List.mem_append_right _ he
  · have hfields := List.mem_map_of_mem (f := fun e => (e.key, e.delta, e.reference, e.line)) he
    rw [hentries, map_entriesFor_legMovements, List.mem_mapIdx] at hfields
    obtain ⟨i, hi, heq⟩ := hfields
    rw [beq_iff_eq]
    exact (congrArg (fun x => x.2.2.1) heq).symm

/-- The entries of an allocation that was not a repetition are one or more legs from its first
line on, among all entries that have its own. -/
theorem legsFrom_entries {s t : StockState} {r : AllocationRequest} {a : AllocationResult}
    (hs : s.Attained) (h : (allocate r).runFrom s = (.ok a, t)) (fresh : a.replayed = false)
    {entries : List LedgerEntry} (hmem : ∀ e ∈ a.entries, e ∈ entries) :
    a.entries ≠ [] ∧ LegsFrom r entries r.startLine a.entries := by
  obtain ⟨-, hp, hentries, -⟩ := allocate_fresh hs h fresh
  constructor
  · intro hnil
    have hmap := map_entriesFor_legMovements s r a.plan.legs
    rw [← hentries, hnil, List.map_nil, eq_comm, List.mapIdx_eq_nil_iff] at hmap
    exact hp.legs_ne_nil hmap
  · rw [hentries] at hmem ⊢
    refine legsFrom_entriesFor (fun leg hleg => ?_) hmem
    obtain ⟨hof, hpos, -⟩ := hp.covered leg hleg
    exact ⟨hof, hpos⟩

/-- After an allocation that was not a repetition, whatever has happened since, repeating it
succeeds, changes nothing and gives all the entries of the first time, and after them those
legs of the same item and warehouse that go on from there line by line, until none follows.
So it gives the entries of the first time and no more exactly if there is none on the line
right behind them. -/
theorem allocation_repeated {s t : StockState} {r : AllocationRequest} {a : AllocationResult}
    (hs : s.Reachable) (h : (store.allocate r).runFrom s = (.ok a, t))
    (fresh : a.replayed = false) (actions : List StockAction) :
    ∃ later,
      (store.allocate r).runFrom (t.run actions) =
        (.ok ⟨planOfLegs r (a.entries ++ later), a.entries ++ later, true⟩, t.run actions) ∧
      LegsFrom r ((t.run actions).entriesOf r.reference) (r.startLine + a.entries.length)
        later ∧
      Ended r ((t.run actions).entriesOf r.reference)
        (r.startLine + a.entries.length + later.length) ∧
      (later = [] ↔ Ended r ((t.run actions).entriesOf r.reference)
        (r.startLine + a.entries.length)) := by
  have hchanges := allocate_moves r s
  replace h : (allocate r).runFrom s = (.ok a, t) := h
  rw [h] at hchanges
  have hone := ((hs.attained.changes hchanges).run actions).indexed.nodup_line_entriesOf
    r.reference
  obtain ⟨hne, hfirst⟩ := legsFrom_entries hs.attained h fresh
    (fun e he => mem_entriesOf_run hs.attained h fresh actions he)
  -- the first entry makes it a repetition, which collects legs until they have ended
  obtain ⟨head, rest, hcons⟩ := List.exists_cons_of_ne_nil hne
  obtain ⟨hmem, hleg, hline, -⟩ := hcons ▸ hfirst
  obtain ⟨legs, hprior, hlegs, hend⟩ := priorLegs_of_mem hone hmem hline hleg
  -- so what it collects begins with the entries of the first time
  obtain ⟨later, rfl⟩ := hfirst.prefix_of_ended hone hlegs hend
  have hlater := (legsFrom_append.mp hlegs).2
  rw [List.length_append, Int.natCast_add, ← Int.add_assoc] at hend
  refine ⟨later, ?_, hlater, hend, hlater.eq_nil_iff hend⟩
  show (allocate r).runFrom _ = _
  rw [allocate, runFrom_get_bind, hprior]
  rfl

/-- Another order from line 9 on is not taken for a part of the order from line 1 on. -/
theorem allocation_repeated_apart :
    Sample.shipment.replayed = false ∧
    (store.allocate (Sample.order 1 6)).runFrom
        (Sample.shipped.run [.allocate (Sample.order 9 1)]) =
      (.ok ⟨planOfLegs (Sample.order 1 6) Sample.shipment.entries, Sample.shipment.entries, true⟩,
        Sample.shipped.run [.allocate (Sample.order 9 1)]) := by
  obtain ⟨later, hrun, -, -, hnil⟩ := allocation_repeated Sample.reachable_stock
    Sample.allocate_order rfl [.allocate (Sample.order 9 1)]
  have hend : ∀ e ∈ (Sample.shipped.run [.allocate (Sample.order 9 1)]).entriesOf "SO-1",
      e.line = 3 → (Sample.order 1 6).isLeg e = false := by decide +kernel
  obtain rfl := hnil.mpr hend
  rw [List.append_nil] at hrun
  exact ⟨rfl, hrun⟩

/-- Another order from line 3 on, right behind the two lines of the order from line 1 on, is
taken for a part of that: the repetition does not give the entries of the first time. -/
theorem allocation_repeated_longer :
    ¬ ∀ actions, ∃ plan, (store.allocate (Sample.order 1 6)).runFrom (Sample.shipped.run actions) =
      (.ok ⟨plan, Sample.shipment.entries, true⟩, Sample.shipped.run actions) := by
  intro h
  obtain ⟨plan, hrun⟩ := h [.allocate (Sample.order 3 1)]
  have hthree : (match ((store.allocate (Sample.order 1 6)).runFrom
      (Sample.shipped.run [.allocate (Sample.order 3 1)])).1 with
    | .ok a => a.entries.length
    | .error _ => 0) = 3 := by decide +kernel
  rw [hrun] at hthree
  cases hthree

end Stockroom
