/-
Stockroom.Proofs.Audit.Delivery — what subscriptions of the bus have read, and what waits for them.

* `BusRun` is a bus together with all that was read from it; `BusRun.of` does one `BusAction` after
  another to an empty bus. What is published and which subscriptions are left is said of the actions
  alone (`BusAction.messages`, `BusAction.StillOpen`).
* What a subscription has read and what waits for it, one after the other, is all that it was `due`.
  Only a message that is published adds to it (`BusRun.due_step`), so that over a run it is the
  queue that the subscription was opened with, and every message since (`BusRun.due_run`).
-/
import Mathlib.Data.List.Infix
import Stockroom.Proofs.Audit.Hearing

namespace Stockroom

variable {μ : Type}

/-! ## Actions -/

/-- What can be done with a bus. A subscription is meant by its number. -/
inductive BusAction (μ : Type) where
  | publish (m : μ)
  | subscribe
  | subscribeWithBacklog
  | drain (number : Nat)
  | receive (number : Nat)
  | drop (number : Nat)

/-- A bus, and all that was read from it, each message with the number of the subscription. -/
structure BusRun (μ : Type) where
  bus : Bus μ
  reads : List (Nat × μ)

namespace BusAction

/-- Whether a subscription is opened. -/
def opens : BusAction μ → Bool
  | subscribe => true
  | subscribeWithBacklog => true
  | _ => false

/-- The message that is published. -/
def message? : BusAction μ → Option μ
  | publish m => some m
  | _ => none

/-- The messages that actions publish. -/
def messages (actions : List (BusAction μ)) : List μ := actions.filterMap message?

/-- How many subscriptions actions open. -/
def openings (actions : List (BusAction μ)) : Nat := actions.countP opens

/-- What waits for a subscription from its opening on. -/
def backlog (a : BusAction μ) (b : Bus μ) : List μ :=
  match a with
  | subscribeWithBacklog => b.retained
  | _ => []

/-- Whether the subscription with the number `n` is opened and not dropped after that. -/
def StillOpen (actions : List (BusAction μ)) (n : Nat) : Prop :=
  ∃ before a after, actions = before ++ a :: after ∧ a.opens = true ∧ openings before = n ∧
    drop n ∉ after

/-- Does an action. -/
def step (a : BusAction μ) (r : BusRun μ) : BusRun μ :=
  match a with
  | publish m => ⟨r.bus.publish m, r.reads⟩
  | subscribe => ⟨r.bus.subscribe.2, r.reads⟩
  | subscribeWithBacklog => ⟨r.bus.subscribeWithBacklog.2, r.reads⟩
  | drain n => ⟨(r.bus.drain n).2, r.reads ++ (r.bus.drain n).1.map (fun m => (n, m))⟩
  | receive n => ⟨(r.bus.receive n).2, r.reads ++ (r.bus.receive n).1.toList.map (fun m => (n, m))⟩
  | drop n => ⟨r.bus.drop n, r.reads⟩

variable {a : BusAction μ} {actions : List (BusAction μ)} {n : Nat}

theorem messages_concat (actions : List (BusAction μ)) (a : BusAction μ) :
    messages (actions ++ [a]) = messages actions ++ a.message?.toList := by
  cases h : a.message? <;> simp [messages, h]

theorem openings_concat (actions : List (BusAction μ)) (a : BusAction μ) :
    openings (actions ++ [a]) = openings actions + if a.opens then 1 else 0 := by
  simp [openings, List.countP_append, List.countP_cons]

theorem StillOpen.concat (h : StillOpen actions n) (hkeep : a ≠ drop n) :
    StillOpen (actions ++ [a]) n := by
  obtain ⟨before, b, after, rfl, hopens, hn, hdrop⟩ := h
  refine ⟨before, b, after ++ [a], by simp, hopens, hn, ?_⟩
  simp [hdrop, hkeep.symm]

theorem stillOpen_concat (h : a.opens = true) : StillOpen (actions ++ [a]) (openings actions) :=
  ⟨actions, a, [], rfl, h, rfl, List.not_mem_nil⟩

end BusAction

/-! ## Subscriptions -/

namespace Bus

variable {b : Bus μ} {n k : Nat}

/-- The numbers of the subscriptions, the dropped ones that are still counted included. -/
def numbers (b : Bus μ) : List Nat := b.subscriptions.map (·.number)

theorem listens_iff : b.Listens n ↔ ∃ s ∈ b.subscriptions, s.number = n ∧ s.isLive = true := by
  rw [Listens, ← Option.isSome_iff_exists, List.find?_isSome]
  simp

theorem Listens.mem_numbers (h : b.Listens n) : n ∈ b.numbers := by
  obtain ⟨s, hs, hn, -⟩ := listens_iff.mp h
  exact List.mem_map.mpr ⟨s, hs, hn⟩

/-- Nothing waits where there is no subscription. -/
theorem queueOf_of_not_listens (h : ¬ b.Listens n) : b.queueOf n = [] := by
  rw [queueOf]
  split
  · rename_i s hs
    exact absurd ⟨s, hs⟩ h
  · rfl

/-- Right after a message every subscription that is counted is live. -/
theorem mem_numbers_publish (b : Bus μ) (m : μ) :
    n ∈ (b.publish m).numbers ↔ (b.publish m).Listens n := by
  refine ⟨fun h => ?_, Listens.mem_numbers⟩
  obtain ⟨s', hs', hn⟩ := List.mem_map.mp h
  obtain ⟨s, hs, rfl⟩ := List.mem_map.mp hs'
  exact listens_iff.mpr ⟨_, hs', hn, (List.mem_filter.mp hs).2⟩

theorem numbers_update {f : Subscription μ → Subscription μ} (hf : ∀ s, (f s).number = s.number) :
    (b.update k f).numbers = b.numbers := by
  simp only [numbers, update, List.map_map]
  refine List.map_congr_left fun s _ => ?_
  simp only [Function.comp_apply]
  split
  · exact hf s
  · rfl

/-- A change brings no subscription to life. -/
theorem Listens.of_update {f : Subscription μ → Subscription μ}
    (hf : ∀ s, (f s).number = s.number) (h : (b.update k f).Listens n) : b.Listens n := by
  obtain ⟨s', hs', hn, hlive⟩ := listens_iff.mp h
  obtain ⟨s, hs, rfl⟩ := List.mem_map.mp hs'
  split at hn
  · rename_i hk
    obtain ⟨-, hslive⟩ : s.number = k ∧ s.isLive = true := by simpa using hk
    exact listens_iff.mpr ⟨s, hs, (hf s).symm.trans hn, hslive⟩
  · rename_i hk
    rw [if_neg hk] at hlive
    exact listens_iff.mpr ⟨s, hs, hn, hlive⟩

/-- The subscriptions that are changed stay where they are, as long as they stay live. -/
theorem find?_update {f : Subscription μ → Subscription μ} (hf : ∀ s, (f s).number = s.number)
    (hlive : n = k → ∀ s, (f s).isLive = s.isLive) :
    (b.update k f).subscriptions.find? (fun s => s.number == n && s.isLive) =
      (b.subscriptions.find? (fun s => s.number == n && s.isLive)).map
        (fun s => if n = k then f s else s) := by
  rw [update, List.find?_map]
  have hsame : (fun s => s.number == n && s.isLive) ∘
      (fun s => if s.number = k && s.isLive then f s else s) =
        fun s : Subscription μ => s.number == n && s.isLive := by
    funext s
    simp only [Function.comp_apply]
    split
    · rename_i hs
      obtain ⟨hk, -⟩ : s.number = k ∧ s.isLive = true := by simpa using hs
      rw [hf]
      by_cases hn : s.number = n
      · rw [hlive (hn.symm.trans hk)]
      · rw [beq_false_of_ne hn, Bool.false_and, Bool.false_and]
    · rfl
  rw [hsame]
  refine Option.map_congr fun s hs => ?_
  obtain ⟨hn, hs⟩ : s.number = n ∧ s.isLive = true := by simpa using List.find?_some hs
  simp [hn, hs]

theorem find?_open (b : Bus μ) (backlog : List μ) (h : b.Listens n) :
    (b.open backlog).2.subscriptions.find? (fun s => s.number == n && s.isLive) =
      b.subscriptions.find? (fun s => s.number == n && s.isLive) := by
  obtain ⟨s, hs⟩ := h
  simp [«open», List.find?_append, hs]

/-- What is read of a queue, and what is left of it. -/
theorem head?_append_drop (ms : List μ) : ms.head?.toList ++ ms.drop 1 = ms := by
  cases ms <;> rfl

end Bus

/-! ## Runs -/

namespace BusRun

/-- What comes of actions done to an empty bus. -/
def of (retention : Nat) (actions : List (BusAction μ)) : BusRun μ :=
  actions.foldl (fun r a => a.step r) ⟨.empty retention, []⟩

/-- What the subscription with the number `n` has read. -/
def readBy (r : BusRun μ) (n : Nat) : List μ := (r.reads.filter (fun p => p.1 == n)).map (·.2)

/-- What the subscription with the number `n` has read, and what waits for it. -/
def due (r : BusRun μ) (n : Nat) : List μ := r.readBy n ++ r.bus.queueOf n

/-- Numbers are given away once: all subscriptions have different ones, and nobody has read under
one that is still to come. -/
structure Numbered (r : BusRun μ) : Prop where
  apart : r.bus.numbers.Nodup
  lt_opened : ∀ n ∈ r.bus.numbers, n < r.bus.opened
  reads_lt : ∀ p ∈ r.reads, p.1 < r.bus.opened

variable {r : BusRun μ} {a : BusAction μ} {n k : Nat}

theorem of_concat (retention : Nat) (actions : List (BusAction μ)) (a : BusAction μ) :
    of retention (actions ++ [a]) = a.step (of retention actions) := by
  rw [of, List.foldl_append]
  rfl

theorem readBy_append (bus : Bus μ) (reads : List (Nat × μ)) (k n : Nat) (ms : List μ) :
    (⟨bus, reads ++ ms.map (fun m => (k, m))⟩ : BusRun μ).readBy n =
      (⟨bus, reads⟩ : BusRun μ).readBy n ++ if k = n then ms else [] := by
  by_cases h : k = n
  · simp [readBy, List.filter_map, Function.comp_def, h]
  · simp [readBy, List.filter_map, Function.comp_def, h]

/-! ### Numbers -/

theorem Numbered.opened (h : r.Numbered) (backlog : List μ) :
    Numbered ⟨(r.bus.open backlog).2, r.reads⟩ where
  apart := by
    have hfresh : r.bus.opened ∉ r.bus.numbers := fun hmem => Nat.lt_irrefl _ (h.lt_opened _ hmem)
    simpa [Bus.numbers, Bus.open, List.nodup_append] using
      ⟨h.apart, fun s hs heq => hfresh (heq ▸ List.mem_map_of_mem hs)⟩
  lt_opened m hm := by
    simp only [Bus.numbers, Bus.open, List.map_append, List.mem_append, List.map_cons, List.map_nil,
      List.mem_singleton] at hm
    rcases hm with hm | rfl
    · exact Nat.lt_succ_of_lt (h.lt_opened m hm)
    · exact Nat.lt_succ_self _
  reads_lt p hp := Nat.lt_succ_of_lt (h.reads_lt p hp)

/-- To read from a subscription, or to drop it, leaves every number alone. -/
theorem Numbered.updated (h : r.Numbered) (k : Nat) (ms : List μ)
    {f : Subscription μ → Subscription μ} (hf : ∀ s, (f s).number = s.number)
    (hms : ms ≠ [] → r.bus.Listens k) :
    Numbered ⟨r.bus.update k f, r.reads ++ ms.map (fun m => (k, m))⟩ where
  apart := by
    rw [Bus.numbers_update hf]
    exact h.apart
  lt_opened m hm := by
    rw [Bus.numbers_update hf] at hm
    exact h.lt_opened m hm
  reads_lt p hp := by
    rcases List.mem_append.mp hp with hp | hp
    · exact h.reads_lt p hp
    · obtain ⟨m, hm, rfl⟩ := List.mem_map.mp hp
      exact h.lt_opened k (hms (List.ne_nil_of_mem hm)).mem_numbers

theorem Numbered.step (h : r.Numbered) (a : BusAction μ) : (a.step r).Numbered := by
  have hread {k : Nat} {ms : List μ} (hms : r.bus.queueOf k = [] → ms = []) (hne : ms ≠ []) :
      r.bus.Listens k := by
    by_contra hnone
    exact hne (hms (Bus.queueOf_of_not_listens hnone))
  cases a with
  | publish m =>
    have hkept : (r.bus.publish m).numbers.Sublist r.bus.numbers := by
      simp only [Bus.numbers, Bus.publish, List.map_map]
      exact List.filter_sublist.map _
    exact ⟨h.apart.sublist hkept, fun n hn => h.lt_opened n (hkept.subset hn), h.reads_lt⟩
  | subscribe => exact h.opened []
  | subscribeWithBacklog => exact h.opened r.bus.retained
  | drain k => exact h.updated k _ (f := fun s => { s with queue := [] }) (fun _ => rfl) (hread id)
  | receive k =>
    refine h.updated k _ (f := fun s => { s with queue := s.queue.drop 1 }) (fun _ => rfl)
      (hread fun hnone => ?_)
    simp [Bus.receive, hnone]
  | drop k =>
    have hdropped := h.updated k [] (f := fun s => { s with isLive := false }) (fun _ => rfl)
      (absurd rfl)
    rwa [List.map_nil, List.append_nil] at hdropped

theorem numbered_of (retention : Nat) (actions : List (BusAction μ)) :
    (of retention actions).Numbered := by
  induction actions using List.reverseRecOn with
  | nil => exact ⟨.nil, nofun, nofun⟩
  | append_singleton actions a ih =>
    rw [of_concat]
    exact ih.step a

/-! ### Steps -/

/-- What is taken from the front of a queue is read, so that the subscription is due what it was. -/
theorem due_read (h : r.bus.Listens n) (k : Nat) {ms : List μ} (left : List μ → List μ)
    (hms : ms ++ left (r.bus.queueOf k) = r.bus.queueOf k) :
    (r.bus.update k fun s => { s with queue := left s.queue }).Listens n ∧
      due ⟨r.bus.update k fun s => { s with queue := left s.queue },
        r.reads ++ ms.map (fun m => (k, m))⟩ n = r.due n := by
  obtain ⟨s, hs⟩ := h
  have hfind := Bus.find?_update (b := r.bus) (n := n) (k := k)
    (f := fun s => { s with queue := left s.queue }) (fun _ => rfl) (fun _ _ => rfl)
  rw [hs, Option.map_some] at hfind
  refine ⟨⟨_, hfind⟩, ?_⟩
  rw [due, due, readBy_append, List.append_assoc]
  refine congrArg _ ?_
  by_cases hk : k = n
  · subst hk
    simpa [Bus.queueOf, hfind, hs] using hms
  · simp [Bus.queueOf, hfind, hs, hk, Ne.symm hk]

/-- A live subscription is dropped, or it stays live and is due the message that is published, if
one is. -/
theorem due_step (h : r.bus.Listens n) (hkeep : a ≠ .drop n) :
    (a.step r).bus.Listens n ∧ (a.step r).due n = r.due n ++ a.message?.toList := by
  have silent {r' : BusRun μ} (h : r'.bus.Listens n ∧ r'.due n = r.due n) :
      r'.bus.Listens n ∧ r'.due n = r.due n ++ [] := by rwa [List.append_nil]
  have opened (backlog : List μ) : (r.bus.open backlog).2.Listens n ∧
      due ⟨(r.bus.open backlog).2, r.reads⟩ n = r.due n := by
    obtain ⟨s, hs⟩ := h
    have hfind := Bus.find?_open r.bus backlog ⟨s, hs⟩
    refine ⟨⟨s, hfind.trans hs⟩, ?_⟩
    simp only [due, readBy, Bus.queueOf, hfind]
  cases a with
  | publish m =>
    refine ⟨h.publish m, ?_⟩
    show r.readBy n ++ (r.bus.publish m).queueOf n = r.due n ++ [m]
    rw [Bus.queueOf_publish h, due, List.append_assoc]
  | subscribe => exact silent (opened [])
  | subscribeWithBacklog => exact silent (opened r.bus.retained)
  | drain k => exact silent (due_read h k (fun _ => []) (List.append_nil _))
  | receive k => exact silent (due_read h k (fun ms => ms.drop 1) (Bus.head?_append_drop _))
  | drop k =>
    obtain ⟨s, hs⟩ := h
    have hk : n ≠ k := fun hn => hkeep (hn ▸ rfl)
    have hfind := Bus.find?_update (b := r.bus) (n := n) (k := k)
      (f := fun s => { s with isLive := false }) (fun _ => rfl) (fun hn => absurd hn hk)
    rw [hs, Option.map_some, if_neg hk] at hfind
    refine ⟨⟨s, hfind⟩, ?_⟩
    simp [BusAction.step, BusAction.message?, due, readBy, Bus.queueOf, Bus.drop, hfind, hs]

/-- Until it is dropped a subscription stays live, and is due every message. -/
theorem due_run {actions : List (BusAction μ)} (h : r.bus.Listens n)
    (hkeep : .drop n ∉ actions) :
    (actions.foldl (fun r a => a.step r) r).bus.Listens n ∧
      (actions.foldl (fun r a => a.step r) r).due n = r.due n ++ BusAction.messages actions := by
  induction actions generalizing r with
  | nil => exact ⟨h, (List.append_nil _).symm⟩
  | cons a rest ih =>
    obtain ⟨ha, hrest⟩ := List.ne_and_not_mem_of_not_mem_cons hkeep
    obtain ⟨hstep, hdue⟩ := due_step h (Ne.symm ha)
    obtain ⟨hlisten, hall⟩ := ih hstep hrest
    refine ⟨hlisten, ?_⟩
    rw [List.foldl_cons, hall, hdue, List.append_assoc]
    cases hm : a.message? <;> simp [BusAction.messages, hm]

/-! ### Openings -/

theorem opened_step (r : BusRun μ) (a : BusAction μ) :
    (a.step r).bus.opened = r.bus.opened + if a.opens then 1 else 0 := by
  cases a <;> rfl

theorem opened_of (retention : Nat) (actions : List (BusAction μ)) :
    (of retention actions).bus.opened = BusAction.openings actions := by
  induction actions using List.reverseRecOn with
  | nil => rfl
  | append_singleton actions a ih => rw [of_concat, opened_step, ih, BusAction.openings_concat]

/-- A subscription that was just opened is live, and is due its backlog. -/
theorem due_opened (h : r.Numbered) (backlog : List μ) :
    (r.bus.open backlog).2.Listens r.bus.opened ∧
      due ⟨(r.bus.open backlog).2, r.reads⟩ r.bus.opened = backlog := by
  have hnone :
      r.bus.subscriptions.find? (fun s => s.number == r.bus.opened && s.isLive) = none := by
    rw [List.find?_eq_none]
    intro s hs hfound
    obtain ⟨hn, -⟩ : s.number = r.bus.opened ∧ s.isLive = true := by simpa using hfound
    exact Nat.ne_of_lt (h.lt_opened _ (List.mem_map_of_mem hs)) hn
  have hfind : (r.bus.open backlog).2.subscriptions.find?
      (fun s => s.number == r.bus.opened && s.isLive) = some ⟨r.bus.opened, backlog, true⟩ := by
    simp [Bus.open, List.find?_append, hnone]
  have hunread : r.reads.filter (fun p => p.1 == r.bus.opened) = [] := by
    rw [List.filter_eq_nil_iff]
    intro p hp
    simp [Nat.ne_of_lt (h.reads_lt p hp)]
  refine ⟨⟨_, hfind⟩, ?_⟩
  simp [due, readBy, Bus.queueOf, hfind, hunread]

/-- From its opening on a subscription is live and is due its backlog. -/
theorem due_opening (h : r.Numbered) (ha : a.opens = true) :
    (a.step r).bus.Listens r.bus.opened ∧
      (a.step r).due r.bus.opened = a.backlog r.bus := by
  cases a with
  | subscribe => exact due_opened h []
  | subscribeWithBacklog => exact due_opened h r.bus.retained
  | _ => cases ha

/-- A subscription that is live after an action was opened by it, or was live before and is not
the one that was dropped. -/
theorem listens_step (h : (a.step r).bus.Listens n) :
    (a.opens = true ∧ n = r.bus.opened) ∨ (r.bus.Listens n ∧ a ≠ .drop n) := by
  have opened {backlog : List μ} (h : (r.bus.open backlog).2.Listens n) :
      n = r.bus.opened ∨ r.bus.Listens n := by
    obtain ⟨s, hs, hn, hlive⟩ := Bus.listens_iff.mp h
    rcases List.mem_append.mp hs with hs | hs
    · exact .inr (Bus.listens_iff.mpr ⟨s, hs, hn, hlive⟩)
    · rw [List.mem_singleton.mp hs] at hn
      exact .inl hn.symm
  cases a with
  | publish m =>
    obtain ⟨s', hs', hn, hlive⟩ := Bus.listens_iff.mp h
    obtain ⟨s, hs, rfl⟩ := List.mem_map.mp hs'
    exact .inr ⟨Bus.listens_iff.mpr ⟨s, List.mem_of_mem_filter hs, hn, hlive⟩, nofun⟩
  | subscribe => exact (opened h).imp (⟨rfl, ·⟩) (⟨·, nofun⟩)
  | subscribeWithBacklog => exact (opened h).imp (⟨rfl, ·⟩) (⟨·, nofun⟩)
  | drain k =>
    exact .inr ⟨.of_update (f := fun s => { s with queue := [] }) (fun _ => rfl) h, nofun⟩
  | receive k =>
    exact .inr
      ⟨.of_update (f := fun s => { s with queue := s.queue.drop 1 }) (fun _ => rfl) h, nofun⟩
  | drop k =>
    refine .inr ⟨.of_update (f := fun s => { s with isLive := false }) (fun _ => rfl) h, ?_⟩
    rintro ⟨⟩
    obtain ⟨s', hs', hn, hlive⟩ := Bus.listens_iff.mp h
    obtain ⟨s, hs, rfl⟩ := List.mem_map.mp hs'
    split at hlive <;> simp_all

/-- The live subscriptions are those that were opened and not dropped. -/
theorem listens_of_iff (retention : Nat) (actions : List (BusAction μ)) :
    (of retention actions).bus.Listens n ↔ BusAction.StillOpen actions n := by
  constructor
  · intro h
    induction actions using List.reverseRecOn with
    | nil => simp [of, Bus.Listens, Bus.empty] at h
    | append_singleton actions a ih =>
      rw [of_concat] at h
      rcases listens_step h with ⟨ha, rfl⟩ | ⟨hbefore, hkeep⟩
      · rw [opened_of]
        exact BusAction.stillOpen_concat ha
      · exact (ih hbefore).concat hkeep
  · rintro ⟨before, a, after, rfl, ha, rfl, hkeep⟩
    rw [of, List.foldl_append, List.foldl_cons, ← opened_of retention before]
    refine (due_run (due_opening (numbered_of retention before) ha).1 ?_).1
    rwa [opened_of]

/-! ### Retained messages -/

theorem lastOf_append_singleton (k : Nat) (ms : List μ) (m : μ) :
    Bus.lastOf k (Bus.lastOf k ms ++ [m]) = Bus.lastOf k (ms ++ [m]) := by
  simp only [Bus.lastOf, List.length_append, List.length_drop, List.length_singleton]
  rw [← List.drop_append_of_le_length (by omega : ms.length - k ≤ ms.length), List.drop_drop]
  congr 1
  omega

/-- What is retained hangs on the messages alone, and every message is counted. -/
theorem retained_of (retention : Nat) (actions : List (BusAction μ)) :
    (of retention actions).bus.retention = retention ∧
      (of retention actions).bus.retained = Bus.lastOf retention (BusAction.messages actions) ∧
      (of retention actions).bus.published = (BusAction.messages actions).length := by
  induction actions using List.reverseRecOn with
  | nil => exact ⟨rfl, List.drop_nil.symm, rfl⟩
  | append_singleton actions a ih =>
    obtain ⟨hretention, hretained, hpublished⟩ := ih
    rw [of_concat, BusAction.messages_concat]
    cases a with
    | publish m =>
      refine ⟨hretention, ?_, ?_⟩
      · show Bus.lastOf (of retention actions).bus.retention (_ ++ [m]) = _
        rw [hretention, hretained]
        exact lastOf_append_singleton retention _ m
      · show (of retention actions).bus.published + 1 = _
        rw [hpublished, BusAction.message?, Option.toList_some, List.length_append,
          List.length_singleton]
    | _ =>
      refine ⟨hretention, hretained.trans ?_, hpublished.trans ?_⟩
      · exact congrArg _ (List.append_nil _).symm
      · exact congrArg _ (List.append_nil _).symm

end BusRun

/-! ## Delivery -/

open BusAction in
/-- Whatever is done with a bus, it retains the last messages and counts all of them. Subscriptions
get their numbers in order. What a live one has read, and then what waits for it, are the messages
that were retained when it was opened, if it asked for them, and then all that were published since.
Right after a message the subscriptions that are counted are those that are still open. -/
theorem bus_delivers (retention : Nat) (actions : List (BusAction μ)) :
    ((BusRun.of retention actions).bus.retained <:+ messages actions ∧
      (BusRun.of retention actions).bus.retained.length =
        min retention (messages actions).length) ∧
    (BusRun.of retention actions).bus.published = (messages actions).length ∧
    (BusRun.of retention actions).bus.opened = openings actions ∧
    (∀ before a after, actions = before ++ a :: after → a.opens = true →
      drop (openings before) ∉ after →
      (BusRun.of retention actions).readBy (openings before) ++
          (BusRun.of retention actions).bus.queueOf (openings before) =
        a.backlog (BusRun.of retention before).bus ++ messages after) ∧
    (∀ before m, actions = before ++ [publish m] → ∃ numbers : List Nat, numbers.Nodup ∧
      (∀ n, n ∈ numbers ↔ StillOpen actions n) ∧
      (BusRun.of retention actions).bus.subscribers = numbers.length) := by
  obtain ⟨-, hretained, hpublished⟩ := BusRun.retained_of retention actions
  refine ⟨⟨?_, ?_⟩, hpublished, BusRun.opened_of retention actions, ?_, ?_⟩
  · rw [hretained]
    exact List.drop_suffix _ _
  · rw [hretained, Bus.lastOf, List.length_drop]
    omega
  · rintro before a after rfl ha hkeep
    have hnumber := BusRun.opened_of retention before
    have hopening := BusRun.due_opening (BusRun.numbered_of retention before) ha
    rw [hnumber] at hopening
    have hrun := (BusRun.due_run hopening.1 hkeep).2
    rw [hopening.2] at hrun
    rw [BusRun.of, List.foldl_append, List.foldl_cons]
    exact hrun
  · rintro before m rfl
    refine ⟨(BusRun.of retention (before ++ [publish m])).bus.numbers,
      (BusRun.numbered_of retention _).apart, fun n => ?_, (List.length_map _).symm⟩
    rw [← BusRun.listens_of_iff retention, BusRun.of_concat]
    exact Bus.mem_numbers_publish _ m

namespace Sample

/-- Two subscriptions are opened after three messages, one of them with its backlog. That one reads
after the fourth message; the other one is dropped before the fifth. -/
def lateListening : List (BusAction Nat) :=
  [.publish 1, .publish 2, .publish 3, .subscribe, .subscribeWithBacklog, .publish 4, .drain 1,
    .drop 0, .publish 5]

end Sample

open BusAction Sample in
/-- On a bus that retains two messages the late subscription gets the last two and then the rest. -/
theorem bus_delivers_late :
    (lateListening = lateListening.take 4 ++ subscribeWithBacklog :: lateListening.drop 5 ∧
      subscribeWithBacklog.opens (μ := Nat) = true ∧
      drop (openings (lateListening.take 4)) ∉ lateListening.drop 5) ∧
    lateListening = lateListening.take 8 ++ [publish 5] ∧
    (BusRun.of 2 lateListening).readBy 1 ++ (BusRun.of 2 lateListening).bus.queueOf 1 =
      [2, 3] ++ [4, 5] ∧
    ∃ numbers : List Nat, numbers.Nodup ∧ (∀ n, n ∈ numbers ↔ StillOpen lateListening n) ∧
      (BusRun.of 2 lateListening).bus.subscribers = numbers.length := by
  have hkeep : drop (openings (lateListening.take 4)) ∉ lateListening.drop 5 := by
    simp [lateListening, openings, opens]
  obtain ⟨-, -, -, hdue, hcount⟩ := bus_delivers 2 lateListening
  have hlate :=
    hdue (lateListening.take 4) subscribeWithBacklog (lateListening.drop 5) rfl rfl hkeep
  exact ⟨⟨rfl, rfl, hkeep⟩, rfl, hlate, hcount (lateListening.take 8) 5 rfl⟩

end Stockroom
