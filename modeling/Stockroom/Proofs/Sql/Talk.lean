/-
Stockroom.Proofs.Sql.Talk — what a step says to a server, and what it answers then.

* `Session.said` adds exchanges to the history of a session. Nothing else about a session ever
  changes, so that a step is described by the exchanges it adds and by its answer: a `Talk`.
* `Says u x talk`: wherever the history of the session `u` may stand, what `x` says to its server
  and then answers is a `talk`. `Says.bind` follows a sequence: the rest of it continues what its
  first part has said.
* `Asks x q read`: the step `x` sends the one statement `q`, and its answer is read off the reply.
  Nearly all parts of the stores are steps of this kind.
* `Sends p`: the talk of whoever sends nothing but statements of one kind.
* `Conversation`: all that a transaction can come to, given the talk of its body.
-/
import Stockroom.Proofs.Step
import Stockroom.Sql.Session

namespace Stockroom

namespace Sql

open StoreM

/-! ## Sessions -/

namespace Session

/-- The reply that a statement gets next. -/
def reply (s : Session) (q : Statement) : Reply := s.server s.history q

/-- The session after some more exchanges. -/
def said (s : Session) (xs : List Exchange) : Session := { s with history := s.history ++ xs }

@[simp] theorem said_nil (s : Session) : s.said [] = s := by
  simp [said]

end Session

/-! ## Talks -/

/-- What is said, and what is answered then. -/
abbrev Talk (α : Type) := List Exchange → Except StoreError α → Prop

/-- Whatever was said in the session before, what the step says and then answers is the talk. -/
def Says {α : Type} (u : Session) (x : SqlM α) (talk : Talk α) : Prop :=
  ∀ past, ∃ xs, (x.runFrom { u with history := past }).2 = { u with history := past ++ xs } ∧
    talk xs (x.runFrom { u with history := past }).1

section Rules

variable {α β : Type} {u : Session} {x : SqlM α} {f : α → SqlM β} {t : Talk α} {v : Talk β}

/-- In particular from where the session stands now. -/
theorem Says.here (h : Says u x t) :
    ∃ xs, (x.runFrom u).2 = u.said xs ∧ t xs (x.runFrom u).1 := h u.history

theorem Says.imp {t' : Talk α} (h : Says u x t) (himp : ∀ xs out, t xs out → t' xs out) :
    Says u x t' := by
  intro past
  obtain ⟨xs, hrun, ht⟩ := h past
  exact ⟨xs, hrun, himp xs _ ht⟩

/-- Two talks of one step are about the same exchanges. -/
theorem Says.and {t' : Talk α} (h : Says u x t) (h' : Says u x t') :
    Says u x (fun xs out => t xs out ∧ t' xs out) := by
  intro past
  obtain ⟨xs, hrun, ht⟩ := h past
  obtain ⟨ys, hrun', ht'⟩ := h' past
  have heq : xs = ys := List.append_cancel_left (congrArg Session.history (hrun.symm.trans hrun'))
  exact ⟨xs, hrun, ht, heq ▸ ht'⟩

/-- A step that says nothing. -/
theorem says_of_silent {out : Except StoreError α} (h : ∀ s, x.runFrom s = (out, s))
    (ht : t [] out) : Says u x t := by
  intro past
  refine ⟨[], ?_, ?_⟩
  · rw [h, List.append_nil]
  · rw [h]
    exact ht

theorem says_pure {a : α} (ht : t [] (.ok a)) : Says u (pure a) t :=
  says_of_silent (fun _ => rfl) ht

theorem says_throw {e : StoreError} (ht : t [] (.error e)) : Says u (throw e : SqlM α) t :=
  says_of_silent (fun _ => rfl) ht

/-- A sequence: its first part fails, or the rest goes on behind what the first part said. -/
theorem Says.bind (hx : Says u x t) (herr : ∀ xs e, t xs (.error e) → v xs (.error e))
    (hok : ∀ xs a, t xs (.ok a) → Says u (f a) (fun ys out => v (xs ++ ys) out)) :
    Says u (x >>= f) v := by
  intro past
  obtain ⟨xs, hrun, ht⟩ := hx past
  rw [runFrom_bind]
  generalize x.runFrom { u with history := past } = out at hrun ht
  rcases out with ⟨e | a, s⟩
  · exact ⟨xs, hrun, herr xs e ht⟩
  · obtain rfl : s = _ := hrun
    obtain ⟨ys, hrun', ht'⟩ := hok xs a ht (past ++ xs)
    exact ⟨xs ++ ys, by rw [hrun', List.append_assoc], ht'⟩

/-- A sequence behind a rule. -/
theorem says_ofRule_bind {rule : Except DomainError α}
    (herr : ∀ e, rule = .error e → v [] (.error (.domain e)))
    (hok : ∀ a, rule = .ok a → Says u (f a) v) : Says u (StoreM.ofRule rule >>= f) v := by
  cases h : rule with
  | error e => exact says_of_silent (fun _ => rfl) (herr e h)
  | ok a => exact hok a h

/-- A sequence behind a result. -/
theorem says_ofResult_bind {result : Except StoreError α}
    (herr : ∀ e, result = .error e → v [] (.error e))
    (hok : ∀ a, result = .ok a → Says u (f a) v) : Says u (StoreM.ofResult result >>= f) v := by
  cases h : result with
  | error e => exact says_of_silent (fun _ => rfl) (herr e h)
  | ok a => exact hok a h

end Rules

/-! ## Questions -/

/-- The step sends the statement `q`, and reads its answer off the reply. -/
def Asks {α : Type} (x : SqlM α) (q : Statement) (read : Reply → Except StoreError α) : Prop :=
  ∀ s : Session, x.runFrom s = (read (s.reply q), s.said [⟨q, s.reply q⟩])

section Questions

variable {α β : Type} {u : Session} {x : SqlM α} {f : α → SqlM β} {q : Statement}
  {read : Reply → Except StoreError α}

theorem Asks.talk {t : Talk α} (hx : Asks x q read)
    (h : ∀ past, t [⟨q, u.server past q⟩] (read (u.server past q))) : Says u x t := by
  intro past
  refine ⟨[⟨q, u.server past q⟩], ?_, ?_⟩
  · rw [hx]
    rfl
  · rw [hx]
    exact h past

/-- A sequence behind a question. -/
theorem Asks.bind_talk {v : Talk β} (hx : Asks x q read)
    (herr : ∀ past e, read (u.server past q) = .error e → v [⟨q, u.server past q⟩] (.error e))
    (hok : ∀ past a, read (u.server past q) = .ok a →
      Says u (f a) (fun ys out => v (⟨q, u.server past q⟩ :: ys) out)) : Says u (x >>= f) v := by
  refine Says.bind (hx.talk (t := fun xs out => ∃ past,
    xs = [⟨q, u.server past q⟩] ∧ out = read (u.server past q)) fun past => ⟨past, rfl, rfl⟩) ?_ ?_
  · rintro xs e ⟨past, rfl, h⟩
    exact herr past e h.symm
  · rintro xs a ⟨past, rfl, h⟩
    exact hok past a h.symm

/-- To work on what was read is a question as well. -/
theorem Asks.bind {g : α → Except StoreError β} (hx : Asks x q read)
    (hf : ∀ a s, (f a).runFrom s = (g a, s)) : Asks (x >>= f) q (fun r => read r >>= g) := by
  intro s
  rw [runFrom_bind, hx]
  dsimp only
  cases read (s.reply q) with
  | error e => rfl
  | ok a => exact hf a _

theorem asks_send (q : Statement) : Asks (send q) q .ok := fun _ => rfl

end Questions

/-! ## Kinds of statements -/

/-- Whether everything that is sent is of such a kind. -/
def Sends {α : Type} (p : Statement → Prop) : Talk α := fun xs _ => ∀ x ∈ xs, p x.statement

section Kinds

variable {α β : Type} {u : Session} {x : SqlM α} {f : α → SqlM β} {p : Statement → Prop}
  {q : Statement} {read : Reply → Except StoreError α}

theorem sends_nil {out : Except StoreError α} : Sends p [] out := fun _ hx => nomatch hx

theorem Says.sends_bind (hx : Says u x (Sends p)) (hf : ∀ a, Says u (f a) (Sends p)) :
    Says u (x >>= f) (Sends p) := by
  refine hx.bind (fun xs e h => h) fun xs a h => (hf a).imp fun ys out h' => ?_
  intro y hy
  obtain hy | hy := List.mem_append.mp hy
  · exact h y hy
  · exact h' y hy

theorem Says.sends_imp {p' : Statement → Prop} (hx : Says u x (Sends p)) (h : ∀ q, p q → p' q) :
    Says u x (Sends p') := hx.imp fun _ _ hxs y hy => h _ (hxs y hy)

theorem Asks.sends (hx : Asks x q read) (hq : p q) : Says u x (Sends p) :=
  hx.talk fun _ => by simpa [Sends] using hq

end Kinds

/-! ## Replies -/

namespace Reply

/-- The rows of a reply, or its error as a failure of the operation. -/
def found (operation : String) : Reply → Except StoreError (List Row)
  | .rows rs => .ok rs
  | .error e => .error (e.toStoreError operation)

/-- All rows of a reply, read one after another. -/
def all {α : Type} (operation : String) (read : Row → Except StoreError α) (r : Reply) :
    Except StoreError (List α) := do
  (← r.found operation).mapM read

/-- The first row of a reply, if there is one. -/
def first? {α : Type} (operation : String) (read : Row → Except StoreError α) (r : Reply) :
    Except StoreError (Option α) := do
  match (← r.found operation).head? with
  | none => pure none
  | some row => do pure (some (← read row))

/-- The first row of a reply, which must not be empty. -/
def first {α : Type} (operation : String) (read : Row → Except StoreError α) (r : Reply) :
    Except StoreError α := do
  match (← r.found operation).head? with
  | none => .error (.storage ("unexpected row not found in " ++ operation))
  | some row => read row

end Reply

section Replies

variable {α : Type}

theorem asks_rows (operation : String) (q : Statement) :
    Asks (rows operation q) q (Reply.found operation) := by
  intro s
  rw [rows, runFrom_bind, asks_send]
  cases h : s.reply q <;> rfl

theorem asks_row? (operation : String) (q : Statement) :
    Asks (row? operation q) q (Reply.first? operation .ok) := by
  intro s
  rw [row?, runFrom_bind, asks_rows]
  unfold Reply.first?
  cases h : (s.reply q).found operation with
  | error e => rfl
  | ok rs => cases rs <;> rfl

theorem asks_row (operation : String) (q : Statement) :
    Asks (row operation q) q (Reply.first operation .ok) := by
  intro s
  rw [row, runFrom_bind, asks_row?]
  unfold Reply.first? Reply.first
  cases h : (s.reply q).found operation with
  | error e => rfl
  | ok rs => cases rs <;> rfl

theorem asks_execute (operation : String) (q : Statement) :
    Asks (execute operation q) q (fun r => (r.found operation).map (fun _ => ())) := by
  intro s
  rw [execute, runFrom_bind, asks_rows]
  dsimp only
  cases (s.reply q).found operation <;> rfl

end Replies

/-! ## Transactions -/

/-- What a transaction can come to: no connection is given out, it is not begun, its body fails,
its body has found nothing to do, it is committed, or the commit fails. -/
inductive Conversation {α : Type} (u : Session) (talk : Talk (Ending α)) : Talk α where
  | closed {e : StoreError} (shut : u.isOpen = false) : Conversation u talk [] (.error e)
  | unbegun {e : ServerError} (refused : ∃ past, u.server past .begin = .error e) :
      Conversation u talk [⟨.begin, .error e⟩] (.error (e.toStoreError "begin_transaction"))
  | failed {b : List Row} {xs : List Exchange} {e : StoreError} {r : Reply}
      (body : talk xs (.error e)) :
      Conversation u talk (⟨.begin, .rows b⟩ :: (xs ++ [⟨.rollback, r⟩])) (.error e)
  | left {b : List Row} {xs : List Exchange} {a : α} {r : Reply}
      (body : talk xs (.ok (.leave a))) :
      Conversation u talk (⟨.begin, .rows b⟩ :: (xs ++ [⟨.rollback, r⟩])) (.ok a)
  | kept {b : List Row} {xs : List Exchange} {a : α} {c : List Row}
      (body : talk xs (.ok (.keep a))) :
      Conversation u talk (⟨.begin, .rows b⟩ :: (xs ++ [⟨.commit, .rows c⟩])) (.ok a)
  | uncommitted {b : List Row} {xs : List Exchange} {a : α} {e : ServerError} {r : Reply}
      (body : talk xs (.ok (.keep a))) (refused : ∃ past, u.server past .commit = .error e) :
      Conversation u talk (⟨.begin, .rows b⟩ :: (xs ++ [⟨.commit, .error e⟩, ⟨.rollback, r⟩]))
        (.error (e.toStoreError "commit_transaction"))

/-- What is read out of the answer of a transaction makes no difference to what is said. -/
theorem Conversation.answer {α β : Type} {u : Session} {talk : Talk (Ending α)}
    {talk' : Talk (Ending β)} {g : α → Except StoreError β}
    (herr : ∀ xs e, talk xs (.error e) → talk' xs (.error e))
    (hleave : ∀ xs a, talk xs (.ok (.leave a)) → ∃ b, g a = .ok b ∧ talk' xs (.ok (.leave b)))
    (hkeep : ∀ xs a, talk xs (.ok (.keep a)) → ∃ b, g a = .ok b ∧ talk' xs (.ok (.keep b)))
    {said : List Exchange} {out : Except StoreError α} (h : Conversation u talk said out) :
    Conversation u talk' said (out >>= g) := by
  cases h with
  | closed shut => exact .closed shut
  | unbegun refused => exact .unbegun refused
  | failed body => exact .failed (herr _ _ body)
  | left body =>
    obtain ⟨b, hb, body'⟩ := hleave _ _ body
    simp only [bind, Except.bind, hb]
    exact .left body'
  | kept body =>
    obtain ⟨b, hb, body'⟩ := hkeep _ _ body
    simp only [bind, Except.bind, hb]
    exact .kept body'
  | uncommitted body refused =>
    obtain ⟨b, -, body'⟩ := hkeep _ _ body
    exact .uncommitted body' refused

/-- An element of two lists in a row is in one of them. -/
theorem append_eq_append_cons {xs ys before after : List Exchange} {x : Exchange}
    (h : xs ++ ys = before ++ x :: after) :
    (∃ rest, xs = before ++ x :: rest ∧ after = rest ++ ys) ∨
      ∃ rest, before = xs ++ rest ∧ ys = rest ++ x :: after := by
  obtain ⟨rest, hbefore, hys⟩ | ⟨rest, hxs, hrest⟩ := List.append_eq_append_iff.mp h
  · exact .inr ⟨rest, hbefore, hys⟩
  · cases rest with
    | nil => exact .inr ⟨[], by simpa using hxs.symm, hrest.symm⟩
    | cons y rest =>
      cases hrest
      exact .inl ⟨rest, hxs, rfl⟩

/-- Whatever neither begins nor ends anything is said by the body. -/
theorem Conversation.inside {α : Type} {u : Session} {talk : Talk (Ending α)}
    {said before after : List Exchange} {out : Except StoreError α} {x : Exchange}
    (h : Conversation u talk said out) (hsaid : said = before ++ x :: after)
    (hx : x.statement.isControl = false) :
    ∃ b opening rest ending o, before = ⟨.begin, .rows b⟩ :: opening ∧ after = rest ++ ending ∧
      talk (opening ++ x :: rest) o := by
  have hbody {b : List Row} {xs ending : List Exchange} {o : Except StoreError (Ending α)}
      (ht : talk xs o) (hending : ∀ y ∈ ending, y.statement.isControl = true)
      (hsplit : Exchange.mk .begin (.rows b) :: (xs ++ ending) = before ++ x :: after) :
      ∃ b opening rest ending o, before = ⟨.begin, .rows b⟩ :: opening ∧ after = rest ++ ending ∧
        talk (opening ++ x :: rest) o := by
    obtain ⟨rfl, hfirst⟩ | ⟨opening, rfl, htail⟩ := List.cons_eq_append_iff.mp hsplit
    · cases hfirst
      cases hx
    obtain ⟨rest, rfl, rfl⟩ | ⟨rest, rfl, rfl⟩ := append_eq_append_cons htail
    · exact ⟨b, opening, rest, ending, o, rfl, rfl, ht⟩
    · exact absurd hx (by simp [hending x])
  cases h with
  | closed => simp at hsaid
  | unbegun =>
    obtain ⟨rfl, hfirst⟩ | ⟨_, -, hnil⟩ := List.cons_eq_append_iff.mp hsaid
    · cases hfirst
      cases hx
    · simp at hnil
  | failed body => exact hbody body (by simp [Statement.isControl]) hsaid
  | left body => exact hbody body (by simp [Statement.isControl]) hsaid
  | kept body => exact hbody body (by simp [Statement.isControl]) hsaid
  | uncommitted body => exact hbody body (by simp [Statement.isControl]) hsaid

section Transactions

variable {α : Type} {u : Session}

/-- An attempt says what the step says, and never fails. -/
theorem says_attempt {x : SqlM α} {t : Talk α} (h : Says u x t) :
    Says u (StoreM.attempt x) (fun xs out => ∃ o, out = .ok o ∧ t xs o) := by
  intro past
  obtain ⟨xs, hrun, ht⟩ := h past
  exact ⟨xs, hrun, _, rfl, ht⟩

theorem says_connect (operation : String) :
    Says u (connect operation)
      (fun xs out => xs = [] ∧ ∀ e, out = .error e → u.isOpen = false) := by
  intro past
  rw [connect, runFrom_get_bind]
  cases h : u.isOpen with
  | true => exact ⟨[], by simp, rfl, nofun⟩
  | false => exact ⟨[], by simp, rfl, fun _ _ => rfl⟩

/-- A transaction is one of these, around the talk of its body. -/
theorem says_transaction {body : SqlM (Ending α)} {talk : Talk (Ending α)}
    (hbody : Says u body talk) : Says u (transaction body) (Conversation u talk) := by
  refine (says_connect _).bind (fun xs e => ?_) fun xs _ => ?_
  · rintro ⟨rfl, h⟩
    exact .closed (h e rfl)
  rintro ⟨rfl, -⟩
  refine (asks_execute _ _).bind_talk (fun past e h => ?_) fun past _ h => ?_
  · cases hr : u.server past .begin with
    | rows b =>
      rw [hr] at h
      cases h
    | error e' =>
      rw [hr] at h
      cases h
      exact .unbegun ⟨past, hr⟩
  obtain ⟨b, hb⟩ : ∃ b, u.server past .begin = .rows b := by
    cases hr : u.server past .begin with
    | rows b => exact ⟨b, rfl⟩
    | error e' =>
      rw [hr] at h
      cases h
  rw [hb]
  -- the body cannot fail here: its failure is a value, with which the transaction goes on
  refine (says_attempt hbody).bind (fun xs e => ?_) fun xs o => ?_
  · rintro ⟨o, h, -⟩
    cases h
  rintro ⟨_, ⟨⟩, ht⟩
  rcases o with e | a | a
  · exact (asks_send _).bind_talk nofun fun past _ _ => says_throw (.failed ht)
  · refine (asks_send _).bind_talk nofun fun past r hr => ?_
    cases hr
    cases hc : u.server past .commit with
    | rows c => exact says_pure (.kept ht)
    | error e =>
      refine (asks_send _).bind_talk nofun fun past' _ _ => says_throw ?_
      exact .uncommitted ht ⟨past, hc⟩
  · exact (asks_send _).bind_talk nofun fun past _ _ => says_pure (.left ht)

end Transactions

end Sql

end Stockroom
