import Mathlib.Tactic.SplitIfs

namespace AnyList.Library.Transactions

/-- What is stored, beside what a transaction in progress sees. -/
structure Session (σ : Type) where
  stored : σ
  working : σ

/-- A request in one transaction, which it commits itself or gives up by raising. -/
def Request (σ ε α : Type) := Session σ → Except ε α × Session σ

variable {σ ε α β : Type}

namespace Request

instance : Monad (Request σ ε) where
  pure a s := (.ok a, s)
  bind request next s := match request s with
    | (.ok a, s') => next a s'
    | (.error e, s') => (.error e, s')

def raise (e : ε) : Request σ ε α := fun s ↦ (.error e, s)

def reject (p : Prop) [Decidable p] (e : ε) : Request σ ε Unit := if p then raise e else pure ()

def read : Request σ ε σ := fun s ↦ (.ok s.working, s)

def write (f : σ → σ) : Request σ ε Unit := fun s ↦ (.ok (), { s with working := f s.working })

def commit : Request σ ε Unit := fun s ↦ (.ok (), { s with stored := s.working })

/-- The answer to a request and what is stored after it: what was not committed is lost. -/
def answer (request : Request σ ε α) (db : σ) : Except ε α × σ :=
  ((request ⟨db, db⟩).1, (request ⟨db, db⟩).2.stored)

end Request

open Request

section rules

variable {P P' : σ → Prop} {Q Q' : α → σ → Prop} {R : β → σ → Prop} {request : Request σ ε α}
  {next : α → Request σ ε β}

/-- Before it commits: from a state with `P`, a request that returns leaves one with `Q`. -/
def Ensures (request : Request σ ε α) (P : σ → Prop) (Q : α → σ → Prop) : Prop :=
  ∀ s, P s.working → (request s).2.stored = s.stored ∧
    ∀ a, (request s).1 = .ok a → Q a (request s).2.working

/-- From a state with `P`, a request that returns has stored one with `Q`, and one that raises
has stored nothing. -/
def Commits (request : Request σ ε α) (P : σ → Prop) (Q : α → σ → Prop) : Prop :=
  ∀ s, P s.working → match request s with
    | (.ok a, s') => Q a s'.stored
    | (.error _, s') => s'.stored = s.stored

theorem ensures_pure (a : α) (P : σ → Prop) :
    Ensures (pure a : Request σ ε α) P fun a' db ↦ a' = a ∧ P db := by
  refine fun s hs ↦ ⟨rfl, ?_⟩
  rintro _ ⟨⟩
  exact ⟨rfl, hs⟩

theorem ensures_read (P : σ → Prop) :
    Ensures (read : Request σ ε σ) P fun seen db ↦ seen = db ∧ P db := by
  refine fun s hs ↦ ⟨rfl, ?_⟩
  rintro _ ⟨⟩
  exact ⟨rfl, hs⟩

theorem ensures_write {f : σ → σ} (h : ∀ db, P db → P' (f db)) :
    Ensures (write f : Request σ ε Unit) P fun _ ↦ P' := by
  refine fun s hs ↦ ⟨rfl, ?_⟩
  rintro _ ⟨⟩
  exact h s.working hs

theorem ensures_reject (p : Prop) [Decidable p] (e : ε) (P : σ → Prop) :
    Ensures (reject p e : Request σ ε Unit) P fun _ db ↦ ¬p ∧ P db := by
  intro s hs
  rw [reject]
  split_ifs with hp
  · exact ⟨rfl, by rintro _ ⟨⟩⟩
  · refine ⟨rfl, ?_⟩
    rintro _ ⟨⟩
    exact ⟨hp, hs⟩

theorem Ensures.bind (h : Ensures request P Q) (hnext : ∀ a, Ensures (next a) (Q a) R) :
    Ensures (request >>= next) P R := by
  intro s hs
  obtain ⟨hstored, hok⟩ := h s hs
  simp only [Bind.bind]
  cases hout : request s with
  | mk result s' =>
    rw [hout] at hstored hok
    cases result with
    | error e => exact ⟨hstored, by rintro _ ⟨⟩⟩
    | ok a =>
      obtain ⟨hstored', hok'⟩ := hnext a s' (hok a rfl)
      exact ⟨hstored'.trans hstored, hok'⟩

theorem Ensures.mono (h : Ensures request P Q) (hP : ∀ db, P' db → P db)
    (hQ : ∀ a db, Q a db → Q' a db) : Ensures request P' Q' := by
  intro s hs
  obtain ⟨hstored, hok⟩ := h s (hP s.working hs)
  exact ⟨hstored, fun a ha ↦ hQ a _ (hok a ha)⟩

/-- A fact that the state before a request implies. -/
theorem Ensures.assume {p : Prop} (hp : ∀ db, P db → p) (h : p → Ensures request P Q) :
    Ensures request P Q := fun s hs ↦ h (hp s.working hs) s hs

theorem Commits.assume {p : Prop} (hp : ∀ db, P db → p) (h : p → Commits request P Q) :
    Commits request P Q := fun s hs ↦ h (hp s.working hs) s hs

theorem ensures_ite {p : Prop} [Decidable p] {request request' : Request σ ε α}
    (h : p → Ensures request P Q) (h' : ¬p → Ensures request' P Q) :
    Ensures (if p then request else request') P Q := by
  split_ifs with hp
  · exact h hp
  · exact h' hp

theorem commits_commit (P : σ → Prop) : Commits (commit : Request σ ε Unit) P fun _ ↦ P :=
  fun _ hs ↦ hs

theorem commits_raise (e : ε) : Commits (raise e : Request σ ε α) P Q := fun _ _ ↦ rfl

theorem Ensures.commits (h : Ensures request P Q) (hnext : ∀ a, Commits (next a) (Q a) R) :
    Commits (request >>= next) P R := by
  intro s hs
  obtain ⟨hstored, hok⟩ := h s hs
  simp only [Bind.bind]
  cases hout : request s with
  | mk result s' =>
    rw [hout] at hstored hok
    cases result with
    | error e => exact hstored
    | ok a =>
      have hrest := hnext a s' (hok a rfl)
      dsimp only at hrest ⊢
      cases hout' : next a s' with
      | mk result' s'' =>
        rw [hout'] at hrest
        cases result' with
        | error e => exact hrest.trans hstored
        | ok b => exact hrest

theorem Commits.mono (h : Commits request P Q) (hP : ∀ db, P' db → P db)
    (hQ : ∀ a db, Q a db → Q' a db) : Commits request P' Q' := by
  intro s hs
  have hout := h s (hP s.working hs)
  cases hresult : request s with
  | mk result s' =>
    rw [hresult] at hout
    cases result with
    | error e => exact hout
    | ok a => exact hQ a _ hout

theorem commits_ite {p : Prop} [Decidable p] {request request' : Request σ ε α}
    (h : p → Commits request P Q) (h' : ¬p → Commits request' P Q) :
    Commits (if p then request else request') P Q := by
  split_ifs with hp
  · exact h hp
  · exact h' hp

/-- A request that raises has stored nothing, and one that answers has stored what it ensures. -/
theorem Commits.answer (h : Commits request P Q) (db : σ) (hdb : P db) :
    match request.answer db with
    | (.ok a, stored) => Q a stored
    | (.error _, stored) => stored = db := by
  have hout := h ⟨db, db⟩ hdb
  rw [Request.answer]
  cases hresult : request ⟨db, db⟩ with
  | mk result s' =>
    rw [hresult] at hout
    cases result <;> exact hout

end rules

end AnyList.Library.Transactions
