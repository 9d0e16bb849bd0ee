import Mathlib.Data.List.Basic
import Mathlib.Logic.Basic

namespace AnyList.Library.Runs

variable {σ α : Type*} {step : σ → α → σ}

/-- `P` holds of every input of a run and the state that it meets. -/
def Throughout (step : σ → α → σ) (P : σ → α → Prop) : σ → List α → Prop
  | _, [] => True
  | s, a :: rest => P s a ∧ Throughout step P (step s a) rest

/-- `P` holds of some input of a run and the state that it meets. -/
def Sometime (step : σ → α → σ) (P : σ → α → Prop) : σ → List α → Prop
  | _, [] => False
  | s, a :: rest => P s a ∨ Sometime step P (step s a) rest

variable {P : σ → α → Prop} {s : σ} {inputs : List α}

instance decidableThroughout (P : σ → α → Prop) [∀ s a, Decidable (P s a)] :
    ∀ (s : σ) (inputs : List α), Decidable (Throughout step P s inputs)
  | _, [] => .isTrue trivial
  | s, a :: rest =>
    have := decidableThroughout P (step s a) rest
    inferInstanceAs (Decidable (P s a ∧ Throughout step P (step s a) rest))

theorem Throughout.take (h : Throughout step P s inputs) (n : Nat) :
    Throughout step P s (inputs.take n) := by
  induction inputs generalizing s n with
  | nil => rw [List.take_nil]; trivial
  | cons a rest ih =>
    cases n with
    | zero => trivial
    | succ n => exact ⟨h.1, ih h.2 n⟩

theorem Throughout.congr {Q : σ → α → Prop} (h : ∀ s a, P s a ↔ Q s a) :
    Throughout step P s inputs ↔ Throughout step Q s inputs := by
  induction inputs generalizing s with
  | nil => rfl
  | cons a rest ih => exact and_congr (h s a) ih

theorem sometime_or_throughout :
    Sometime step P s inputs ∨ Throughout step (fun s a ↦ ¬P s a) s inputs := by
  induction inputs generalizing s with
  | nil => exact .inr trivial
  | cons a rest ih =>
    by_cases h : P s a
    · exact .inl (.inl h)
    · exact (ih (s := step s a)).imp .inr fun hrest ↦ ⟨h, hrest⟩

/-- What every allowed step preserves holds at the end of a run of allowed steps. -/
theorem Throughout.invariant {I : σ → Prop} (h : Throughout step P s inputs) (hs : I s)
    (hstep : ∀ s a, I s → P s a → I (step s a)) : I (inputs.foldl step s) := by
  induction inputs generalizing s with
  | nil => exact hs
  | cons a rest ih => exact ih h.2 (hstep s a hs h.1)

theorem invariant {I : σ → Prop} (hs : I s) (hstep : ∀ s a, I s → I (step s a)) :
    I (inputs.foldl step s) := by
  induction inputs generalizing s with
  | nil => exact hs
  | cons a rest ih => exact ih (hstep s a hs)

/-- What no input changes is the same after a run. -/
theorem foldl_unchanged {β : Type*} {f : σ → β} (h : ∀ s a, f (step s a) = f s) :
    f (inputs.foldl step s) = f s :=
  invariant (I := fun s' ↦ f s' = f s) rfl fun s' a hs ↦ (h s' a).trans hs

/-- What holds of every step from a state with an invariant holds of every step of a run. -/
theorem throughout_of_invariant {I : σ → Prop} (hs : I s)
    (hstep : ∀ s a, I s → P s a ∧ I (step s a)) : Throughout step P s inputs := by
  induction inputs generalizing s with
  | nil => trivial
  | cons a rest ih => exact ⟨(hstep s a hs).1, ih (hstep s a hs).2⟩

/-- A condition that keeps an invariant, and without which a step breaks what the invariant gives,
decides whether every state of a run has it. -/
theorem forall_take_iff_throughout {I C : σ → Prop} (hs : I s) (hI : ∀ s, I s → C s)
    (hkeep : ∀ s a, I s → P s a → I (step s a)) (hbreak : ∀ s a, I s → C (step s a) → P s a) :
    (∀ n, C ((inputs.take n).foldl step s)) ↔ Throughout step P s inputs := by
  induction inputs generalizing s with
  | nil => simpa [Throughout] using hI s hs
  | cons a rest ih =>
    constructor
    · intro h
      have ha := hbreak s a hs (h 1)
      exact ⟨ha, (ih (hkeep s a hs ha)).mp fun n ↦ h (n + 1)⟩
    · intro h n
      cases n with
      | zero => exact hI s hs
      | succ n => exact (ih (hkeep s a hs h.1)).mpr h.2 n

/-- A run of steps of which some have no result has one exactly when all its inputs are allowed. -/
theorem foldlM_eq_some_iff {step? : σ → α → Option σ} {s' : σ}
    (hsome : ∀ s a, P s a → step? s a = some (step s a)) (hnone : ∀ s a, ¬P s a → step? s a = none) :
    inputs.foldlM step? s = some s' ↔ Throughout step P s inputs ∧ s' = inputs.foldl step s := by
  induction inputs generalizing s with
  | nil => simp [Throughout, eq_comm]
  | cons a rest ih =>
    rw [List.foldlM_cons, Throughout, List.foldl_cons]
    by_cases ha : P s a
    · rw [hsome s a ha, Option.bind_eq_bind, Option.bind_some, ih]
      exact (and_congr_left' (and_iff_right ha)).symm
    · rw [hnone s a ha]
      exact iff_of_false (by simp) fun h ↦ ha h.1.1

/-- What one input brings about, and no input undoes, holds once that input was met. -/
theorem of_mem {I : σ → Prop} {a : α} (ha : a ∈ inputs) (hmake : ∀ s, I (step s a))
    (hkeep : ∀ s b, I s → I (step s b)) : I (inputs.foldl step s) := by
  induction inputs generalizing s with
  | nil => exact absurd ha List.not_mem_nil
  | cons b rest ih =>
    rw [List.foldl_cons]
    obtain rfl | ha := List.mem_cons.mp ha
    · exact invariant (hmake s) hkeep
    · exact ih ha

end AnyList.Library.Runs

namespace AnyList.Library.LongRuns

variable {α : Type*} {p : α → Bool} {n : ℕ} {Q : List α → Prop} {l : List α}

/-- `n` elements in a row fail `p`, and what follows them has `Q`. -/
def HasRun (p : α → Bool) (n : ℕ) (Q : List α → Prop) (l : List α) : Prop :=
  ∃ before run rest, l = before ++ (run ++ rest) ∧ run.length = n ∧ (∀ a ∈ run, p a = false) ∧ Q rest

theorem HasRun.append (h : HasRun p n Q l) (before : List α) : HasRun p n Q (before ++ l) := by
  obtain ⟨before', run, rest, rfl, hlength, hrun, hrest⟩ := h
  exact ⟨before ++ before', run, rest, (List.append_assoc ..).symm, hlength, hrun, hrest⟩

theorem HasRun.lt_length (h : HasRun p n (· ≠ []) l) : n < l.length := by
  obtain ⟨before, run, rest, rfl, rfl, -, hrest⟩ := h
  have := List.length_pos_iff.mpr hrest
  simp only [List.length_append]
  omega

/-- A run of `n` does not reach over an element that has `p`, nor does it fit before one that
comes among the first `n`. -/
theorem hasRun_append_cons {before : List α} {a : α} (hlength : before.length < n)
    (ha : p a = true) : HasRun p n Q (before ++ a :: l) ↔ HasRun p n Q l := by
  constructor
  · intro h
    obtain ⟨before', run, rest, heq, hrunLength, hrun, hrest⟩ := h
    obtain ⟨middle, rfl, hrest'⟩ | ⟨middle, rfl, hrest'⟩ := List.append_eq_append_iff.mp heq
    · cases middle with
      | nil =>
        cases run with
        | nil => simp only [List.length_nil] at hrunLength; omega
        | cons b run =>
          rw [List.nil_append, List.cons_append, List.cons.injEq] at hrest'
          have hb := hrun b List.mem_cons_self
          rw [← hrest'.1, ha] at hb
          exact absurd hb (by simp)
      | cons b middle =>
        rw [List.cons_append, List.cons.injEq] at hrest'
        exact ⟨middle, run, rest, hrest'.2, hrunLength, hrun, hrest⟩
    · have hmem : a ∈ run := by
        obtain ⟨tail, rfl, -⟩ | ⟨tail, rfl, htail⟩ := List.append_eq_append_iff.mp hrest'
        · simp only [List.length_append] at hlength hrunLength
          omega
        · cases tail with
          | nil => simp only [List.length_append, List.length_nil] at hlength hrunLength; omega
          | cons b tail =>
            rw [List.cons_append, List.cons.injEq] at htail
            rw [htail.1]
            exact List.mem_append_right _ List.mem_cons_self
      rw [hrun a hmem] at ha
      exact absurd ha (by simp)
  · intro h
    have happend := h.append (before ++ [a])
    rwa [List.append_assoc, List.singleton_append] at happend

theorem hasRun_of_take (hlength : n ≤ l.length) (hrun : ∀ a ∈ l.take n, p a = false)
    (hrest : Q (l.drop n)) : HasRun p n Q l :=
  ⟨[], l.take n, l.drop n, (List.take_append_drop n l).symm, List.length_take_of_le hlength, hrun, hrest⟩

/-- A list either fails `p` throughout, or it splits at the last element that has `p`. -/
theorem exists_last (p : α → Bool) (l : List α) :
    (∀ a ∈ l, p a = false) ∨
      ∃ before a rest, l = before ++ a :: rest ∧ p a = true ∧ ∀ b ∈ rest, p b = false := by
  induction l with
  | nil => exact .inl fun a ha ↦ absurd ha List.not_mem_nil
  | cons a l ih =>
    obtain hall | ⟨before, b, rest, rfl, hb, hrest⟩ := ih
    · cases ha : p a with
      | false => exact .inl fun b hb ↦ (List.mem_cons.mp hb).elim (fun h ↦ h ▸ ha) (hall b)
      | true => exact .inr ⟨[], a, l, rfl, ha, hall⟩
    · exact .inr ⟨a :: before, b, rest, rfl, hb, hrest⟩

/-- Of a sorted list, the elements past a threshold are an end of it. -/
theorem exists_append_filter {r : α → α → Prop} (hl : l.Pairwise r)
    (hp : ∀ a b, r a b → p a = true → p b = true) : ∃ before, l = before ++ l.filter p := by
  induction hl with
  | nil => exact ⟨[], rfl⟩
  | @cons a l ha _ ih =>
    cases hpa : p a with
    | true =>
      have hall : ∀ b ∈ a :: l, p b = true := fun b hb ↦
        (List.mem_cons.mp hb).elim (fun h ↦ h ▸ hpa) fun h ↦ hp a b (ha b h) hpa
      exact ⟨[], (List.filter_eq_self.mpr hall).symm⟩
    | false =>
      obtain ⟨before, hbefore⟩ := ih
      refine ⟨a :: before, ?_⟩
      rw [List.filter_cons, hpa, if_neg Bool.false_ne_true, List.cons_append, ← hbefore]

end AnyList.Library.LongRuns
