import Mathlib.Data.List.Basic

namespace AnyList.Library.SerialTasks

variable {α β : Type*} {queued settled : α → Prop} {chain done live rest : List α} {t t' : α} {m n : ℕ}

/-- Nothing keeps the task at a position from its start: no task is before it, or that one settled. -/
def Ready (settled : α → Prop) (chain : List α) (n : ℕ) : Prop :=
  n = 0 ∨ ∃ t ∈ chain[n - 1]?, settled t

instance [DecidablePred settled] : Decidable (Ready settled chain n) := by
  unfold Ready
  infer_instance

/-- Tasks that have settled, and then those that have not, of which at most the first has started. -/
structure Serial (queued settled : α → Prop) (done live : List α) : Prop where
  of_done : ∀ t ∈ done, settled t
  of_live : ∀ t ∈ live, ¬settled t
  of_tail : ∀ t ∈ live.tail, queued t

theorem serial_nil : Serial queued settled [] [] := by
  constructor <;> simp

namespace Serial

theorem append (h : Serial queued settled done live) (hqueued : queued t) (hlive : ¬settled t) :
    Serial queued settled done (live ++ [t]) := by
  refine ⟨h.of_done, fun x hx ↦ ?_, fun x hx ↦ ?_⟩
  · obtain hx | hx := List.mem_append.mp hx
    · exact h.of_live x hx
    · rw [List.mem_singleton.mp hx]
      exact hlive
  · cases live with
    | nil => simp at hx
    | cons y live =>
      obtain hx | hx := List.mem_append.mp hx
      · exact h.of_tail x hx
      · rw [List.mem_singleton.mp hx]
        exact hqueued

theorem advance (h : Serial queued settled done (t :: rest)) (hlive : ¬settled t') :
    Serial queued settled done (t' :: rest) := by
  refine ⟨h.of_done, fun x hx ↦ ?_, h.of_tail⟩
  obtain rfl | hx := List.mem_cons.mp hx
  · exact hlive
  · exact h.of_live x (List.mem_cons_of_mem t hx)

theorem settle (h : Serial queued settled done (t :: rest)) (hsettled : settled t') :
    Serial queued settled (done ++ [t']) rest := by
  refine ⟨fun x hx ↦ ?_, fun x hx ↦ h.of_live x (List.mem_cons_of_mem t hx),
    fun x hx ↦ h.of_tail x (List.mem_of_mem_tail hx)⟩
  obtain hx | hx := List.mem_append.mp hx
  · exact h.of_done x hx
  · rw [List.mem_singleton.mp hx]
    exact hsettled

theorem map {g : α → α} (h : Serial queued settled done live)
    (hsettled : ∀ t, settled (g t) ↔ settled t) (hqueued : ∀ t, queued t → queued (g t)) :
    Serial queued settled (done.map g) (live.map g) := by
  refine ⟨fun x hx ↦ ?_, fun x hx ↦ ?_, fun x hx ↦ ?_⟩
  · obtain ⟨y, hy, rfl⟩ := List.mem_map.mp hx
    exact (hsettled y).mpr (h.of_done y hy)
  · obtain ⟨y, hy, rfl⟩ := List.mem_map.mp hx
    exact fun hy' ↦ h.of_live y hy ((hsettled y).mp hy')
  · rw [← List.map_tail] at hx
    obtain ⟨y, hy, rfl⟩ := List.mem_map.mp hx
    exact hqueued y (h.of_tail y hy)

theorem lt_length (h : Serial queued settled done live) (ht : (done ++ live)[n]? = some t)
    (hsettled : settled t) : n < done.length := by
  by_contra hle
  rw [List.getElem?_append_right (by omega)] at ht
  exact h.of_live t (List.mem_of_getElem? ht) hsettled

/-- A task that has started, or that nothing keeps from its start, is the first that has not settled. -/
theorem first (h : Serial queued settled done live) (ht : (done ++ live)[n]? = some t)
    (hlive : ¬settled t) (hready : queued t → Ready settled (done ++ live) n) :
    ∃ rest, live = t :: rest ∧ n = done.length := by
  have hle : done.length ≤ n := by
    by_contra hlt
    rw [List.getElem?_append_left (by omega)] at ht
    exact hlive (h.of_done t (List.mem_of_getElem? ht))
  rw [List.getElem?_append_right hle] at ht
  cases live with
  | nil => simp at ht
  | cons x rest =>
    cases hk : n - done.length with
    | zero =>
      rw [hk, List.getElem?_cons_zero, Option.some.injEq] at ht
      exact ⟨rest, by rw [ht], by omega⟩
    | succ k =>
      rw [hk, List.getElem?_cons_succ] at ht
      obtain hzero | ⟨y, hy, hsettled⟩ := hready (h.of_tail t (List.mem_of_getElem? ht))
      · omega
      · rw [Option.mem_def, List.getElem?_append_right (by omega)] at hy
        exact absurd hsettled (h.of_live y (List.mem_of_getElem? hy))

/-- Nothing keeps the first task that has not settled from its start. -/
theorem ready (h : Serial queued settled done live) : Ready settled (done ++ live) done.length := by
  cases hlength : done.length with
  | zero => exact .inl rfl
  | succ n =>
    have hlt : n < done.length := by omega
    refine .inr ⟨done[n], ?_, h.of_done _ (List.getElem_mem hlt)⟩
    rw [Nat.add_sub_cancel, Option.mem_def, List.getElem?_append_left hlt]
    exact List.getElem?_eq_getElem hlt

theorem findIdx?_live [DecidablePred settled] (h : Serial queued settled done live) :
    (done ++ live).findIdx? (fun t ↦ decide (¬settled t)) =
      if live = [] then none else some done.length := by
  have hdone : done.findIdx? (fun t ↦ decide (¬settled t)) = none :=
    List.findIdx?_eq_none_iff.mpr fun t ht ↦ by simpa using h.of_done t ht
  rw [List.findIdx?_append, hdone, Option.none_or]
  cases live with
  | nil => rfl
  | cons t rest =>
    have hlive := h.of_live t List.mem_cons_self
    rw [List.findIdx?_cons, if_pos (decide_eq_true hlive), if_neg (List.cons_ne_nil t rest)]
    simp

theorem first_unique (h : Serial queued settled done live) (ht : (done ++ live)[m]? = some t)
    (ht' : (done ++ live)[n]? = some t') (hstarted : ¬queued t ∧ ¬settled t)
    (hstarted' : ¬queued t' ∧ ¬settled t') : m = n := by
  obtain ⟨-, -, hm⟩ := h.first ht hstarted.2 fun hq ↦ absurd hq hstarted.1
  obtain ⟨-, -, hn⟩ := h.first ht' hstarted'.2 fun hq ↦ absurd hq hstarted'.1
  rw [hm, hn]

end Serial

theorem modify_length (f : α → α) :
    (done ++ t :: rest).modify done.length f = done ++ f t :: rest := by
  induction done with
  | nil => rfl
  | cons x done ih => rw [List.cons_append, List.length_cons, List.modify_succ_cons, ih]; rfl

section numbered

variable (f : α → Option β)

/-- What some of the tasks carry, with their positions in a chain. -/
def numbered : ℕ → List α → List (ℕ × β)
  | _, [] => []
  | n, t :: rest => ((f t).map (n, ·)).toList ++ numbered (n + 1) rest

theorem numbered_append : numbered f n (live ++ [t]) =
    numbered f n live ++ ((f t).map (n + live.length, ·)).toList := by
  induction live generalizing n with
  | nil => simp [numbered]
  | cons x rest ih =>
    rw [List.cons_append, numbered, numbered, ih, List.append_assoc, List.length_cons]
    have hadd : n + 1 + rest.length = n + (rest.length + 1) := by omega
    rw [hadd]

theorem map_snd_numbered : (numbered f n live).map Prod.snd = live.filterMap f := by
  induction live generalizing n with
  | nil => rfl
  | cons x rest ih =>
    rw [numbered, List.map_append, ih, List.filterMap_cons]
    cases f x <;> rfl

theorem numbered_map {g : α → α} (h : ∀ t, f (g t) = f t) :
    numbered f n (live.map g) = numbered f n live := by
  induction live generalizing n with
  | nil => rfl
  | cons x rest ih => rw [List.map_cons, numbered, numbered, h, ih]

end numbered

end AnyList.Library.SerialTasks
