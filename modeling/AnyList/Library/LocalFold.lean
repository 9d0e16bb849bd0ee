import Mathlib.Data.List.Nodup
import Mathlib.Logic.Function.Basic

namespace AnyList.Library.LocalFold

variable {ι σ β : Type*} [DecidableEq ι] {f : σ → ι → σ}

/-- A view that other items leave alone sees of a whole fold only its own item. -/
theorem foldl_local (view : σ → β) (i : ι)
    (hother : ∀ s j, j ≠ i → view (f s j) = view s)
    (hself : ∀ s s', view s = view s' → view (f s i) = view (f s' i)) {items : List ι}
    (hitems : items.Nodup) (s : σ) :
    view (items.foldl f s) = if i ∈ items then view (f s i) else view s := by
  induction items generalizing s with
  | nil => rfl
  | cons j items ih =>
    obtain ⟨hnot, hitems⟩ := List.nodup_cons.mp hitems
    rw [List.foldl_cons, ih hitems]
    by_cases hj : j = i
    · subst hj
      simp [hnot]
    · simp only [List.mem_cons, Ne.symm hj, false_or, hself _ _ (hother s j hj), hother s j hj]

/-- Steps that each rewrite the entry of their own key leave every entry as its own steps do. -/
theorem foldl_update {α : Type*} (key : α → ι) (g : β → α → β) (items : List α) (s : ι → β) (i : ι) :
    items.foldl (fun s a ↦ Function.update s (key a) (g (s (key a)) a)) s i =
      (items.filter fun a ↦ decide (key a = i)).foldl g (s i) := by
  induction items generalizing s with
  | nil => rfl
  | cons a items ih =>
    rw [List.foldl_cons, ih]
    by_cases h : key a = i
    · subst h
      simp
    · rw [List.filter_cons_of_neg (by simpa using h), Function.update_of_ne (Ne.symm h)]

end AnyList.Library.LocalFold
