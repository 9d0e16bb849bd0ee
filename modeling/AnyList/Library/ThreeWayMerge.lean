import Mathlib.Data.Finset.SDiff
import Mathlib.Data.Finset.Lattice.Basic
import Mathlib.Tactic.Tauto

namespace AnyList.Library.ThreeWayMerge

variable {κ : Type*} [DecidableEq κ]

/-- What both replicas agree on when each one's changes since the common base are
kept: additions of either side, minus the removals of either side. -/
def merge (base left right : Finset κ) : Finset κ :=
  left ∩ right ∪ (left ∪ right) \ base

@[simp] theorem mem_merge {base left right : Finset κ} {k : κ} :
    k ∈ merge base left right ↔
      k ∈ left ∧ k ∈ right ∨ (k ∈ left ∨ k ∈ right) ∧ k ∉ base := by
  simp [merge]

theorem merge_comm (base left right : Finset κ) :
    merge base left right = merge base right left := by
  ext k
  simp only [mem_merge]
  tauto

@[simp] theorem merge_self (base s : Finset κ) : merge base s s = s := by
  ext k
  simp only [mem_merge]
  tauto

/-- A replica on the way to the merge: every key it holds or lacks is as before or
already as merged. -/
def OnTheWay (merged right right' : Finset κ) : Prop :=
  ∀ k, (k ∈ right' ↔ k ∈ right) ∨ (k ∈ right' ↔ k ∈ merged)

/-- Merging again from a partly updated replica reaches the same result. -/
theorem merge_onTheWay {base left right right' : Finset κ}
    (h : OnTheWay (merge base left right) right right') :
    merge base left right' = merge base left right := by
  ext k
  have hk := h k
  simp only [mem_merge] at hk ⊢
  tauto

end AnyList.Library.ThreeWayMerge
