import Mathlib.Data.Option.Basic
import Mathlib.Tactic.SplitIfs

namespace AnyList.Library.Aliases

variable {ι : Type*} {target : ι → Option ι} {i old new : ι}

/-- What an alias stands for, and anything else for itself. -/
def root (target : ι → Option ι) (i : ι) : ι := (target i).getD i

/-- An alias leads to what is none itself. -/
def Flat (target : ι → Option ι) : Prop := ∀ ⦃i r⦄, target i = some r → target r = none

theorem root_of_none (h : target i = none) : root target i = i := by rw [root, h, Option.getD_none]

theorem root_of_some (h : target i = some new) : root target i = new := by
  rw [root, h, Option.getD_some]

theorem Flat.target_root (hf : Flat target) (i : ι) : target (root target i) = none := by
  cases h : target i with
  | none => rwa [root_of_none h]
  | some r => rw [root_of_some h, hf h]

theorem Flat.root_root (hf : Flat target) (i : ι) : root target (root target i) = root target i :=
  root_of_none (hf.target_root i)

variable [DecidableEq ι]

/-- An entry becomes an alias, and what stood for it follows. -/
def redirect (target : ι → Option ι) (old new : ι) (i : ι) : Option ι :=
  if i = old ∨ target i = some old then some new else target i

theorem redirect_eq_none (hroot : target i = none) (hne : i ≠ old) :
    redirect target old new i = none := by
  rw [redirect, if_neg, hroot]
  rintro (h | h)
  · exact hne h
  · exact Option.some_ne_none old (h.symm.trans hroot)

theorem Flat.redirect (hf : Flat target) (hroot : target new = none) (hne : new ≠ old) :
    Flat (redirect target old new) := by
  intro i r h
  rw [Aliases.redirect] at h
  split_ifs at h with hi
  · obtain rfl := Option.some.inj h
    exact redirect_eq_none hroot hne
  · refine redirect_eq_none (hf h) fun hr ↦ ?_
    exact hi (.inr (hr ▸ h))

theorem root_redirect (hold : target old = none) (i : ι) :
    root (redirect target old new) i =
      if root target i = old then new else root target i := by
  cases h : target i with
  | none =>
    rw [root_of_none h, root, redirect, h]
    by_cases hi : i = old
    · rw [if_pos (.inl hi), if_pos hi, Option.getD_some]
    · rw [if_neg (not_or.mpr ⟨hi, Option.some_ne_none old ∘ Eq.symm⟩), if_neg hi, Option.getD_none]
  | some r =>
    have hi : i ≠ old := fun hi ↦ Option.some_ne_none r (h.symm.trans (hi ▸ hold))
    rw [root_of_some h, root, redirect, h]
    by_cases hr : r = old
    · rw [if_pos (.inr (congrArg some hr)), if_pos hr, Option.getD_some]
    · rw [if_neg (not_or.mpr ⟨hi, hr ∘ Option.some.inj⟩), if_neg hr, Option.getD_some]

/-- What led to one root before leads to one root afterwards. -/
theorem root_redirect_root (hf : Flat target) (hold : target old = none) (i : ι) :
    root (redirect target old new) (root target i) =
      root (redirect target old new) i := by
  rw [root_redirect hold, root_redirect hold, hf.root_root]

end AnyList.Library.Aliases
