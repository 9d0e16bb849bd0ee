import Mathlib.Data.List.Induction
import Mathlib.Data.List.Pairwise
import Mathlib.Data.List.Sort

namespace AnyList.Library.KeepApart

variable {α : Type*} (near : α → α → Prop) [DecidableRel near]

/-- The candidates a scan keeps that takes each one unless it is near something that was
there or was kept before. -/
def keepApart : List α → List α → List α
  | _, [] => []
  | there, a :: rest =>
    if there.any fun b ↦ near b a then keepApart there rest
    else a :: keepApart (there ++ [a]) rest

variable {near}

theorem keepApart_nil (there : List α) : keepApart near there [] = [] := rfl

theorem keepApart_cons (there : List α) (a : α) (rest : List α) :
    keepApart near there (a :: rest) = if there.any fun b ↦ near b a then keepApart near there rest
      else a :: keepApart near (there ++ [a]) rest := rfl

theorem keepApart_congr {there there' : List α} (h : ∀ a, a ∈ there ↔ a ∈ there')
    (candidates : List α) : keepApart near there candidates = keepApart near there' candidates := by
  induction candidates generalizing there there' with
  | nil => rfl
  | cons a rest ih =>
    have hany : (there.any fun b ↦ near b a) = there'.any fun b ↦ near b a := by
      rw [Bool.eq_iff_iff]
      simp only [List.any_eq_true, h]
    have htaken : keepApart near (there ++ [a]) rest = keepApart near (there' ++ [a]) rest :=
      ih (by simp [h])
    simp only [keepApart_cons, hany, htaken, ih h]

theorem mem_of_mem_keepApart {there candidates : List α} {a : α}
    (h : a ∈ keepApart near there candidates) : a ∈ candidates := by
  induction candidates generalizing there with
  | nil => exact h
  | cons b rest ih =>
    rw [keepApart_cons] at h
    split at h
    · exact List.mem_cons_of_mem b (ih h)
    · obtain rfl | h := List.mem_cons.mp h
      · exact List.mem_cons_self
      · exact List.mem_cons_of_mem b (ih h)

/-- A kept candidate is near nothing that was there. -/
theorem not_near_of_mem_keepApart {there candidates : List α} {a b : α} (hb : b ∈ there)
    (h : a ∈ keepApart near there candidates) : ¬near b a := by
  induction candidates generalizing there with
  | nil => exact absurd h List.not_mem_nil
  | cons c rest ih =>
    rw [keepApart_cons] at h
    split at h
    · exact ih hb h
    · rename_i hany
      obtain rfl | h := List.mem_cons.mp h
      · intro hnear
        exact hany (List.any_eq_true.mpr ⟨b, hb, decide_eq_true hnear⟩)
      · exact ih (List.mem_append_left [c] hb) h

theorem pairwise_keepApart (there candidates : List α) :
    (keepApart near there candidates).Pairwise fun a b ↦ ¬near a b := by
  induction candidates generalizing there with
  | nil => exact .nil
  | cons a rest ih =>
    rw [keepApart_cons]
    split
    · exact ih there
    · refine .cons (fun b hb ↦ ?_) (ih (there ++ [a]))
      exact not_near_of_mem_keepApart (by simp) hb

/-- Every candidate is near something that was there or that was kept. -/
theorem exists_near_of_mem (hrefl : ∀ a, near a a) (there : List α) {candidates : List α}
    {a : α} (h : a ∈ candidates) : ∃ b ∈ there ++ keepApart near there candidates, near b a := by
  induction candidates generalizing there with
  | nil => exact absurd h List.not_mem_nil
  | cons c rest ih =>
    rw [keepApart_cons]
    split
    · rename_i hany
      obtain rfl | h := List.mem_cons.mp h
      · obtain ⟨b, hb, hnear⟩ := List.any_eq_true.mp hany
        exact ⟨b, List.mem_append_left _ hb, of_decide_eq_true hnear⟩
      · exact ih there h
    · obtain rfl | h := List.mem_cons.mp h
      · exact ⟨a, by simp, hrefl a⟩
      · obtain ⟨b, hb, hnear⟩ := ih (there ++ [c]) h
        exact ⟨b, by simpa using hb, hnear⟩

theorem keepApart_append (there l l' : List α) : keepApart near there (l ++ l') =
    keepApart near there l ++ keepApart near (there ++ keepApart near there l) l' := by
  induction l generalizing there with
  | nil => simp [keepApart_nil]
  | cons a rest ih =>
    rw [List.cons_append, keepApart_cons, keepApart_cons]
    split
    · exact ih there
    · rw [ih, List.append_assoc, List.cons_append]
      rfl

theorem keepApart_singleton (there : List α) (a : α) : keepApart near there [a] =
    if there.any fun b ↦ near b a then [] else [a] := rfl

variable (near) in
/-- What is kept of the candidates when they are served in their order: no two near each other,
and whatever is left out near one that was kept before it. -/
structure FirstServed (candidates kept : List α) : Prop where
  mem : ∀ a ∈ kept, a ∈ candidates
  apart : ∀ a ∈ kept, ∀ b ∈ kept, near a b → a = b
  served : ∀ before a after, candidates = before ++ a :: after →
    a ∈ kept ∨ ∃ b ∈ kept, b ∈ before ∧ near b a

theorem eq_of_near_keepApart (hsymm : ∀ a b, near a b → near b a) {there candidates : List α}
    {a b : α} (ha : a ∈ keepApart near there candidates)
    (hb : b ∈ keepApart near there candidates) (hnear : near a b) : a = b := by
  by_contra hne
  have hsymm' : Std.Symm fun a b ↦ ¬near a b := ⟨fun a b h hba ↦ h (hsymm b a hba)⟩
  exact (pairwise_keepApart there candidates).forall ha hb hne hnear

/-- The scan serves its candidates in their order. -/
theorem firstServed_keepApart (hrefl : ∀ a, near a a) (hsymm : ∀ a b, near a b → near b a)
    (candidates : List α) : FirstServed near candidates (keepApart near [] candidates) where
  mem a ha := mem_of_mem_keepApart ha
  apart a ha b hb hnear := eq_of_near_keepApart hsymm ha hb hnear
  served before a after h := by
    have hsplit : candidates = (before ++ [a]) ++ after := by simp [h]
    have hkept : keepApart near [] candidates = keepApart near [] (before ++ [a]) ++ _ :=
      hsplit ▸ keepApart_append [] (before ++ [a]) after
    obtain ⟨b, hb, hnear⟩ := exists_near_of_mem hrefl [] (show a ∈ before ++ [a] by simp)
    rw [List.nil_append] at hb
    have hmem : b ∈ keepApart near [] candidates := hkept ▸ List.mem_append_left _ hb
    rcases List.mem_append.mp (mem_of_mem_keepApart hb) with hbefore | hlast
    · exact .inr ⟨b, hmem, hbefore, hnear⟩
    · obtain rfl := List.mem_singleton.mp hlast
      exact .inl hmem

/-- There is only one way to serve candidates in their order. -/
theorem mem_keepApart_iff {candidates kept : List α}
    (h : FirstServed near candidates kept) {a : α} :
    a ∈ keepApart near [] candidates ↔ a ∈ kept := by
  have hbefore (before after : List α) (hsplit : candidates = before ++ after) (a : α) :
      a ∈ keepApart near [] before ↔ a ∈ kept ∧ a ∈ before := by
    induction before using List.reverseRecOn generalizing after a with
    | nil => simp [keepApart_nil]
    | append_singleton before last ih =>
      have hlast : candidates = before ++ last :: after := by simp [hsplit]
      have ih := ih (last :: after) hlast
      rw [keepApart_append, List.nil_append, keepApart_singleton, List.mem_append, ih,
        List.mem_append, List.mem_singleton]
      by_cases hany : ∃ b ∈ keepApart near [] before, near b last
      · obtain ⟨b, hb, hnear⟩ := hany
        have hcond : ((keepApart near [] before).any fun b ↦ near b last) = true :=
          List.any_eq_true.mpr ⟨b, hb, decide_eq_true hnear⟩
        rw [if_pos hcond]
        obtain ⟨hkept, hbefore⟩ := (ih b).mp hb
        have hagain : last ∈ kept → last ∈ before := fun hmem ↦
          h.apart b hkept last hmem hnear ▸ hbefore
        constructor
        · intro ha
          have ha := ha.resolve_right List.not_mem_nil
          exact ⟨ha.1, .inl ha.2⟩
        · intro ha
          obtain ⟨hmem, hbefore | rfl⟩ := ha
          · exact .inl ⟨hmem, hbefore⟩
          · exact .inl ⟨hmem, hagain hmem⟩
      · have hcond : ¬((keepApart near [] before).any fun b ↦ near b last) = true := fun hany' ↦ by
          obtain ⟨b, hb, hnear⟩ := List.any_eq_true.mp hany'
          exact hany ⟨b, hb, of_decide_eq_true hnear⟩
        rw [if_neg hcond, List.mem_singleton]
        have hserved : last ∈ kept := by
          refine (h.served before last after hlast).resolve_right fun hnear ↦ ?_
          obtain ⟨b, hb, hbefore, hnear⟩ := hnear
          exact hany ⟨b, (ih b).mpr ⟨hb, hbefore⟩, hnear⟩
        constructor
        · intro ha
          rcases ha with ha | rfl
          · exact ⟨ha.1, .inl ha.2⟩
          · exact ⟨hserved, .inr rfl⟩
        · intro ha
          obtain ⟨hmem, hbefore | rfl⟩ := ha
          · exact .inl ⟨hmem, hbefore⟩
          · exact .inr rfl
  rw [hbefore candidates [] (by simp) a]
  exact and_iff_left_of_imp (h.mem a)

end AnyList.Library.KeepApart
