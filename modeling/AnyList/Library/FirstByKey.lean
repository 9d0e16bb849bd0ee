import Mathlib.Data.List.Pairwise
import Mathlib.Tactic.SplitIfs

namespace AnyList.Library.FirstByKey

variable {α κ : Type*} [DecidableEq κ] (key : α → κ)

/-- The elements whose key is neither seen nor the key of an element before them. -/
def firsts : List κ → List α → List α
  | _, [] => []
  | seen, a :: rest =>
    if key a ∈ seen then firsts seen rest else a :: firsts (seen ++ [key a]) rest

variable {key} {seen seen' : List κ} {l l' : List α} {a : α}

theorem firsts_nil (seen : List κ) : firsts key seen [] = [] := rfl

theorem firsts_cons (seen : List κ) (a : α) (rest : List α) : firsts key seen (a :: rest) =
    if key a ∈ seen then firsts key seen rest
    else a :: firsts key (seen ++ [key a]) rest := rfl

theorem firsts_sublist (seen : List κ) (l : List α) : (firsts key seen l).Sublist l := by
  induction l generalizing seen with
  | nil => exact .slnil
  | cons a rest ih =>
    rw [firsts_cons]
    split_ifs
    · exact (ih seen).cons a
    · exact (ih (seen ++ [key a])).cons_cons a

theorem key_notMem_of_mem_firsts (h : a ∈ firsts key seen l) : key a ∉ seen := by
  induction l generalizing seen with
  | nil => exact absurd h List.not_mem_nil
  | cons b rest ih =>
    rw [firsts_cons] at h
    split_ifs at h with hb
    · exact ih h
    · obtain rfl | h := List.mem_cons.mp h
      · exact hb
      · exact fun ha ↦ ih h (List.mem_append_left _ ha)

theorem nodup_map_firsts (seen : List κ) (l : List α) : ((firsts key seen l).map key).Nodup := by
  induction l generalizing seen with
  | nil => exact List.nodup_nil
  | cons a rest ih =>
    rw [firsts_cons]
    split_ifs
    · exact ih seen
    · refine List.nodup_cons.mpr ⟨fun h ↦ ?_, ih (seen ++ [key a])⟩
      obtain ⟨b, hb, hkey⟩ := List.mem_map.mp h
      exact key_notMem_of_mem_firsts hb (by simp [hkey])

theorem firsts_append (seen : List κ) (l l' : List α) : firsts key seen (l ++ l') =
    firsts key seen l ++ firsts key (seen ++ (firsts key seen l).map key) l' := by
  induction l generalizing seen with
  | nil => simp [firsts_nil]
  | cons a rest ih =>
    rw [List.cons_append, firsts_cons, firsts_cons]
    split_ifs
    · exact ih seen
    · rw [ih, List.cons_append, List.map_cons, List.append_assoc, List.singleton_append]

/-- The first element of a key stands before the other ones of the key. -/
theorem exists_first (key : α → κ) (seen : List κ) {r : α → α → Prop} (hr : l.Pairwise r)
    (ha : a ∈ l) (hkey : key a ∉ seen) : ∃ b ∈ firsts key seen l, key b = key a ∧ (b = a ∨ r b a) := by
  induction l generalizing seen with
  | nil => exact absurd ha List.not_mem_nil
  | cons c rest ih =>
    obtain ⟨hc, hrest⟩ := List.pairwise_cons.mp hr
    rw [firsts_cons]
    obtain rfl | ha := List.mem_cons.mp ha
    · rw [if_neg hkey]
      exact ⟨a, List.mem_cons_self, rfl, .inl rfl⟩
    · split_ifs with hseen
      · exact ih seen hrest ha hkey
      · by_cases heq : key a = key c
        · exact ⟨c, List.mem_cons_self, heq.symm, .inr (hc a ha)⟩
        · obtain ⟨b, hb, hfirst⟩ := ih (seen ++ [key c]) hrest ha (by simp [hkey, heq])
          exact ⟨b, List.mem_cons_of_mem c hb, hfirst⟩

end AnyList.Library.FirstByKey
