import AnyList.Library.Dict
import AnyList.Library.KeyedInserts

namespace AnyList.Library.LastValue

open AnyList.Library.KeyedInserts

variable {α β δ κ : Type*}

/-- The value that the last item which gives one gives. -/
def lastValue (f : α → Option δ) (l : List α) : Option δ :=
  l.foldl (fun value a ↦ (f a).or value) none

variable {f : α → Option δ} {l l' : List α} {a : α}

@[simp] theorem lastValue_nil : lastValue f [] = none := rfl

theorem lastValue_concat (l : List α) (a : α) :
    lastValue f (l ++ [a]) = (f a).or (lastValue f l) := by
  rw [lastValue, List.foldl_append]
  rfl

theorem lastValue_append (l l' : List α) :
    lastValue f (l ++ l') = (lastValue f l').or (lastValue f l) := by
  induction l' using List.reverseRecOn with
  | nil => simp
  | append_singleton l' a ih =>
    rw [← List.append_assoc, lastValue_concat, lastValue_concat, ih, Option.or_assoc]

theorem lastValue_cons (a : α) (l : List α) :
    lastValue f (a :: l) = (lastValue f l).or (f a) := by
  rw [← List.singleton_append, lastValue_append, ← List.nil_append [a], lastValue_concat,
    lastValue_nil, Option.or_none]

theorem lastValue_congr {g : α → Option δ} (h : ∀ a ∈ l, f a = g a) :
    lastValue f l = lastValue g l := by
  induction l with
  | nil => rfl
  | cons a l ih =>
    rw [lastValue_cons, lastValue_cons, h a List.mem_cons_self,
      ih fun b hb ↦ h b (List.mem_cons_of_mem a hb)]

theorem lastValue_map {g : β → α} {l : List β} :
    lastValue f (l.map g) = lastValue (fun b ↦ f (g b)) l := by
  induction l with
  | nil => rfl
  | cons b l ih => rw [List.map_cons, lastValue_cons, lastValue_cons, ih]

theorem lastValue_eq_none : lastValue f l = none ↔ ∀ a ∈ l, f a = none := by
  induction l with
  | nil => simp
  | cons a l ih =>
    rw [lastValue_cons, Option.or_eq_none_iff, ih, List.forall_mem_cons]
    exact and_comm

theorem isSome_lastValue : (lastValue f l).isSome = true ↔ ∃ a ∈ l, (f a).isSome = true := by
  rw [← Option.ne_none_iff_isSome, Ne, lastValue_eq_none]
  simp only [not_forall, exists_prop, ← Option.ne_none_iff_isSome, ne_eq]

section keyed

variable {key : α → κ} {k : κ}

/-- Where only one item can give a value, it gives the last one. -/
theorem lastValue_of_mem (hlocal : ∀ a, key a ≠ k → f a = none) (h : (l.map key).Nodup)
    (ha : a ∈ l) (hkey : key a = k) : lastValue f l = f a := by
  induction l with
  | nil => exact absurd ha List.not_mem_nil
  | cons b l ih =>
    rw [List.map_cons, List.nodup_cons] at h
    obtain ⟨hb, hl⟩ := h
    rw [lastValue_cons]
    obtain rfl | ha := List.mem_cons.mp ha
    · have hrest : lastValue f l = none := by
        refine lastValue_eq_none.mpr fun c hc ↦ hlocal c fun hck ↦ hb ?_
        rw [hkey, ← hck]
        exact List.mem_map_of_mem hc
      rw [hrest, Option.none_or]
    · have hbk : key b ≠ k := by
        intro hbk
        rw [hbk, ← hkey] at hb
        exact hb (List.mem_map_of_mem ha)
      rw [hlocal b hbk, Option.or_none, ih hl ha]

variable [DecidableEq κ] {make : β → α} {keep : α → β → α} {g : β → Option δ} {s : List α}
  {bs : List β}

variable {P : α → Prop} (hlocal : ∀ a, key a ≠ k → f a = none)
  (hkeep : ∀ a b, key (keep a b) = key a) (hmake : ∀ b, f (make b) = g b)
  (htake : ∀ a b, P a → key a = key (make b) → f (keep a b) = (g b).or (f a))

include hlocal hkeep hmake htake

/-- An insertion is seen before all that was there. -/
theorem lastValue_insertWith (hs : (s.map key).Nodup) (hP : ∀ a ∈ s, P a) (b : β) :
    lastValue f (insertWith key make keep s b) = (g b).or (lastValue f s) := by
  by_cases hmem : key (make b) ∈ s.map key
  · by_cases hk : key (make b) = k
    · obtain ⟨a, ha, hkey⟩ := List.mem_map.mp hmem
      have hnodup : ((insertWith key make keep s b).map key).Nodup := nodup_insertWith hkeep hs b
      have hkept : keep a b ∈ insertWith key make keep s b := by
        rw [insertWith, if_pos hmem]
        exact List.mem_map.mpr ⟨a, ha, if_pos hkey⟩
      rw [lastValue_of_mem hlocal hnodup hkept ((hkeep a b).trans (hkey.trans hk)),
        lastValue_of_mem hlocal hs ha (hkey.trans hk), htake a b (hP a ha) hkey]
    · have hnone : g b = none := (hmake b).symm.trans (hlocal (make b) hk)
      rw [hnone, Option.none_or, insertWith, if_pos hmem, lastValue_map]
      refine lastValue_congr fun a ha ↦ ?_
      split_ifs with hkey
      · rw [htake a b (hP a ha) hkey, hnone, Option.none_or]
      · rfl
  · rw [insertWith, if_neg hmem, lastValue_concat, hmake]

/-- The last value given is the one that is found in the end. -/
theorem lastValue_foldl_insertWith (hs : (s.map key).Nodup) (hP : ∀ a ∈ s, P a)
    (hmakeP : ∀ b, P (make b)) (hkeepP : ∀ a b, P a → P (keep a b)) :
    lastValue f (bs.foldl (insertWith key make keep) s) = (lastValue g bs).or (lastValue f s) := by
  induction bs generalizing s with
  | nil => rfl
  | cons b bs ih =>
    have hstep : ∀ a ∈ [b].foldl (insertWith key make keep) s, P a :=
      forall_foldl_insertWith (fun b _ ↦ hmakeP b) hkeepP hP
    rw [List.foldl_cons, ih (nodup_insertWith hkeep hs b) hstep,
      lastValue_insertWith hlocal hkeep hmake htake hs hP, lastValue_cons, Option.or_assoc]

end keyed

end AnyList.Library.LastValue
