import Mathlib.Data.List.Nodup
import Mathlib.Data.List.Perm.Basic

namespace AnyList.Library.KeyedInserts

variable {ρ α β γ κ : Type*} [DecidableEq κ]

/-- Adds what is made of `b`, unless an item of that key is there and takes it in. -/
def insertWith (key : α → κ) (make : β → α) (keep : α → β → α) (s : List α) (b : β) : List α :=
  if key (make b) ∈ s.map key then s.map fun a ↦ if key a = key (make b) then keep a b else a
  else s ++ [make b]

variable {key : α → κ} {make : β → α} {keep : α → β → α} {s : List α} {bs : List β}

theorem insertWith_eq (s : List α) (b : β) : insertWith key make keep s b =
    if key (make b) ∈ s.map key then s.map fun a ↦ if key a = key (make b) then keep a b else a
    else s ++ [make b] := rfl

theorem foldl_insertWith_of_nodup (h : ((s ++ bs.map make).map key).Nodup) :
    bs.foldl (insertWith key make keep) s = s ++ bs.map make := by
  induction bs generalizing s with
  | nil => simp
  | cons b bs ih =>
    have happend : s ++ (b :: bs).map make = (s ++ [make b]) ++ bs.map make := by simp
    rw [happend] at h ⊢
    have hnew : key (make b) ∉ s.map key := by
      rw [List.map_append, List.map_append] at h
      have hs := (List.nodup_append.mp h).1
      rw [List.nodup_append] at hs
      exact fun hmem ↦ hs.2.2 _ hmem _ (by simp) rfl
    rw [List.foldl_cons, insertWith_eq, if_neg hnew]
    exact ih h

theorem forall_foldl_insertWith {P : α → Prop} (hmake : ∀ b ∈ bs, P (make b))
    (hkeep : ∀ a b, P a → P (keep a b)) (hs : ∀ a ∈ s, P a) :
    ∀ a ∈ bs.foldl (insertWith key make keep) s, P a := by
  induction bs generalizing s with
  | nil => exact hs
  | cons b bs ih =>
    rw [List.forall_mem_cons] at hmake
    refine ih hmake.2 fun a ha ↦ ?_
    rw [insertWith_eq] at ha
    split at ha
    · obtain ⟨a', ha', rfl⟩ := List.mem_map.mp ha
      split
      · exact hkeep a' b (hs a' ha')
      · exact hs a' ha'
    · rcases List.mem_append.mp ha with ha | ha
      · exact hs a ha
      · exact List.mem_singleton.mp ha ▸ hmake.1

/-- Every item has its key among those of a run, if what takes an item in keeps its own key. -/
theorem key_mem_foldl_insertWith (hkeep : ∀ a b, key (keep a b) = key a) {k : κ}
    (h : k ∈ s.map key ∨ k ∈ (bs.map make).map key) :
    k ∈ (bs.foldl (insertWith key make keep) s).map key := by
  induction bs generalizing s with
  | nil => simpa using h
  | cons b bs ih =>
    refine ih ?_
    have hkeys : (insertWith key make keep s b).map key =
        if key (make b) ∈ s.map key then s.map key else s.map key ++ [key (make b)] := by
      rw [insertWith_eq]
      split
      · rw [List.map_map]
        refine List.map_congr_left fun a _ ↦ ?_
        by_cases ha : key a = key (make b) <;> simp [ha, hkeep]
      · simp
    rw [hkeys]
    rw [List.map_cons, List.map_cons, List.mem_cons] at h
    split
    · next hb =>
      rcases h with h | rfl | h
      · exact .inl h
      · exact .inl hb
      · exact .inr h
    · rcases h with h | rfl | h
      · exact .inl (List.mem_append_left _ h)
      · exact .inl (List.mem_append_right _ (List.mem_singleton_self _))
      · exact .inr h

section members

variable {members : α → List γ} {added : β → List γ}

theorem map_key_insertWith (hkeep : ∀ a b, key (keep a b) = key a) (b : β) :
    (insertWith key make keep s b).map key =
      if key (make b) ∈ s.map key then s.map key else s.map key ++ [key (make b)] := by
  rw [insertWith_eq]
  split_ifs
  · rw [List.map_map]
    refine List.map_congr_left fun a _ ↦ ?_
    by_cases ha : key a = key (make b) <;> simp [ha, hkeep]
  · simp

theorem nodup_insertWith (hkeep : ∀ a b, key (keep a b) = key a) (hs : (s.map key).Nodup) (b : β) :
    ((insertWith key make keep s b).map key).Nodup := by
  rw [map_key_insertWith hkeep]
  split_ifs with hmem
  · exact hs
  · refine List.nodup_append.mpr ⟨hs, by simp, fun k hk k' hk' ↦ ?_⟩
    obtain rfl := List.mem_singleton.mp hk'
    exact fun heq ↦ hmem (heq ▸ hk)

/-- An insertion adds members to one item, or an item of these members. -/
theorem perm_flatMap_insertWith {b : β} (hs : (s.map key).Nodup) (hmake : members (make b) = added b)
    (hkeep : ∀ a, members (keep a b) = members a ++ added b) :
    ((insertWith key make keep s b).flatMap members).Perm (s.flatMap members ++ added b) := by
  rw [insertWith_eq]
  split_ifs with hmem
  · obtain ⟨a, ha, hkey⟩ := List.mem_map.mp hmem
    obtain ⟨before, after, rfl⟩ := List.append_of_mem ha
    rw [List.map_append, List.map_cons] at hs
    have hne := List.nodup_middle.mp hs
    obtain ⟨hnot, -⟩ := List.nodup_cons.mp hne
    have hother : ∀ a' ∈ before ++ after, key a' ≠ key (make b) := by
      intro a' ha' heq
      refine hnot ?_
      rw [← List.map_append, hkey, ← heq]
      exact List.mem_map_of_mem ha'
    have hbefore : (before.map fun a ↦ if key a = key (make b) then keep a b else a) = before :=
      (List.map_congr_left fun a' ha' ↦
        if_neg (hother a' (List.mem_append_left _ ha'))).trans (List.map_id' before)
    have hafter : (after.map fun a ↦ if key a = key (make b) then keep a b else a) = after :=
      (List.map_congr_left fun a' ha' ↦
        if_neg (hother a' (List.mem_append_right _ ha'))).trans (List.map_id' after)
    rw [List.map_append, List.map_cons, hbefore, hafter, if_pos hkey, List.flatMap_append,
      List.flatMap_append, List.flatMap_cons, List.flatMap_cons, hkeep]
    simp only [List.append_assoc]
    exact List.Perm.append_left _ (List.Perm.append_left _ List.perm_append_comm)
  · rw [List.flatMap_append, List.flatMap_singleton, hmake]

theorem perm_flatMap_foldl_insertWith (hkey : ∀ a b, key (keep a b) = key a)
    (hs : (s.map key).Nodup) (hmake : ∀ b, members (make b) = added b)
    (hkeep : ∀ a b, members (keep a b) = members a ++ added b) :
    ((bs.foldl (insertWith key make keep) s).flatMap members).Perm
      (s.flatMap members ++ bs.flatMap added) := by
  induction bs generalizing s with
  | nil => simp
  | cons b bs ih =>
    have hnodup : ((insertWith key make keep s b).map key).Nodup := nodup_insertWith hkey hs b
    have hstep : ((insertWith key make keep s b).flatMap members).Perm
        (s.flatMap members ++ added b) := perm_flatMap_insertWith hs (hmake b) fun a ↦ hkeep a b
    rw [List.foldl_cons, List.flatMap_cons, ← List.append_assoc]
    exact (ih hnodup).trans (hstep.append_right _)

theorem nodup_foldl_insertWith (hkey : ∀ a b, key (keep a b) = key a) (hs : (s.map key).Nodup) :
    ((bs.foldl (insertWith key make keep) s).map key).Nodup := by
  induction bs generalizing s with
  | nil => exact hs
  | cons b bs ih => exact ih (nodup_insertWith hkey hs b)

theorem forall_insertWith {P : α → Prop} {b : β} (hmake : P (make b))
    (hkeep : ∀ a ∈ s, key a = key (make b) → P a → P (keep a b)) (hs : ∀ a ∈ s, P a) :
    ∀ a ∈ insertWith key make keep s b, P a := by
  intro a ha
  rw [insertWith_eq] at ha
  split_ifs at ha
  · obtain ⟨a', ha', rfl⟩ := List.mem_map.mp ha
    split_ifs with hkey
    · exact hkeep a' ha' hkey (hs a' ha')
    · exact hs a' ha'
  · obtain ha | ha := List.mem_append.mp ha
    · exact hs a ha
    · exact List.mem_singleton.mp ha ▸ hmake

end members

section count

variable {p : α → Bool} (hkeep : ∀ a b, p (keep a b) = p a)

include hkeep

theorem length_filter_insertWith_of_mem {b : β} (h : key (make b) ∈ s.map key) :
    ((insertWith key make keep s b).filter p).length = (s.filter p).length := by
  have hp : (p ∘ fun a ↦ if key a = key (make b) then keep a b else a) = p := by
    funext a
    by_cases ha : key a = key (make b) <;> simp [ha, hkeep]
  rw [insertWith_eq, if_pos h, List.filter_map, List.length_map, hp]

theorem length_filter_insertWith (b : β) :
    ((insertWith key make keep s b).filter p).length ≤ (s.filter p).length + 1 := by
  by_cases h : key (make b) ∈ s.map key
  · rw [length_filter_insertWith_of_mem hkeep h]
    omega
  · rw [insertWith_eq, if_neg h, List.filter_append, List.length_append]
    have hone : ([make b].filter p).length ≤ 1 := List.length_filter_le p [make b]
    omega

theorem length_filter_foldl_insertWith :
    ((bs.foldl (insertWith key make keep) s).filter p).length ≤ (s.filter p).length + bs.length := by
  induction bs generalizing s with
  | nil => simp
  | cons b bs ih =>
    have hstep : ((insertWith key make keep s b).filter p).length ≤ (s.filter p).length + 1 :=
      length_filter_insertWith hkeep b
    have hrest : ((bs.foldl (insertWith key make keep) (insertWith key make keep s b)).filter
        p).length ≤ ((insertWith key make keep s b).filter p).length + bs.length := ih
    rw [List.foldl_cons, List.length_cons]
    omega

/-- If every one of the items counts in the end, no two of them had the same key. -/
theorem nodup_of_length_filter_foldl (hs : (s.map key).Nodup)
    (h : ((bs.foldl (insertWith key make keep) s).filter p).length =
      (s.filter p).length + bs.length) : ((s ++ bs.map make).map key).Nodup := by
  induction bs generalizing s with
  | nil => simpa using hs
  | cons b bs ih =>
    rw [List.foldl_cons, List.length_cons] at h
    have hrest : ((bs.foldl (insertWith key make keep) (insertWith key make keep s b)).filter
        p).length ≤ ((insertWith key make keep s b).filter p).length + bs.length :=
      length_filter_foldl_insertWith hkeep
    by_cases hb : key (make b) ∈ s.map key
    · have hsame : ((insertWith key make keep s b).filter p).length = (s.filter p).length :=
        length_filter_insertWith_of_mem hkeep hb
      omega
    · have hstep : ((insertWith key make keep s b).filter p).length ≤ (s.filter p).length + 1 :=
        length_filter_insertWith hkeep b
      have hnodup : ((insertWith key make keep s b).map key).Nodup := by
        rw [insertWith_eq, if_neg hb, List.map_append, List.nodup_append]
        refine ⟨hs, by simp, fun k hk k' hk' ↦ ?_⟩
        rintro rfl
        simp only [List.map_cons, List.map_nil, List.mem_singleton] at hk'
        exact hb (hk' ▸ hk)
      have hall := ih hnodup (by omega)
      rw [insertWith_eq, if_neg hb] at hall
      simpa using hall

end count

theorem length_foldl_insertWith :
    (bs.foldl (insertWith key make keep) []).length ≤ bs.length := by
  have hall : ((bs.foldl (insertWith key make keep) []).filter fun _ ↦ true).length ≤
      (([] : List α).filter fun _ ↦ true).length + bs.length :=
    length_filter_foldl_insertWith fun _ _ ↦ rfl
  simpa using hall

theorem nodup_of_length_foldl (h : (bs.foldl (insertWith key make keep) []).length = bs.length) :
    ((bs.map make).map key).Nodup := by
  have hall : ((([] : List α) ++ bs.map make).map key).Nodup :=
    nodup_of_length_filter_foldl (p := fun _ ↦ true) (fun _ _ ↦ rfl) (by simp) (by simpa using h)
  simpa using hall

section restored

variable {name : γ → κ} {shown : α → γ} {view : ρ → γ} {survive : ρ → Option β} {Kept : γ → Prop}
variable {rows : List ρ}

theorem map_shown_filterMap
    (hcomplete : ∀ r, Kept (view r) → ∃ b, survive r = some b ∧ shown (make b) = view r)
    (h : ∀ r ∈ rows, Kept (view r)) :
    ((rows.filterMap survive).map make).map shown = rows.map view := by
  induction rows with
  | nil => rfl
  | cons r rows ih =>
    rw [List.forall_mem_cons] at h
    obtain ⟨b, hb, hview⟩ := hcomplete r h.1
    rw [List.filterMap_cons_some hb, List.map_cons, List.map_cons, List.map_cons, hview, ih h.2]

/-- Once what each row survives as is inserted again, all that there was to see is there to see if
and only if every row is kept and no two share a name. -/
theorem perm_iff (hbs : bs.Perm (rows.filterMap survive))
    (hsound : ∀ r b, survive r = some b → Kept (shown (make b)))
    (hcomplete : ∀ r, Kept (view r) → ∃ b, survive r = some b ∧ shown (make b) = view r) :
    ((bs.foldl (insertWith (name ∘ shown) make keep) []).map shown).Perm (rows.map view) ↔
      (∀ r ∈ rows, Kept (view r)) ∧ ((rows.map view).map name).Nodup := by
  constructor
  · intro hperm
    have hlength : (bs.foldl (insertWith (name ∘ shown) make keep) []).length = rows.length := by
      simpa using hperm.length_eq
    have hle : (bs.foldl (insertWith (name ∘ shown) make keep) []).length ≤ bs.length :=
      length_foldl_insertWith
    have hrows := Nat.le_trans (Nat.le_of_eq hbs.length_eq) (List.length_filterMap_le survive rows)
    have hnodup := nodup_of_length_foldl (hlength.trans (Nat.le_antisymm (hlength ▸ hle) hrows))
    have hfold : bs.foldl (insertWith (name ∘ shown) make keep) [] = bs.map make := by
      rw [foldl_insertWith_of_nodup (by simpa using hnodup), List.nil_append]
    rw [hfold] at hperm
    refine ⟨fun r hr ↦ ?_, ?_⟩
    · obtain ⟨a, ha, hview⟩ := List.mem_map.mp (hperm.mem_iff.mpr (List.mem_map_of_mem hr))
      obtain ⟨b, hb, rfl⟩ := List.mem_map.mp ha
      obtain ⟨r', -, hsurvive⟩ := List.mem_filterMap.mp (hbs.mem_iff.mp hb)
      exact hview ▸ hsound r' b hsurvive
    · rw [← (hperm.map name).nodup_iff, List.map_map]
      exact hnodup
  · rintro ⟨hkept, hnodup⟩
    have hperm : ((bs.map make).map shown).Perm (rows.map view) := by
      rw [← map_shown_filterMap hcomplete hkept]
      exact (hbs.map make).map shown
    have hkeys : ((([] : List α) ++ bs.map make).map (name ∘ shown)).Nodup := by
      rw [List.nil_append, ← List.map_map, (hperm.map name).nodup_iff]
      exact hnodup
    rw [foldl_insertWith_of_nodup hkeys, List.nil_append]
    exact hperm

theorem eq_iff (hsound : ∀ r b, survive r = some b → Kept (shown (make b)))
    (hcomplete : ∀ r, Kept (view r) → ∃ b, survive r = some b ∧ shown (make b) = view r) :
    ((rows.filterMap survive).foldl (insertWith (name ∘ shown) make keep) []).map shown =
        rows.map view ↔
      (∀ r ∈ rows, Kept (view r)) ∧ ((rows.map view).map name).Nodup := by
  constructor
  · intro h
    exact (perm_iff (.refl _) hsound hcomplete).mp (.of_eq h)
  · rintro ⟨hkept, hnodup⟩
    have hmap := map_shown_filterMap hcomplete hkept
    have hkeys : ((([] : List α) ++ (rows.filterMap survive).map make).map (name ∘ shown)).Nodup := by
      rw [List.nil_append, ← List.map_map, hmap]
      exact hnodup
    rw [foldl_insertWith_of_nodup hkeys, List.nil_append, hmap]

end restored

end AnyList.Library.KeyedInserts
