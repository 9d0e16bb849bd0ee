import AnyList.Migrations.MergedDependents

namespace AnyList.Migrations

open AnyList.Library.UniqueRows
open AnyList.Persistence (CollectionSource)

variable {π : Type*} {dedup : List (ℕ × ℕ)} {collections : List (Dependent ℕ π)}

section groups

variable {id w : ℕ}

def IsWinner (dedup : List (ℕ × ℕ)) (w : ℕ) : Prop := ∃ d ∈ dedup, d.2 = w

theorem groupOf_of_winner (h : winnerOf dedup id = some w) : groupOf dedup id = some w := by
  rw [groupOf, h, Option.some_or]

theorem groupOf_self (hdedup : Sound dedup) (h : IsWinner dedup w) : groupOf dedup w = some w := by
  obtain ⟨d, hd, rfl⟩ := h
  rw [groupOf, hdedup d hd, Option.none_or, if_pos]
  exact List.any_eq_true.mpr ⟨d, hd, decide_eq_true rfl⟩

theorem isWinner_of_groupOf (h : groupOf dedup id = some w) :
    IsWinner dedup w ∧ owner dedup id = w := by
  cases hid : winnerOf dedup id with
  | some w' =>
    obtain rfl := Option.some.inj ((groupOf_of_winner hid).symm.trans h)
    exact ⟨⟨_, mem_of_winnerOf hid, rfl⟩, owner_of_winner hid⟩
  | none =>
    rw [groupOf, hid, Option.none_or] at h
    split at h
    · next hany =>
      obtain rfl := Option.some.inj h
      obtain ⟨d, hd, hw⟩ := List.any_eq_true.mp hany
      exact ⟨⟨d, hd, of_decide_eq_true hw⟩, owner_of_none hid⟩
    · cases h

theorem groupOf_of_owner (hdedup : Sound dedup) (hw : IsWinner dedup w)
    (h : owner dedup id = w) : groupOf dedup id = some w := by
  cases hid : winnerOf dedup id with
  | some w' => rw [groupOf_of_winner hid, ← owner_of_winner hid, h]
  | none =>
    rw [owner_of_none hid] at h
    rw [h, groupOf_self hdedup hw]

theorem winnerOf_of_groupOf_none (h : groupOf dedup id = none) : winnerOf dedup id = none := by
  cases hid : winnerOf dedup id with
  | some w =>
    rw [groupOf_of_winner hid] at h
    cases h
  | none => rfl

end groups

section targets

variable {w u t : ℕ} {c : Dependent ℕ π}

/-- The target is a collection of the group, the winner's own one if there is one. -/
theorem collectionTarget_spec (h : collectionTarget dedup collections w u = some t) :
    ∃ c ∈ collections, c.id = t ∧ groupOf dedup c.mediaId = some w ∧ c.columns = u ∧
      ∀ c' ∈ collections, groupOf dedup c'.mediaId = some w → c'.columns = u →
        c'.mediaId = w → c.mediaId = w := by
  obtain ⟨c, hc, rfl⟩ := Option.map_eq_some_iff.mp h
  obtain ⟨hmem, hgroup⟩ := List.mem_filter.mp (List.argmin_mem hc)
  obtain ⟨hw, hu⟩ := of_decide_eq_true hgroup
  refine ⟨c, hmem, rfl, hw, hu, fun c' hc' hw' hu' hown ↦ ?_⟩
  have hle := List.le_of_mem_argmin
    (List.mem_filter.mpr ⟨hc', decide_eq_true ⟨hw', hu'⟩⟩) hc
  by_contra hne
  rw [Prod.Lex.toLex_le_toLex] at hle
  simp only [hown, hne, ne_eq, not_true_eq_false, not_false_eq_true, decide_true, decide_false,
    Bool.true_eq_false, false_and, or_false] at hle
  exact absurd hle (by decide)

theorem exists_collectionTarget (hc : c ∈ collections) (h : groupOf dedup c.mediaId = some w) :
    ∃ t, collectionTarget dedup collections w c.columns = some t := by
  rw [collectionTarget]
  cases hmin : (collections.filter fun c' ↦ decide (groupOf dedup c'.mediaId = some w ∧
      c'.columns = c.columns)).argmin fun c' ↦ toLex (decide (c'.mediaId ≠ w), c'.id) with
  | none =>
    refine absurd (List.argmin_eq_none.mp hmin) (List.ne_nil_of_mem (a := c) ?_)
    exact List.mem_filter.mpr ⟨hc, decide_eq_true ⟨h, rfl⟩⟩
  | some c' => exact ⟨c'.id, rfl⟩

theorem targetOf_of_group (h : groupOf dedup c.mediaId = some w) :
    targetOf dedup collections c = collectionTarget dedup collections w c.columns := by
  rw [targetOf, h, Option.bind_some]

theorem targetOf_eq_some (h : targetOf dedup collections c = some t) :
    ∃ w, groupOf dedup c.mediaId = some w ∧
      collectionTarget dedup collections w c.columns = some t :=
  Option.bind_eq_some_iff.mp h

theorem groupOf_eq_none (hc : c ∈ collections) (h : targetOf dedup collections c = none) :
    groupOf dedup c.mediaId = none := by
  cases hgroup : groupOf dedup c.mediaId with
  | none => rfl
  | some w =>
    obtain ⟨t, ht⟩ := exists_collectionTarget hc hgroup
    rw [targetOf_of_group hgroup, ht] at h
    cases h

theorem repointTarget_frame (c : Dependent ℕ π) :
    (repointTarget dedup collections c).id = c.id ∧
      (repointTarget dedup collections c).columns = c.columns := by
  rw [repointTarget]
  split
  · exact ⟨rfl, rfl⟩
  · exact ⟨rfl, rfl⟩

theorem groupOf_repointTarget (hdedup : Sound dedup) (c : Dependent ℕ π) :
    groupOf dedup (repointTarget dedup collections c).mediaId = groupOf dedup c.mediaId := by
  rw [repointTarget]
  split
  · cases hgroup : groupOf dedup c.mediaId with
    | none => rw [Option.getD_none, hgroup]
    | some w =>
      rw [Option.getD_some]
      exact groupOf_self hdedup (isWinner_of_groupOf hgroup).1
  · rfl

theorem targetOf_repointTarget (hdedup : Sound dedup) (c : Dependent ℕ π) :
    targetOf dedup collections (repointTarget dedup collections c) =
      targetOf dedup collections c := by
  rw [targetOf, targetOf, groupOf_repointTarget hdedup, (repointTarget_frame c).2]

/-- What stays of a group is moved to its winner. -/
theorem repointTarget_eq_repoint (hc : c ∈ collections)
    (h : (targetOf dedup collections c).all (· = c.id) = true) :
    repointTarget dedup collections c = repoint dedup c := by
  cases htarget : targetOf dedup collections c with
  | none =>
    have hnone := winnerOf_of_groupOf_none (groupOf_eq_none hc htarget)
    rw [repointTarget, if_neg (by simp [htarget]), repoint_of_none hnone]
  | some t =>
    rw [htarget] at h
    obtain rfl : t = c.id := of_decide_eq_true h
    obtain ⟨w, hgroup, -⟩ := targetOf_eq_some htarget
    rw [repointTarget, if_pos htarget, hgroup, repoint, ← (isWinner_of_groupOf hgroup).2]
    rfl

variable (dedup collections) in
/-- The collections that stay. -/
def staying : List (Dependent ℕ π) :=
  collections.filter fun c ↦ (targetOf dedup collections c).all (· = c.id)

variable (dedup collections) in
def mergedCollections : List (Dependent ℕ π) := (staying dedup collections).map (repoint dedup)

theorem filter_repointTarget (hdedup : Sound dedup) :
    ((collections.map (repointTarget dedup collections)).filter fun c ↦
      (targetOf dedup collections c).all (· = c.id)) = mergedCollections dedup collections := by
  rw [List.filter_map, mergedCollections, staying]
  have hfilter : ((fun c : Dependent ℕ π ↦ (targetOf dedup collections c).all (· = c.id)) ∘
      repointTarget dedup collections) = fun c ↦ (targetOf dedup collections c).all (· = c.id) := by
    funext c
    rw [Function.comp_apply, targetOf_repointTarget hdedup, (repointTarget_frame c).1]
  rw [hfilter]
  refine List.map_congr_left fun c hc ↦ ?_
  obtain ⟨hmem, hall⟩ := List.mem_filter.mp hc
  exact repointTarget_eq_repoint hmem hall

/-- The target of a group is what the group keeps. -/
theorem exists_mem_merged {w u t : ℕ}
    (h : collectionTarget dedup collections w u = some t) :
    ∃ c ∈ mergedCollections dedup collections, c.id = t ∧ c.mediaId = w ∧ c.columns = u := by
  obtain ⟨c, hc, rfl, hgroup, rfl, -⟩ := collectionTarget_spec h
  refine ⟨repoint dedup c, List.mem_map_of_mem (List.mem_filter.mpr ⟨hc, ?_⟩), rfl, ?_, rfl⟩
  · rw [targetOf_of_group hgroup, h]
    simp
  · exact (isWinner_of_groupOf hgroup).2

end targets

section merging

variable (hdedup : Sound dedup) (hids : (collections.map Dependent.id).Nodup)
  (hunique : UniqueOn (Dependent.key id) collections)

include hdedup hids

theorem target_of_targetOf {c : Dependent ℕ π} (hc : c ∈ collections)
    (h : targetOf dedup collections c = some c.id) : ∃ w, IsWinner dedup w ∧
      groupOf dedup c.mediaId = some w ∧ repointTarget dedup collections c = { c with mediaId := w } ∧
      collectionTarget dedup collections w c.columns = some c.id ∧
      ∀ c' ∈ collections, c'.columns = c.columns → c'.mediaId = w → c.mediaId = w := by
  obtain ⟨w, hgroup, htarget⟩ := targetOf_eq_some h
  have hw := (isWinner_of_groupOf hgroup).1
  obtain ⟨d, hd, hdc, -, -, hown⟩ := collectionTarget_spec htarget
  obtain rfl : d = c := List.inj_on_of_nodup_map hids hd hc hdc
  refine ⟨w, hw, hgroup, ?_, htarget, fun c' hc' hu hown' ↦ ?_⟩
  · rw [repointTarget, if_pos h, hgroup, Option.getD_some]
  · exact hown c' hc' (by rw [hown']; exact groupOf_self hdedup hw) hu hown'

/-- The target meets no other collection of its user at the winner. -/
theorem not_key_of_target {c s : Dependent ℕ π} (hc : c ∈ collections) (hs : s ∈ collections)
    (hne : c.id ≠ s.id) (htarget : targetOf dedup collections c = some c.id)
    (hkey : c.key id ≠ s.key id) :
    (repointTarget dedup collections c).key id ≠ (repointTarget dedup collections s).key id := by
  obtain ⟨w, hw, -, hmoved, htargetw, hown⟩ := target_of_targetOf hdedup hids hc htarget
  intro heq
  have heq' := Prod.mk.inj (Option.some.inj heq)
  rw [(repointTarget_frame s).2, hmoved] at heq'
  obtain ⟨huser, hmedia⟩ := heq'
  by_cases hstarget : targetOf dedup collections s = some s.id
  · obtain ⟨w', -, -, hsmoved, hstargetw, -⟩ := target_of_targetOf hdedup hids hs hstarget
    rw [hsmoved] at hmedia
    obtain rfl : w = w' := hmedia
    have husers : c.columns = s.columns := huser
    rw [husers, hstargetw] at htargetw
    exact hne (Option.some.inj htargetw).symm
  · rw [repointTarget, if_neg hstarget] at hmedia
    have hcmedia := hown s hs huser.symm hmedia.symm
    exact hkey (congrArg some (Prod.ext huser (hcmedia.trans hmedia)))

include hunique

theorem unique_repointTarget :
    UniqueOn (Dependent.key id) (collections.map (repointTarget dedup collections)) := by
  rw [UniqueOn, List.pairwise_map]
  have hids' : collections.Pairwise fun c s ↦ c.id ≠ s.id := List.pairwise_map.mp hids
  refine List.Pairwise.imp_of_mem ?_ (hids'.and hunique)
  intro c s hc hs h k hk hk'
  have hkey : c.key id ≠ s.key id := fun heq ↦ h.2 _ rfl heq.symm
  by_cases hctarget : targetOf dedup collections c = some c.id
  · exact not_key_of_target hdedup hids hc hs h.1 hctarget hkey (hk.trans hk'.symm)
  · by_cases hstarget : targetOf dedup collections s = some s.id
    · exact not_key_of_target hdedup hids hs hc h.1.symm hstarget hkey.symm (hk'.trans hk.symm)
    · rw [repointTarget, if_neg hctarget] at hk
      rw [repointTarget, if_neg hstarget] at hk'
      exact h.2 k hk hk'

theorem stay_repointTarget {c s : Dependent ℕ π} (hc : c ∈ collections) (hs : s ∈ collections)
    {k : ℕ × ℕ} (hk : (repointTarget dedup collections c).key id = some k)
    (hk' : s.key id = some k) : (repointTarget dedup collections s).key id = some k := by
  by_cases hctarget : targetOf dedup collections c = some c.id
  · obtain ⟨w, hw, -, hmoved, -, -⟩ := target_of_targetOf hdedup hids hc hctarget
    have hmedia : s.mediaId = w := by
      rw [hmoved] at hk
      exact (Prod.mk.inj (Option.some.inj (hk'.trans hk.symm))).2
    rw [← hk', repointTarget]
    split
    · rw [hmedia, groupOf_self hdedup hw, ← hmedia]
      rfl
    · rfl
  · have hsame := hk
    rw [repointTarget, if_neg hctarget] at hsame
    rw [← hunique.eq_of_key hc hs hsame hk']
    exact hk

theorem mergeCollections_eq :
    mergeCollections dedup collections = some (mergedCollections dedup collections) := by
  have hmapped := unique_repointTarget hdedup hids hunique
  rw [mergeCollections, updateEach_eq, List.nil_append, if_pos hmapped, Option.map_some,
    filter_repointTarget hdedup]
  · exact fun c hc s hs k hk hk' ↦ stay_repointTarget hdedup hids hunique hc hs hk hk'
  · exact hunique

theorem unique_mergedCollections : UniqueOn (Dependent.key id) (mergedCollections dedup collections) := by
  rw [← filter_repointTarget hdedup]
  exact unique_filter _ (unique_repointTarget hdedup hids hunique)

theorem reduced_mergedCollections :
    Reduced dedup id collections (mergedCollections dedup collections) where
  one w u h := by
    have hlength := (unique_mergedCollections hdedup hids hunique).length_filter (u, w)
    have hkey (c : Dependent ℕ π) : decide (c.mediaId = w ∧ id c.columns = u) =
        decide (c.key id = some (u, w)) := by
      simp [Dependent.key, and_comm]
    simp only [hkey]
    rw [hlength, if_pos]
    obtain ⟨c, hc, howner, hu⟩ := h
    by_cases hw : IsWinner dedup w
    · obtain ⟨t, ht⟩ := exists_collectionTarget hc (groupOf_of_owner hdedup hw howner)
      obtain ⟨c', hc', -, hmedia, huser⟩ := exists_mem_merged ht
      exact ⟨c', hc', congrArg some (Prod.ext (huser.trans hu) hmedia)⟩
    · have hgroup : groupOf dedup c.mediaId = none := by
        cases hgroup : groupOf dedup c.mediaId with
        | none => rfl
        | some w' =>
          obtain ⟨hw', howner'⟩ := isWinner_of_groupOf hgroup
          exact absurd (howner'.symm.trans howner ▸ hw') hw
      refine ⟨repoint dedup c, List.mem_map_of_mem (List.mem_filter.mpr ⟨hc, ?_⟩), ?_⟩
      · rw [targetOf, hgroup]
        rfl
      · exact congrArg some (Prod.ext hu howner)
  own c hc hnone := by
    refine List.mem_map.mpr ⟨c, List.mem_filter.mpr ⟨hc, ?_⟩, repoint_of_none hnone⟩
    cases htarget : targetOf dedup collections c with
    | none => rfl
    | some t =>
      obtain ⟨w, hgroup, htargetw⟩ := targetOf_eq_some htarget
      obtain ⟨d, hd, rfl, -, hdu, hown⟩ := collectionTarget_spec htargetw
      have hmedia : c.mediaId = w := by
        rw [← (isWinner_of_groupOf hgroup).2, owner_of_none hnone]
      have hdmedia := hown c hc hgroup rfl hmedia
      have hkey : d.key id = c.key id := congrArg some (Prod.ext hdu (hdmedia.trans hmedia.symm))
      rw [hunique.eq_of_key hd hc hkey rfl]
      simp
  sound c' hc' := by
    obtain ⟨c, hc, rfl⟩ := List.mem_map.mp hc'
    exact ⟨c, (List.mem_filter.mp hc).1, rfl⟩

end merging

end AnyList.Migrations
