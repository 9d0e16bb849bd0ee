import AnyList.Migrations.DuplicateMedia

namespace AnyList.Migrations

open AnyList.Library.UniqueRows

variable {κ δ π : Type*} [DecidableEq κ]

section winners

variable {dedup : List (ℕ × ℕ)} {id winner : ℕ}

/-- No row is a winner over one group and a loser of another. -/
def Sound (dedup : List (ℕ × ℕ)) : Prop := ∀ d ∈ dedup, winnerOf dedup d.2 = none

/-- Where what belongs to a media row ends up. -/
def owner (dedup : List (ℕ × ℕ)) (id : ℕ) : ℕ := (winnerOf dedup id).getD id

theorem winnerOf_eq_none : winnerOf dedup id = none ↔ isLoser dedup id = false := by
  rw [winnerOf, Option.map_eq_none_iff, List.find?_eq_none, isLoser, List.any_eq_false]

theorem mem_of_winnerOf (h : winnerOf dedup id = some winner) : (id, winner) ∈ dedup := by
  obtain ⟨d, hd, rfl⟩ := Option.map_eq_some_iff.mp h
  have hid := List.find?_some hd
  obtain rfl : d.1 = id := of_decide_eq_true hid
  exact List.mem_of_find?_eq_some hd

theorem owner_of_winner (h : winnerOf dedup id = some winner) : owner dedup id = winner := by
  rw [owner, h, Option.getD_some]

theorem owner_of_none (h : winnerOf dedup id = none) : owner dedup id = id := by
  rw [owner, h, Option.getD_none]

theorem Sound.winnerOf_owner (h : Sound dedup) (id : ℕ) :
    winnerOf dedup (owner dedup id) = none := by
  cases hid : winnerOf dedup id with
  | none => rwa [owner_of_none hid]
  | some winner =>
    rw [owner_of_winner hid]
    exact h (id, winner) (mem_of_winnerOf hid)

theorem mediaId_repoint (r : Dependent δ π) :
    (repoint dedup r).mediaId = owner dedup r.mediaId := rfl

theorem repoint_of_none {r : Dependent δ π} (h : winnerOf dedup r.mediaId = none) :
    repoint dedup r = r := by
  rw [repoint, h]
  rfl

theorem spared_eq_self {rows : List (Dependent δ π)}
    (h : ∀ r ∈ rows, winnerOf dedup r.mediaId = none) : spared dedup rows = rows := by
  refine List.filter_eq_self.mpr fun r hr ↦ ?_
  rw [winnerOf_eq_none.mp (h r hr)]
  rfl

theorem spared_repoint (h : Sound dedup) (rows : List (Dependent δ π)) :
    spared dedup (rows.map (repoint dedup)) = rows.map (repoint dedup) := by
  refine spared_eq_self fun r hr ↦ ?_
  obtain ⟨s, -, rfl⟩ := List.mem_map.mp hr
  exact h.winnerOf_owner s.mediaId

end winners

/-- What a merge leaves: one row for every key that a group has, a row of the winner first, and
nothing else. -/
structure Reduced (dedup : List (ℕ × ℕ)) (key : δ → κ) (rows rows' : List (Dependent δ π)) :
    Prop where
  one : ∀ w k, (∃ r ∈ rows, owner dedup r.mediaId = w ∧ key r.columns = k) →
    (rows'.filter fun r ↦ decide (r.mediaId = w ∧ key r.columns = k)).length = 1
  own : ∀ r ∈ rows, winnerOf dedup r.mediaId = none → r ∈ rows'
  sound : ∀ r' ∈ rows', ∃ r ∈ rows, r' = repoint dedup r

section merging

variable {dedup : List (ℕ × ℕ)} {key : δ → κ} {rows rows' : List (Dependent δ π)}

theorem Reduced.winnerOf_eq_none (h : Reduced dedup key rows rows') (hdedup : Sound dedup)
    {r : Dependent δ π} (hr : r ∈ rows') : winnerOf dedup r.mediaId = none := by
  obtain ⟨s, -, rfl⟩ := h.sound r hr
  exact hdedup.winnerOf_owner s.mediaId

theorem covered_of_own {r s : Dependent δ π} (hs : s ∈ rows)
    (h : winnerOf dedup r.mediaId = some s.mediaId) (hkey : key s.columns = key r.columns) :
    covered dedup key rows r = true := by
  rw [covered, h, Option.any_some, Bool.or_eq_true]
  exact .inl (List.any_eq_true.mpr ⟨s, hs, decide_eq_true ⟨rfl, hkey⟩⟩)

theorem covered_of_lower {r s : Dependent δ π} {w : ℕ} (hs : s ∈ rows)
    (hr : winnerOf dedup r.mediaId = some w) (hsw : winnerOf dedup s.mediaId = some w)
    (hkey : key s.columns = key r.columns) (hid : s.id < r.id) :
    covered dedup key rows r = true := by
  rw [covered, hr, Option.any_some, Bool.or_eq_true]
  exact .inr (List.any_eq_true.mpr ⟨s, hs, decide_eq_true ⟨hsw, hkey, hid⟩⟩)

theorem covered_of_none {r : Dependent δ π} (h : winnerOf dedup r.mediaId = none) :
    covered dedup key rows r = false := by
  rw [covered, h]
  rfl

/-- Two rows that no other row covers do not meet. -/
theorem repoint_ne {r s : Dependent δ π} (hr : r ∈ rows) (hs : s ∈ rows)
    (hrc : covered dedup key rows r = false) (hsc : covered dedup key rows s = false)
    (hid : r.id ≠ s.id) (hne : (key r.columns, r.mediaId) ≠ (key s.columns, s.mediaId)) :
    (key r.columns, owner dedup r.mediaId) ≠ (key s.columns, owner dedup s.mediaId) := by
  intro heq
  obtain ⟨hkey, howner⟩ := Prod.mk.inj heq
  cases hrw : winnerOf dedup r.mediaId with
  | none =>
    rw [owner_of_none hrw] at howner
    cases hsw : winnerOf dedup s.mediaId with
    | none =>
      rw [owner_of_none hsw] at howner
      exact hne (by rw [hkey, howner])
    | some w =>
      rw [owner_of_winner hsw] at howner
      rw [covered_of_own hr (howner ▸ hsw) hkey] at hsc
      cases hsc
  | some w =>
    rw [owner_of_winner hrw] at howner
    cases hsw : winnerOf dedup s.mediaId with
    | none =>
      rw [owner_of_none hsw] at howner
      rw [covered_of_own hs (howner ▸ hrw) hkey.symm] at hrc
      cases hrc
    | some w' =>
      rw [owner_of_winner hsw] at howner
      subst howner
      rcases Nat.lt_or_gt_of_ne hid with hlt | hlt
      · rw [covered_of_lower hr hsw hrw hkey hlt] at hsc
        cases hsc
      · rw [covered_of_lower hs hrw hsw hkey.symm hlt] at hrc
        cases hrc

variable (dedup) in
theorem unique_merged (hids : (rows.map Dependent.id).Nodup)
    (hunique : UniqueOn (Dependent.key key) rows) :
    UniqueOn (Dependent.key key)
      ((rows.filter fun r ↦ !covered dedup key rows r).map (repoint dedup)) := by
  rw [UniqueOn, List.pairwise_map, List.pairwise_filter]
  have hids' : rows.Pairwise fun r s ↦ r.id ≠ s.id := List.pairwise_map.mp hids
  refine List.Pairwise.imp_of_mem ?_ (hids'.and hunique)
  intro r s hr hs h hrc hsc k hk hk'
  rw [Bool.not_eq_true'] at hrc hsc
  have hne := h.2 _ rfl
  refine repoint_ne hr hs hrc hsc h.1 (fun heq ↦ hne ?_) ?_
  · exact congrArg some heq.symm
  · exact (Option.some.inj hk).trans (Option.some.inj hk').symm

/-- A key that a group has is on a row that no other row covers. -/
theorem exists_uncovered (hdedup : Sound dedup) {w : ℕ} {k : κ}
    (h : ∃ r ∈ rows, owner dedup r.mediaId = w ∧ key r.columns = k) :
    ∃ r ∈ rows, covered dedup key rows r = false ∧ owner dedup r.mediaId = w ∧
      key r.columns = k := by
  by_cases hown : ∃ r ∈ rows, r.mediaId = w ∧ key r.columns = k
  · obtain ⟨r, hr, rfl, hk⟩ := hown
    obtain ⟨s, -, hs, -⟩ := h
    have hnone : winnerOf dedup r.mediaId = none := hs ▸ hdedup.winnerOf_owner s.mediaId
    exact ⟨r, hr, covered_of_none hnone, owner_of_none hnone, hk⟩
  · let group := rows.filter fun r ↦ decide (owner dedup r.mediaId = w ∧ key r.columns = k)
    have hne : group ≠ [] := by
      obtain ⟨r, hr, hrw⟩ := h
      exact List.ne_nil_of_mem (List.mem_filter.mpr ⟨hr, decide_eq_true hrw⟩)
    cases hmin : group.argmin Dependent.id with
    | none => exact absurd (List.argmin_eq_none.mp hmin) hne
    | some r =>
      obtain ⟨hr, hrw⟩ := List.mem_filter.mp (List.argmin_mem hmin)
      obtain ⟨howner, hk⟩ := of_decide_eq_true hrw
      refine ⟨r, hr, ?_, howner, hk⟩
      by_contra hcovered
      rw [Bool.not_eq_false, covered, Option.any_eq_true] at hcovered
      obtain ⟨w', hw', hany⟩ := hcovered
      obtain rfl : w' = w := (owner_of_winner hw').symm.trans howner
      rcases Bool.or_eq_true_iff.mp hany with hany | hany
      · obtain ⟨s, hs, hsw⟩ := List.any_eq_true.mp hany
        obtain ⟨hsw, hsk⟩ := of_decide_eq_true hsw
        exact hown ⟨s, hs, hsw, hsk.trans hk⟩
      · obtain ⟨s, hs, hsw⟩ := List.any_eq_true.mp hany
        obtain ⟨hsw, hsk, hlt⟩ := of_decide_eq_true hsw
        have hmem : s ∈ group := List.mem_filter.mpr
          ⟨hs, decide_eq_true ⟨owner_of_winner hsw, hsk.trans hk⟩⟩
        exact absurd hlt (Nat.not_lt.mpr (List.le_of_mem_argmin hmem hmin))

/-- A merge of unique rows succeeds and leaves one row for every key. -/
theorem mergeInto_spec (hdedup : Sound dedup) (hids : (rows.map Dependent.id).Nodup)
    (hunique : UniqueOn (Dependent.key key) rows) :
    ∃ rows', mergeInto dedup key rows = some rows' ∧ Reduced dedup key rows rows' := by
  have hmerged := unique_merged dedup hids hunique
  refine ⟨(rows.filter fun r ↦ !covered dedup key rows r).map (repoint dedup), ?_,
    fun w k h ↦ ?_, fun r hr hnone ↦ ?_, fun r' hr' ↦ ?_⟩
  · rw [mergeInto, updateEach_eq, List.nil_append, if_pos hmerged]
    · intro r _ s _ k hr hs
      have hmedia : s.mediaId = owner dedup r.mediaId :=
        (Prod.mk.inj ((Option.some.inj hs).trans (Option.some.inj hr).symm)).2
      rw [repoint_of_none (hmedia ▸ hdedup.winnerOf_owner r.mediaId)]
      exact hs
    · exact unique_filter _ hunique
  · have hlength := hmerged.length_filter (k, w)
    have hkey (r : Dependent δ π) :
        decide (r.mediaId = w ∧ key r.columns = k) = decide (r.key key = some (k, w)) := by
      simp [Dependent.key, and_comm]
    obtain ⟨r, hr, hrc, howner, hk⟩ := exists_uncovered hdedup h
    simp only [hkey]
    rw [hlength, if_pos]
    refine ⟨repoint dedup r, List.mem_map_of_mem (List.mem_filter.mpr ⟨hr, by rw [hrc]; rfl⟩), ?_⟩
    rw [Dependent.key, mediaId_repoint, howner]
    exact congrArg (fun k ↦ some (k, w)) hk
  · refine List.mem_map.mpr ⟨r, List.mem_filter.mpr ⟨hr, ?_⟩, repoint_of_none hnone⟩
    rw [covered_of_none hnone]
    rfl
  · obtain ⟨r, hr, rfl⟩ := List.mem_map.mp hr'
    exact ⟨r, (List.mem_filter.mp hr).1, rfl⟩

end merging

end AnyList.Migrations
