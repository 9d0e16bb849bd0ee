import AnyList.Migrations.MergedCollections

namespace AnyList.Migrations

open AnyList.Library.UniqueRows
open AnyList.Persistence (CollectionSource)

variable {π : Type*} (dedup : List (ℕ × ℕ)) (collections : List (Dependent ℕ π))
  (files : List (CollectionFile π))

/-- The collection that the files of a file's group are merged into. -/
def fileTarget (f : CollectionFile π) : Option ℕ :=
  (collections.find? fun c ↦ decide (c.id = f.collectionId)).bind (targetOf dedup collections)

/-- What of a file is kept: nothing where it has to move to a target that has the same file. -/
def keptFile (f : CollectionFile π) : Option (ℕ × CollectionSource × Option String) :=
  (fileTarget dedup collections f).bind fun target ↦
    if f.collectionId = target ∨ hasFile files target f = false then
      some (target, f.source, f.sourceId)
    else none

/-- Of all files that a group keeps, no two are alike. -/
def FilesApart : Prop := (files.filterMap (keptFile dedup collections files)).Nodup

def mergedFiles : List (CollectionFile π) :=
  (files.map (moveFile dedup collections files)).filter fun f ↦
    (destination dedup collections f).isNone

/-- The files of a user's collection of a media row, by their source. -/
def filesOf (w u : ℕ) (source : CollectionSource) (sourceId : Option String) :
    List (CollectionFile π) :=
  files.filter fun f ↦ (collections.any fun c ↦ decide (c.id = f.collectionId ∧ c.mediaId = w ∧
    c.columns = u)) && decide (f.source = source ∧ f.sourceId = sourceId)

variable {dedup collections files} {f g : CollectionFile π} {t : ℕ}

theorem destination_eq (f : CollectionFile π) : destination dedup collections f =
    (fileTarget dedup collections f).filter (· ≠ f.collectionId) := by
  rw [destination, fileTarget]
  cases hfind : collections.find? fun c ↦ decide (c.id = f.collectionId) with
  | none => rfl
  | some c =>
    have hid : c.id = f.collectionId := of_decide_eq_true (by simpa using List.find?_some hfind)
    rw [Option.bind_some, Option.bind_some, hid]

theorem destination_eq_some : destination dedup collections f = some t ↔
    fileTarget dedup collections f = some t ∧ t ≠ f.collectionId := by
  rw [destination_eq, Option.filter_eq_some_iff, decide_eq_true_eq]

variable (dedup collections files) in
/-- A file stays or moves to a target that lacks it. -/
theorem moveFile_cases (f : CollectionFile π) : moveFile dedup collections files f = f ∨
    ∃ t, destination dedup collections f = some t ∧ hasFile files t f = false ∧
      moveFile dedup collections files f = { f with collectionId := t } := by
  rw [moveFile]
  split
  · next t ht =>
    split
    · exact .inl rfl
    · next hnot => exact .inr ⟨t, ht, Bool.not_eq_true _ ▸ hnot, rfl⟩
  · exact .inl rfl

theorem find?_collection (hids : (collections.map Dependent.id).Nodup) {c : Dependent ℕ π}
    (hc : c ∈ collections) : collections.find? (fun c' ↦ decide (c'.id = c.id)) = some c := by
  cases hfind : collections.find? fun c' ↦ decide (c'.id = c.id) with
  | none => exact absurd (List.find?_eq_none.mp hfind c hc) (by simp)
  | some c' =>
    have hid : c'.id = c.id := of_decide_eq_true (by simpa using List.find?_some hfind)
    exact congrArg some (List.inj_on_of_nodup_map hids (List.mem_of_find?_eq_some hfind) hc hid)

theorem fileTarget_of_mem (hids : (collections.map Dependent.id).Nodup) {c : Dependent ℕ π}
    (hc : c ∈ collections) (hf : c.id = f.collectionId) :
    fileTarget dedup collections f = targetOf dedup collections c := by
  rw [fileTarget, ← hf, find?_collection hids hc, Option.bind_some]

theorem fileTarget_of_target (hids : (collections.map Dependent.id).Nodup) {w u : ℕ}
    (h : collectionTarget dedup collections w u = some t) (hf : f.collectionId = t) :
    fileTarget dedup collections f = some t := by
  obtain ⟨c, hc, rfl, hgroup, rfl, -⟩ := collectionTarget_spec h
  rw [fileTarget_of_mem hids hc hf.symm, targetOf_of_group hgroup, h]

theorem exists_target (h : fileTarget dedup collections f = some t) :
    ∃ c ∈ collections, ∃ w, c.id = f.collectionId ∧ groupOf dedup c.mediaId = some w ∧
      collectionTarget dedup collections w c.columns = some t := by
  obtain ⟨c, hfind, htarget⟩ := Option.bind_eq_some_iff.mp h
  have hid : c.id = f.collectionId := of_decide_eq_true (by simpa using List.find?_some hfind)
  obtain ⟨w, hgroup, ht⟩ := targetOf_eq_some htarget
  exact ⟨c, List.mem_of_find?_eq_some hfind, w, hid, hgroup, ht⟩

theorem keptFile_of_stays (h : fileTarget dedup collections f = some t) (hf : f.collectionId = t) :
    keptFile dedup collections files f = some (t, f.source, f.sourceId) := by
  rw [keptFile, h, Option.bind_some, if_pos (.inl hf)]

theorem keptFile_of_moves (h : fileTarget dedup collections f = some t)
    (hf : hasFile files t f = false) :
    keptFile dedup collections files f = some (t, f.source, f.sourceId) := by
  rw [keptFile, h, Option.bind_some, if_pos (.inr hf)]

section merging

variable (hids : (collections.map Dependent.id).Nodup)
  (hunique : UniqueOn CollectionFile.key files)

theorem hasFile_of_key {k : ℕ × CollectionSource × String} (hg : g ∈ files) (hgk : g.key = some k)
    (hfk : ({ f with collectionId := t } : CollectionFile π).key = some k) :
    hasFile files t f = true := by
  obtain ⟨sid, hsid, rfl⟩ := Option.map_eq_some_iff.mp hgk
  obtain ⟨sid', hsid', heq⟩ := Option.map_eq_some_iff.mp hfk
  obtain ⟨hc, hs, rfl⟩ : t = g.collectionId ∧ f.source = g.source ∧ sid' = sid := by
    simpa using heq
  refine List.any_eq_true.mpr ⟨g, hg, decide_eq_true ⟨hc.symm, hs.symm, ?_⟩⟩
  exact hsid.trans hsid'.symm

include hunique in
theorem unique_moveFile (hapart : FilesApart dedup collections files) :
    UniqueOn CollectionFile.key (files.map (moveFile dedup collections files)) := by
  rw [UniqueOn, List.pairwise_map]
  have hpair := List.pairwise_filterMap.mp hapart
  refine List.Pairwise.imp_of_mem ?_ (hpair.and hunique)
  intro f g hf hg h k hk hk'
  rcases moveFile_cases dedup collections files f with
    hfsame | ⟨t, ht, hlacks, hfmoved⟩
  · rw [hfsame] at hk
    rcases moveFile_cases dedup collections files g with
      hgsame | ⟨t, ht, hlacks, hgmoved⟩
    · rw [hgsame] at hk'
      exact h.2 k hk hk'
    · rw [hgmoved] at hk'
      rw [hasFile_of_key hf hk hk'] at hlacks
      cases hlacks
  · rw [hfmoved] at hk
    rcases moveFile_cases dedup collections files g with
      hgsame | ⟨t', ht', hlacks', hgmoved⟩
    · rw [hgsame] at hk'
      rw [hasFile_of_key hg hk' hk] at hlacks
      cases hlacks
    · rw [hgmoved] at hk'
      obtain ⟨sid, hsid, rfl⟩ := Option.map_eq_some_iff.mp hk
      obtain ⟨sid', hsid', heq⟩ := Option.map_eq_some_iff.mp hk'
      obtain ⟨rfl, hs, rfl⟩ : t' = t ∧ g.source = f.source ∧ sid' = sid := by simpa using heq
      refine h.1 _ (keptFile_of_moves (destination_eq_some.mp ht).1 hlacks) _
        (keptFile_of_moves (destination_eq_some.mp ht').1 hlacks') ?_
      rw [hs, show f.sourceId = g.sourceId from hsid.trans hsid'.symm]

include hids hunique in
theorem stay_moveFile (hf : f ∈ files) (hg : g ∈ files) {k : ℕ × CollectionSource × String}
    (hk : (moveFile dedup collections files f).key = some k) (hk' : g.key = some k) :
    (moveFile dedup collections files g).key = some k := by
  rcases moveFile_cases dedup collections files f with
    hsame | ⟨t, ht, -, hmoved⟩
  · have hfk := hk
    rw [hsame] at hfk
    rw [← hunique.eq_of_key hf hg hfk hk']
    exact hk
  · rw [hmoved] at hk
    obtain ⟨sid, -, rfl⟩ := Option.map_eq_some_iff.mp hk
    obtain ⟨sid', -, heq⟩ := Option.map_eq_some_iff.mp hk'
    have hgt : g.collectionId = t := (Prod.mk.inj heq).1
    obtain ⟨c, -, w, -, -, htarget⟩ := exists_target (destination_eq_some.mp ht).1
    have hstays : destination dedup collections g = none := by
      rw [destination_eq, fileTarget_of_target hids htarget hgt, hgt]
      simp
    rw [moveFile, hstays]
    exact hk'

include hids hunique in
theorem updateEach_moveFile :
    updateEach CollectionFile.key (moveFile dedup collections files) [] files =
      if UniqueOn CollectionFile.key (files.map (moveFile dedup collections files)) then
        some (files.map (moveFile dedup collections files))
      else none :=
  updateEach_eq (fun _ hf _ hg _ hk hk' ↦ stay_moveFile hids hunique hf hg hk hk') hunique

include hids hunique in
theorem mergeFiles_of_apart (hapart : FilesApart dedup collections files) :
    mergeFiles dedup collections files = some (mergedFiles dedup collections files) := by
  rw [mergeFiles, updateEach_moveFile hids hunique, if_pos (unique_moveFile hunique hapart)]
  rfl

include hids hunique in
theorem eq_of_mergeFiles {files' : List (CollectionFile π)}
    (h : mergeFiles dedup collections files = some files') :
    files' = mergedFiles dedup collections files := by
  rw [mergeFiles, updateEach_moveFile hids hunique] at h
  split at h
  · exact (Option.some.inj h).symm
  · cases h

end merging

section kept

variable (hids : (collections.map Dependent.id).Nodup) {w u : ℕ}
  (htarget : collectionTarget dedup collections w u = some t)
  (source : CollectionSource) (sourceId : Option String)

include hids htarget

variable (files) in
/-- The files that a target ends up with are those that its group keeps. -/
theorem moved_iff_kept (f : CollectionFile π) :
    (destination dedup collections (moveFile dedup collections files f) = none ∧
      (moveFile dedup collections files f).collectionId = t ∧
        (moveFile dedup collections files f).source = source ∧
        (moveFile dedup collections files f).sourceId = sourceId) ↔
      keptFile dedup collections files f = some (t, source, sourceId) := by
  constructor
  · rintro ⟨hstays, hid, rfl, rfl⟩
    rcases moveFile_cases dedup collections files f with
      hsame | ⟨t', ht', hlacks, hmoved⟩
    · rw [hsame] at hid ⊢
      exact keptFile_of_stays (fileTarget_of_target hids htarget hid) hid
    · rw [hmoved] at hid ⊢
      obtain rfl : t' = t := hid
      exact keptFile_of_moves (destination_eq_some.mp ht').1 hlacks
  · intro h
    obtain ⟨t', ht', hkept⟩ := Option.bind_eq_some_iff.mp h
    split at hkept
    · next hor =>
      obtain ⟨rfl, rfl, rfl⟩ : t' = t ∧ f.source = source ∧ f.sourceId = sourceId := by
        simpa using Option.some.inj hkept
      by_cases hid : f.collectionId = t'
      · have hstays : destination dedup collections f = none := by
          rw [destination_eq, ht', hid]
          simp
        rw [moveFile, hstays]
        exact ⟨hstays, hid, rfl, rfl⟩
      · have hlacks := hor.resolve_left hid
        have hdestination : destination dedup collections f = some t' :=
          destination_eq_some.mpr ⟨ht', Ne.symm hid⟩
        rw [moveFile, hdestination]
        simp only [hlacks, Bool.false_eq_true, if_false, and_self, and_true]
        rw [destination_eq, fileTarget_of_target hids htarget rfl]
        simp
    · cases hkept

theorem length_mergedFiles : ((mergedFiles dedup collections files).filter fun f ↦
      decide (f.collectionId = t ∧ f.source = source ∧ f.sourceId = sourceId)).length =
    (files.filterMap (keptFile dedup collections files)).count (t, source, sourceId) := by
  rw [mergedFiles, List.filter_filter, ← List.countP_eq_length_filter, List.countP_map,
    List.count, List.countP_filterMap]
  refine List.countP_congr fun f _ ↦ ?_
  have hiff := moved_iff_kept files hids htarget source sourceId f
  simp only [Function.comp_apply, Bool.and_eq_true, decide_eq_true_eq, Option.isNone_iff_eq_none]
  refine (and_comm.trans hiff).trans ?_
  cases keptFile dedup collections files f with
  | none => simp
  | some kept => simp

end kept

end AnyList.Migrations
