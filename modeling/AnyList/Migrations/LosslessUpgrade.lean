import AnyList.Migrations.MergedFiles
import AnyList.Migrations.MergedMedia

namespace AnyList.Migrations

open AnyList.Library.UniqueRows
open AnyList.Persistence (CollectionSource)

variable {π : Type*}

/-- Tables that keep their primary and unique keys. -/
structure Database (π : Type*) extends Tables π where
  nodup_media : (media.map Media.id).Nodup
  nodup_translations : (mediaTranslations.map Dependent.id).Nodup
  nodup_items : (listItems.map Dependent.id).Nodup
  nodup_ratings : (ratings.map Dependent.id).Nodup
  nodup_rewatches : (rewatchProgress.map Dependent.id).Nodup
  nodup_playbacks : (playbackProgress.map Dependent.id).Nodup
  nodup_collections : (collections.map Dependent.id).Nodup
  unique_translations : UniqueOn (Dependent.key id) mediaTranslations
  unique_items : UniqueOn (Dependent.key ItemColumns.key) listItems
  unique_ratings : UniqueOn (Dependent.key RatingColumns.key) ratings
  unique_rewatches : UniqueOn (Dependent.key id) rewatchProgress
  unique_playbacks : UniqueOn (Dependent.key id) playbackProgress
  unique_collections : UniqueOn (Dependent.key id) collections
  unique_files : UniqueOn CollectionFile.key collectionFiles

/-- What the upgrade promises: one row for every id and type, of a group of rows the first one; all
that belonged to a row belongs to the one it was merged into; and what was not merged is as it
was, up to a dropped id. -/
structure Upgraded (db db' : Tables π) : Prop where
  unique : UniqueOn Media.key db'.media
  home : ∀ m ∈ db.media, (owner (mediaDedup db.media) m.id = m.id ∧
      (m ∈ db'.media ∨ { m with tmdbId := none } ∈ db'.media)) ∨
    ∃ w ∈ db'.media, owner (mediaDedup db.media) m.id = w.id ∧ MergedInto db.media m w ∧
      ∀ m' ∈ db'.media, m'.id ≠ m.id
  unmerged : ∀ m' ∈ db'.media, ∃ m ∈ db.media, owner (mediaDedup db.media) m.id = m.id ∧
    (m' = m ∨ m' = { m with tmdbId := none })
  watchEvents : db'.watchEvents = db.watchEvents.map fun e ↦
    { e with mediaId := owner (mediaDedup db.media) e.mediaId }
  playbackSessions : db'.playbackSessions = db.playbackSessions.map fun p ↦
    { p with mediaId := owner (mediaDedup db.media) p.mediaId }
  mediaTranslations :
    Reduced (mediaDedup db.media) id db.mediaTranslations db'.mediaTranslations
  listItems : Reduced (mediaDedup db.media) ItemColumns.key db.listItems db'.listItems
  ratings : Reduced (mediaDedup db.media) RatingColumns.key db.ratings db'.ratings
  rewatchProgress : Reduced (mediaDedup db.media) id db.rewatchProgress db'.rewatchProgress
  playbackProgress : Reduced (mediaDedup db.media) id db.playbackProgress db'.playbackProgress
  collections : Reduced (mediaDedup db.media) id db.collections db'.collections
  files : ∀ w, IsWinner (mediaDedup db.media) w → ∀ u source sourceId,
    (∃ f ∈ db.collectionFiles, ∃ c ∈ db.collections, c.id = f.collectionId ∧
      owner (mediaDedup db.media) c.mediaId = w ∧ c.columns = u ∧ f.source = source ∧
      f.sourceId = sourceId) →
    (filesOf db'.collections db'.collectionFiles w u source sourceId).length = 1
  ungrouped : ∀ f ∈ db.collectionFiles, ∀ c ∈ db.collections, c.id = f.collectionId →
    ¬ IsWinner (mediaDedup db.media) (owner (mediaDedup db.media) c.mediaId) →
    f ∈ db'.collectionFiles
  sound : ∀ f' ∈ db'.collectionFiles, ∃ f ∈ db.collectionFiles, ∃ collectionId,
    f' = { f with collectionId := collectionId }

section files

variable {dedup : List (ℕ × ℕ)} {collections : List (Dependent ℕ π)}
  {files : List (CollectionFile π)} (hdedup : Sound dedup)
  (hids : (collections.map Dependent.id).Nodup)

theorem nodup_mergedCollections (hids : (collections.map Dependent.id).Nodup) :
    ((mergedCollections dedup collections).map Dependent.id).Nodup := by
  rw [mergedCollections, List.map_map]
  exact hids.sublist (List.filter_sublist.map Dependent.id)

theorem sparedFiles_refl (collections : List (Dependent ℕ π)) (files : List (CollectionFile π)) :
    sparedFiles collections collections files = files := by
  refine List.filter_eq_self.mpr fun f _ ↦ ?_
  cases hasCollection collections f with
  | false => rfl
  | true => rfl

include hids in
/-- No file that is left loses its collection. -/
theorem sparedFiles_eq_self :
    sparedFiles collections (mergedCollections dedup collections)
      (mergedFiles dedup collections files) = mergedFiles dedup collections files := by
  refine List.filter_eq_self.mpr fun g hg ↦ ?_
  rw [Bool.or_eq_true, Bool.not_eq_true']
  by_cases hbefore : hasCollection collections g = false
  · exact .inl hbefore
  · rw [Bool.not_eq_false] at hbefore
    obtain ⟨c, hc, hid⟩ := List.any_eq_true.mp hbefore
    have hcid : c.id = g.collectionId := of_decide_eq_true hid
    have hstays := Option.isNone_iff_eq_none.mp (List.mem_filter.mp hg).2
    rw [destination_eq, fileTarget_of_mem hids hc hcid, ← hcid] at hstays
    refine .inr (List.any_eq_true.mpr ⟨repoint dedup c, List.mem_map_of_mem
      (List.mem_filter.mpr ⟨hc, ?_⟩), decide_eq_true hcid⟩)
    cases htarget : targetOf dedup collections c with
    | none => rfl
    | some t =>
      rw [htarget] at hstays
      simpa using hstays

include hdedup hids in
/-- A user's files at a winner are those of the target. -/
theorem filesOf_merged (hunique : UniqueOn (Dependent.key id) collections) {w u t : ℕ}
    (htarget : collectionTarget dedup collections w u = some t) (source : CollectionSource)
    (sourceId : Option String) :
    filesOf (mergedCollections dedup collections) (mergedFiles dedup collections files) w u source
        sourceId = (mergedFiles dedup collections files).filter fun f ↦
      decide (f.collectionId = t ∧ f.source = source ∧ f.sourceId = sourceId) := by
  obtain ⟨d, hd, rfl, rfl, rfl⟩ := exists_mem_merged htarget
  refine List.filter_congr fun f _ ↦ ?_
  have hany : ((mergedCollections dedup collections).any fun c ↦
      decide (c.id = f.collectionId ∧ c.mediaId = d.mediaId ∧ c.columns = d.columns)) =
      decide (f.collectionId = d.id) := by
    rw [Bool.eq_iff_iff, List.any_eq_true, decide_eq_true_eq]
    constructor
    · rintro ⟨c, hc, hall⟩
      obtain ⟨hid, hmedia, huser⟩ := of_decide_eq_true hall
      have hkey : c.key id = d.key id := congrArg some (Prod.ext huser hmedia)
      rw [← hid, (unique_mergedCollections hdedup hids hunique).eq_of_key hc hd hkey rfl]
    · intro hid
      exact ⟨d, hd, decide_eq_true ⟨hid.symm, rfl, rfl⟩⟩
  rw [hany]
  simp only [Bool.decide_and]

include hdedup hids in
/-- What a group has, it keeps. -/
theorem exists_kept {w u t : ℕ} (hw : IsWinner dedup w)
    (htarget : collectionTarget dedup collections w u = some t) {source : CollectionSource}
    {sourceId : Option String} (h : ∃ f ∈ files, ∃ c ∈ collections, c.id = f.collectionId ∧
      owner dedup c.mediaId = w ∧ c.columns = u ∧ f.source = source ∧ f.sourceId = sourceId) :
    (t, source, sourceId) ∈ files.filterMap (keptFile dedup collections files) := by
  obtain ⟨f, hf, c, hc, hid, howner, rfl, rfl, rfl⟩ := h
  have hfile : fileTarget dedup collections f = some t := by
    rw [fileTarget_of_mem hids hc hid, targetOf_of_group (groupOf_of_owner hdedup hw howner),
      htarget]
  rw [List.mem_filterMap]
  by_cases hlacks : hasFile files t f = false
  · exact ⟨f, hf, keptFile_of_moves hfile hlacks⟩
  · rw [Bool.not_eq_false] at hlacks
    obtain ⟨g, hg, hsame⟩ := List.any_eq_true.mp hlacks
    obtain ⟨hgid, hgs, hgsid⟩ := of_decide_eq_true hsame
    refine ⟨g, hg, ?_⟩
    rw [keptFile_of_stays (fileTarget_of_target hids htarget hgid) hgid, hgs, hgsid]

variable (files) in
include hdedup hids in
/-- Each file of a group is there once just when no two that the group keeps are alike. -/
theorem files_once_iff (hunique : UniqueOn (Dependent.key id) collections) :
    (∀ w, IsWinner dedup w → ∀ u source sourceId,
      (∃ f ∈ files, ∃ c ∈ collections, c.id = f.collectionId ∧ owner dedup c.mediaId = w ∧
        c.columns = u ∧ f.source = source ∧ f.sourceId = sourceId) →
      (filesOf (mergedCollections dedup collections) (mergedFiles dedup collections files) w u
        source sourceId).length = 1) ↔ FilesApart dedup collections files := by
  have hlength {w u t : ℕ} (htarget : collectionTarget dedup collections w u = some t)
      (source : CollectionSource) (sourceId : Option String) :
      (filesOf (mergedCollections dedup collections) (mergedFiles dedup collections files) w u
        source sourceId).length =
      (files.filterMap (keptFile dedup collections files)).count (t, source, sourceId) := by
    rw [filesOf_merged hdedup hids hunique htarget, length_mergedFiles hids htarget]
  constructor
  · intro hall
    refine List.nodup_iff_count_eq_one.mpr ?_
    rintro ⟨t, source, sourceId⟩ hmem
    obtain ⟨f, hf, hkept⟩ := List.mem_filterMap.mp hmem
    obtain ⟨t', ht', hkept⟩ := Option.bind_eq_some_iff.mp hkept
    split at hkept
    · obtain ⟨rfl, rfl, rfl⟩ : t' = t ∧ f.source = source ∧ f.sourceId = sourceId := by
        simpa using Option.some.inj hkept
      obtain ⟨c, hc, w, hid, hgroup, htarget⟩ := exists_target ht'
      obtain ⟨hw, howner⟩ := isWinner_of_groupOf hgroup
      rw [← hlength htarget]
      exact hall w hw _ _ _ ⟨f, hf, c, hc, hid, howner, rfl, rfl, rfl⟩
    · cases hkept
  · intro hapart w hw u source sourceId h
    obtain ⟨f, hf, c, hc, hid, howner, hu, hrest⟩ := h
    obtain ⟨t, ht⟩ := exists_collectionTarget hc (groupOf_of_owner hdedup hw howner)
    rw [hu] at ht
    rw [hlength ht]
    exact List.nodup_iff_count_eq_one.mp hapart _
      (exists_kept hdedup hids hw ht ⟨f, hf, c, hc, hid, howner, hu, hrest⟩)

include hids in
theorem mem_mergedFiles_of_ungrouped {f : CollectionFile π} (hf : f ∈ files) {c : Dependent ℕ π}
    (hc : c ∈ collections) (hid : c.id = f.collectionId)
    (hw : ¬ IsWinner dedup (owner dedup c.mediaId)) : f ∈ mergedFiles dedup collections files := by
  have hgroup : groupOf dedup c.mediaId = none := by
    cases hgroup : groupOf dedup c.mediaId with
    | none => rfl
    | some w =>
      obtain ⟨hwinner, howner⟩ := isWinner_of_groupOf hgroup
      exact absurd (howner ▸ hwinner) hw
  have hstays : destination dedup collections f = none := by
    rw [destination_eq, fileTarget_of_mem hids hc hid, targetOf, hgroup]
    rfl
  refine List.mem_filter.mpr ⟨List.mem_map.mpr ⟨f, hf, ?_⟩, by rw [hstays]; rfl⟩
  rw [moveFile, hstays]

theorem of_mem_mergedFiles {g : CollectionFile π} (h : g ∈ mergedFiles dedup collections files) :
    ∃ f ∈ files, ∃ collectionId, g = { f with collectionId := collectionId } := by
  obtain ⟨f, hf, rfl⟩ := List.mem_map.mp (List.mem_filter.mp h).1
  rcases moveFile_cases dedup collections files f with hsame | ⟨t, -, -, hmoved⟩
  · exact ⟨f, hf, f.collectionId, hsame⟩
  · exact ⟨f, hf, t, hmoved⟩

end files

section upgrade

/-- Unless the files clash, the upgrade goes through; only what it makes of the files is open. -/
theorem upgrade_spec (db : Database π) : ∃ db' : Tables π,
    (mergeFiles (mediaDedup db.media) db.collections db.collectionFiles = none →
      upgrade db.toTables = none) ∧
    (∀ files, mergeFiles (mediaDedup db.media) db.collections db.collectionFiles = some files →
      upgrade db.toTables = some db') ∧
    db'.collections = mergedCollections (mediaDedup db.media) db.collections ∧
    db'.collectionFiles =
      mergedFiles (mediaDedup db.media) db.collections db.collectionFiles ∧
    ((∀ w, IsWinner (mediaDedup db.media) w → ∀ u source sourceId,
      (∃ f ∈ db.collectionFiles, ∃ c ∈ db.collections, c.id = f.collectionId ∧
        owner (mediaDedup db.media) c.mediaId = w ∧ c.columns = u ∧ f.source = source ∧
        f.sourceId = sourceId) →
      (filesOf db'.collections db'.collectionFiles w u source sourceId).length = 1) →
      Upgraded db.toTables db') := by
  have hsound := sound_mediaDedup db.nodup_media
  have hcollections := reduced_mergedCollections hsound db.nodup_collections db.unique_collections
  obtain ⟨translations, htranslations, hreduced₁⟩ :=
    mergeInto_spec hsound db.nodup_translations db.unique_translations
  obtain ⟨items, hitems, hreduced₂⟩ := mergeInto_spec hsound db.nodup_items db.unique_items
  obtain ⟨ratings, hratings, hreduced₃⟩ := mergeInto_spec hsound db.nodup_ratings db.unique_ratings
  obtain ⟨rewatches, hrewatches, hreduced₄⟩ :=
    mergeInto_spec hsound db.nodup_rewatches db.unique_rewatches
  obtain ⟨playbacks, hplaybacks, hreduced₅⟩ :=
    mergeInto_spec hsound db.nodup_playbacks db.unique_playbacks
  have hspared {κ δ : Type} [DecidableEq κ] {key : δ → κ} {rows rows' : List (Dependent δ π)}
      (h : Reduced (mediaDedup db.media) key rows rows') :
      spared (mediaDedup db.media) rows' = rows' :=
    spared_eq_self fun _ hr ↦ h.winnerOf_eq_none hsound hr
  refine ⟨⟨stayingMedia db.media, db.watchEvents.map (repoint (mediaDedup db.media)),
    db.playbackSessions.map (repoint (mediaDedup db.media)), translations, items, ratings,
    rewatches, playbacks, mergedCollections (mediaDedup db.media) db.collections,
    mergedFiles (mediaDedup db.media) db.collections db.collectionFiles⟩, fun hnone ↦ ?_,
    fun files hfiles ↦ ?_, rfl, rfl, fun hfiles ↦ ?_⟩
  · simp only [upgrade, mergeTranslations, htranslations, mergeItems, hitems, mergeRatings,
      hratings, mergeRewatchProgress, hrewatches, mergePlaybackProgress, hplaybacks, hnone]
    rfl
  · obtain rfl := eq_of_mergeFiles db.nodup_collections db.unique_files hfiles
    have hspent : sparedFiles db.collections (mergedCollections (mediaDedup db.media) db.collections)
        (mergedFiles (mediaDedup db.media) db.collections db.collectionFiles) =
        mergedFiles (mediaDedup db.media) db.collections db.collectionFiles :=
      sparedFiles_eq_self db.nodup_collections
    have hmerge := mergeCollections_eq hsound db.nodup_collections db.unique_collections
    have hmedia := unique_stayingMedia db.nodup_media
    rw [stayingMedia] at hmedia
    simp only [upgrade, mergeTranslations, htranslations, mergeItems, hitems, mergeRatings,
      hratings, mergeRewatchProgress, hrewatches, mergePlaybackProgress, hplaybacks, hfiles, hmerge,
      Option.bind_eq_bind, Option.bind_some, deleteLosers, hspent, spared_repoint hsound,
      hspared hreduced₁, hspared hreduced₂, hspared hreduced₃, hspared hreduced₄,
      hspared hreduced₅, hspared hcollections, sparedFiles_refl, if_pos hmedia]
    rfl
  · exact ⟨unique_stayingMedia db.nodup_media, fun m hm ↦ home_cases db.nodup_media hm,
      fun m' hm' ↦ of_mem_stayingMedia hm', rfl, rfl, hreduced₁, hreduced₂, hreduced₃, hreduced₄,
      hreduced₅, hcollections, hfiles,
      fun f hf c hc hid hw ↦ mem_mergedFiles_of_ungrouped db.nodup_collections hf hc hid hw,
      fun g hg ↦ of_mem_mergedFiles hg⟩

/-- The upgrade loses nothing and goes through just when no two of the files that the collections of
a user in a group keep have one source and one id, an absent one included. -/
theorem upgraded_iff (db : Database π) :
    (∃ db', upgrade db.toTables = some db' ∧ Upgraded db.toTables db') ↔
      FilesApart (mediaDedup db.media) db.collections db.collectionFiles := by
  have hsound := sound_mediaDedup db.nodup_media
  obtain ⟨db', hnone, hsome, hcollections, hfiles, hupgraded⟩ := upgrade_spec db
  have honce := files_once_iff db.collectionFiles hsound db.nodup_collections
    db.unique_collections
  rw [hcollections, hfiles] at hupgraded
  constructor
  · rintro ⟨db'', hupgrade, hspec⟩
    cases hmerge : mergeFiles (mediaDedup db.media) db.collections db.collectionFiles with
    | none =>
      rw [hnone hmerge] at hupgrade
      cases hupgrade
    | some files =>
      rw [hsome files hmerge] at hupgrade
      obtain rfl := Option.some.inj hupgrade
      refine honce.mp ?_
      have hall := hspec.files
      rwa [hcollections, hfiles] at hall
  · intro hapart
    exact ⟨db', hsome _ (mergeFiles_of_apart db.nodup_collections db.unique_files hapart),
      hupgraded (honce.mpr hapart)⟩

/-- Three rows of one movie, collected by one user; the collections of the two later rows have the
same file, the first one has none. -/
def tripled : Database Unit where
  media := [⟨1, some 10, .movie, none, none, ()⟩, ⟨2, some 10, .movie, none, none, ()⟩,
    ⟨3, some 10, .movie, none, none, ()⟩]
  watchEvents := []
  playbackSessions := []
  mediaTranslations := []
  listItems := []
  ratings := []
  rewatchProgress := []
  playbackProgress := []
  collections := [⟨1, 1, 1, ()⟩, ⟨2, 2, 1, ()⟩, ⟨3, 3, 1, ()⟩]
  collectionFiles := [⟨1, 2, .plex, some "file", ()⟩, ⟨2, 3, .plex, some "file", ()⟩]
  nodup_media := by decide
  nodup_translations := by decide
  nodup_items := by decide
  nodup_ratings := by decide
  nodup_rewatches := by decide
  nodup_playbacks := by decide
  nodup_collections := by decide
  unique_translations := by decide
  unique_items := by decide
  unique_ratings := by decide
  unique_rewatches := by decide
  unique_playbacks := by decide
  unique_collections := by decide
  unique_files := by decide

/-- Both files move into the first collection at once, and the upgrade aborts. -/
theorem upgrade_tripled :
    ¬ ∃ db', upgrade tripled.toTables = some db' ∧ Upgraded tripled.toTables db' := by
  have hnone : (upgrade tripled.toTables).isNone = true := by decide
  rintro ⟨db', hsome, -⟩
  rw [hsome] at hnone
  cases hnone

end upgrade

end AnyList.Migrations
