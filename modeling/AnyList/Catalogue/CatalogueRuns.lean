import AnyList.Catalogue.EpisodeCatalogue
import AnyList.Library.Partial
import AnyList.Library.Runs

namespace AnyList.Catalogue.EpisodeCatalogue

open AnyList.Library AnyList.Library.Runs

/-- A series with its stored catalogue, and what the last successful run returned. -/
structure Followed where
  store : Store
  last : Option (Provider × List Returned)

inductive Event
  | hydrate (answers : Answers)
  | changeSource (showId : ℕ) (source : Provider)

def Store.changeSource (s : Store) (showId : ℕ) (source : Provider) : Store :=
  { s with shows := s.shows.modifyAt showId fun row ↦ { row with canonicalSource := source } }

/-- The caller of a run that fails rolls it back. -/
def step (s : Followed) : Event → Followed
  | .hydrate answers =>
    match hydrateTrackingEpisodes s.store answers with
    | some (store, returned) => ⟨store, some (s.store.asks, returned)⟩
    | none => s
  | .changeSource showId source => ⟨s.store.changeSource showId source, s.last⟩

def Returned.isAt (item : Returned) (provider : Provider) (row : EpisodeRow) : Prop :=
  row.identity provider = some item.id ∧ row.season = some item.season ∧
    row.number = some item.number

/-- The catalogue is read in the identifiers of the provider that wrote it, and selects what that
provider returned and what was imported. -/
structure Follows (s : Store) (provider : Provider) (returned : List Returned) : Prop where
  ids : s.root.catalogueIds = some (returned.map Returned.id)
  readAs : s.root.readAs = provider
  selected : ∀ today entry, entry ∈ releasedEpisodes s true today ↔
    ∃ showId row, s.show? = some (showId, row) ∧ entry ∈ s.episodes.rows ∧
      isRegular showId entry.2 = true ∧
      ((∃ item ∈ returned, entry.2.identity provider = some item.id) ∨
        s.root.isImported entry = true)
  present : ∀ today, ∀ item ∈ returned, ∃ entry ∈ releasedEpisodes s true today,
    item.isAt provider entry.2

/-- The row keeps its show, its place and the identities it has. -/
structure RowKept (row row' : EpisodeRow) : Prop where
  showId : row'.showId = row.showId
  season : row'.season = row.season
  number : row'.number = row.number
  tmdbId : row'.tmdbId = row.tmdbId
  tvdbId : ∀ id ∈ row.tvdbId, row'.tvdbId = some id

def Kept (episodes episodes' : Table EpisodeRow) : Prop :=
  ∀ id row, (id, row) ∈ episodes.rows → ∃ row', (id, row') ∈ episodes'.rows ∧ RowKept row row'

section rows

variable {row row' row'' : EpisodeRow} {episodes episodes' episodes'' : Table EpisodeRow}
  {item : Returned} {showId : ℕ}

theorem RowKept.refl (row : EpisodeRow) : RowKept row row := ⟨rfl, rfl, rfl, rfl, fun _ h ↦ h⟩

theorem RowKept.trans (h : RowKept row row') (h' : RowKept row' row'') : RowKept row row'' where
  showId := h'.showId.trans h.showId
  season := h'.season.trans h.season
  number := h'.number.trans h.number
  tmdbId := h'.tmdbId.trans h.tmdbId
  tvdbId id hid := h'.tvdbId id (h.tvdbId id hid)

theorem RowKept.identity (h : RowKept row row') {provider : Provider} {id : ℤ}
    (hid : row.identity provider = some id) : row'.identity provider = some id := by
  cases provider with
  | tmdb => exact h.tmdbId.trans hid
  | tvdb => exact h.tvdbId id hid

theorem Kept.refl (episodes : Table EpisodeRow) : Kept episodes episodes :=
  fun _ row h ↦ ⟨row, h, .refl row⟩

theorem Kept.trans (h : Kept episodes episodes') (h' : Kept episodes' episodes'') :
    Kept episodes episodes'' := by
  intro id row hrow
  obtain ⟨row', hrow', hkept⟩ := h id row hrow
  obtain ⟨row'', hrow'', hkept'⟩ := h' id row' hrow'
  exact ⟨row'', hrow'', hkept.trans hkept'⟩

theorem kept_insert (episodes : Table EpisodeRow) (row : EpisodeRow) :
    Kept episodes (episodes.insert row) :=
  fun _ old h ↦ ⟨old, List.mem_append_left _ h, .refl old⟩

theorem kept_modifyAt (episodes : Table EpisodeRow) (id : ℕ) {f : EpisodeRow → EpisodeRow}
    (hf : ∀ row, RowKept row (f row)) : Kept episodes (episodes.modifyAt id f) := by
  intro i row hrow
  refine ⟨_, Table.mem_modifyAt.mpr ⟨row, hrow, rfl⟩, ?_⟩
  split_ifs
  · exact hf row
  · exact .refl row

theorem rowKept_refresh (row : EpisodeRow) (details : Details) : RowKept row (row.refresh details) :=
  ⟨rfl, rfl, rfl, rfl, fun _ h ↦ h⟩

theorem rowKept_identified (row : EpisodeRow) (id : ℤ) (details : Details) :
    RowKept row ({ row with tvdbId := row.tvdbId.or (some id) }.refresh details) where
  showId := rfl
  season := rfl
  number := rfl
  tmdbId := rfl
  tvdbId id' h := by
    rw [Option.mem_def] at h
    simp [EpisodeRow.refresh, h]

/-- The episode is stored for the show, under its identity and in its place. -/
def Placed (showId : ℕ) (provider : Provider) (episodes : Table EpisodeRow) (item : Returned) : Prop :=
  ∃ entry ∈ episodes.rows, entry.2.showId = some showId ∧ item.isAt provider entry.2

theorem Placed.kept {provider : Provider} (h : Placed showId provider episodes item)
    (hkept : Kept episodes episodes') : Placed showId provider episodes' item := by
  obtain ⟨entry, hentry, hshow, hid, hseason, hnumber⟩ := h
  obtain ⟨row', hrow', hrow⟩ := hkept entry.1 entry.2 hentry
  exact ⟨_, hrow', hrow.showId.trans hshow, hrow.identity hid, hrow.season.trans hseason,
    hrow.number.trans hnumber⟩

theorem placed_insert {provider : Provider} {f : EpisodeRow → EpisodeRow}
    (hf : ∀ row, RowKept row (f row)) (episodes : Table EpisodeRow) (item : Returned) :
    Placed showId provider (episodes.insert (f (newEpisode showId provider item))) item := by
  have hkept := hf (newEpisode showId provider item)
  refine ⟨_, List.mem_append_right _ (List.mem_singleton_self _), hkept.showId, ?_, hkept.season,
    hkept.number⟩
  refine hkept.identity ?_
  cases provider <;> rfl

theorem mem_of_get {id : ℕ} (h : episodes.get id = some row) : (id, row) ∈ episodes.rows :=
  Table.get_eq_some.mp h

end rows

section placing

variable {episodes episodes' stored : Table EpisodeRow} {existing : List (ℕ × EpisodeRow)}
  {item : Returned} {showId : ℕ}

/-- Placing every item of a list, each step of which keeps the rows and places its item. -/
theorem of_foldlM {provider : Provider} {place : Table EpisodeRow → Returned → Option (Table EpisodeRow)}
    {items : List Returned} (hkept : Kept stored episodes)
    (hplace : ∀ episodes episodes' item, Kept stored episodes → place episodes item = some episodes' →
      Kept episodes episodes' ∧ Placed showId provider episodes' item)
    (h : items.foldlM place episodes = some episodes') :
    Kept episodes episodes' ∧ ∀ item ∈ items, Placed showId provider episodes' item := by
  induction items generalizing episodes with
  | nil =>
    obtain rfl := Option.some.inj h
    exact ⟨.refl episodes, by simp⟩
  | cons item items ih =>
    rw [List.foldlM_cons, Option.bind_eq_bind, Option.bind_eq_some_iff] at h
    obtain ⟨next, hnext, hrest⟩ := h
    obtain ⟨hstep, hitem⟩ := hplace episodes next item hkept hnext
    obtain ⟨hkept', hitems⟩ := ih (hkept.trans hstep) hrest
    refine ⟨hstep.trans hkept', fun item' hitem' ↦ ?_⟩
    obtain rfl | hmem := List.mem_cons.mp hitem'
    · exact hitem.kept hkept'
    · exact hitems item' hmem

theorem mem_of_storedTvdb {id : ℕ} (h : storedTvdb existing item = some id) :
    ∃ row, (id, row) ∈ existing := by
  obtain ⟨entry, hentry, rfl⟩ := Option.map_eq_some_iff.mp h
  obtain hid | ⟨-, hplace⟩ := Option.or_eq_some_iff.mp hentry
  · exact ⟨entry.2, List.mem_of_mem_filter (List.mem_of_getLast? hid)⟩
  · exact ⟨entry.2, List.mem_of_mem_filter (List.mem_of_getLast? hplace)⟩

theorem of_placeTvdb (hexisting : ∀ entry ∈ existing,
      entry ∈ stored.rows ∧ entry.2.showId = some showId) (hkept : Kept stored episodes)
    (h : placeTvdb showId existing episodes item = some episodes') :
    Kept episodes episodes' ∧ Placed showId .tvdb episodes' item := by
  rw [placeTvdb] at h
  cases hstored : storedTvdb existing item with
  | none =>
    simp only [hstored, Option.some.injEq] at h
    subst h
    exact ⟨kept_insert episodes _,
      placed_insert (fun row ↦ rowKept_refresh row item.details) episodes item⟩
  | some id =>
    simp only [hstored, Option.bind_eq_bind, Option.bind_eq_some_iff] at h
    obtain ⟨row, hrow, h⟩ := h
    split_ifs at h with hplace hidentity
    obtain rfl := Option.some.inj h
    have hmem := mem_of_get hrow
    refine ⟨kept_modifyAt episodes id fun row ↦ rowKept_identified row item.id item.details, ?_⟩
    refine ⟨_, Table.mem_modifyAt.mpr ⟨row, hmem, rfl⟩, ?_⟩
    rw [if_pos rfl]
    push Not at hplace hidentity
    obtain ⟨row', hrow'⟩ := mem_of_storedTvdb hstored
    obtain ⟨hmem', hshow⟩ := hexisting _ hrow'
    obtain ⟨now, hnow, hrowKept⟩ := hkept id row' hmem'
    obtain rfl := Table.eq_of_mem hmem hnow
    have hid : row.tvdbId.or (some item.id) = some item.id := by
      cases htvdb : row.tvdbId with
      | none => rfl
      | some id' =>
        have hsame := hidentity (by simp [htvdb])
        rwa [htvdb] at hsame
    exact ⟨hrowKept.showId.trans hshow, hid, hplace.1, hplace.2⟩

theorem of_createMediaSafely {created : Table EpisodeRow} {id : ℕ}
    (h : createMediaSafely showId episodes item = (created, id)) :
    Kept episodes created ∧ ∃ row, (id, row) ∈ created.rows ∧ row.tmdbId = some item.id := by
  rw [createMediaSafely] at h
  split at h
  · rename_i entry hentry
    obtain ⟨rfl, rfl⟩ := Prod.mk.inj h
    exact ⟨.refl _, entry.2, List.mem_of_find?_eq_some hentry,
      by simpa using List.find?_some hentry⟩
  · obtain ⟨rfl, rfl⟩ := Prod.mk.inj h
    exact ⟨kept_insert episodes _, _, List.mem_append_right _ (List.mem_singleton_self _), rfl⟩

theorem of_placeTmdb (h : placeTmdb showId episodes item = some episodes') :
    Kept episodes episodes' ∧ Placed showId .tmdb episodes' item := by
  rw [placeTmdb] at h
  obtain ⟨hcreated, row', hrow', hid⟩ := of_createMediaSafely (show createMediaSafely showId episodes
    item = ((createMediaSafely showId episodes item).1, (createMediaSafely showId episodes item).2)
    from rfl)
  simp only [Option.bind_eq_bind, Option.bind_eq_some_iff] at h
  obtain ⟨row, hrow, h⟩ := h
  split_ifs at h with hplace
  obtain rfl := Option.some.inj h
  have hmem := mem_of_get hrow
  obtain rfl := Table.eq_of_mem hmem hrow'
  push Not at hplace
  refine ⟨hcreated.trans (kept_modifyAt _ _ fun row ↦ rowKept_refresh row item.details), ?_⟩
  refine ⟨_, Table.mem_modifyAt.mpr ⟨row, hmem, rfl⟩, ?_⟩
  rw [if_pos rfl]
  exact ⟨hplace.1, hid, hplace.2.1, hplace.2.2⟩

end placing

section runs

variable {s s' : Store} {answers : Answers} {returned : List Returned} {showId : ℕ} {row : ShowRow}
  {provider : Provider}

theorem season_of_identified {season : ℤ} {listed : ListedEpisode} {item : Returned}
    (h : identified season listed = some item) : item.season = season := by
  simp only [identified, Option.bind_eq_bind, Option.bind_eq_some_iff, Option.pure_def,
    Option.some.injEq] at h
  obtain ⟨id, -, number, -, rfl⟩ := h
  rfl

theorem pos_of_mem_tvdbEpisodes {answer : TvdbAnswer} (h : tvdbEpisodes answer = some returned) :
    ∀ item ∈ returned, 0 < item.season := by
  intro item hitem
  obtain ⟨listed, hlisted, hidentified⟩ := Partial.exists_of_mem_mapM h hitem
  rw [season_of_identified hidentified]
  exact of_decide_eq_true (List.mem_filter.mp hlisted).2

theorem pos_of_mem_tmdbEpisodes {seasons : List Season}
    (h : tmdbEpisodes answers seasons = some returned) : ∀ item ∈ returned, 0 < item.season := by
  intro item hitem
  obtain ⟨parts, hparts, rfl⟩ := Option.map_eq_some_iff.mp h
  obtain ⟨part, hpart, hmem⟩ := List.mem_flatten.mp hitem
  obtain ⟨season, -, hseason⟩ := Partial.exists_of_mem_mapM hparts hpart
  rw [tmdbSeasonEpisodes] at hseason
  cases hnumber : season.number with
  | none =>
    obtain rfl := Option.some.inj (hnumber ▸ hseason)
    exact absurd hmem List.not_mem_nil
  | some number =>
    simp only [hnumber] at hseason
    split_ifs at hseason with hle
    · obtain rfl := Option.some.inj hseason
      exact absurd hmem List.not_mem_nil
    · simp only [Option.bind_eq_bind, Option.bind_eq_some_iff] at hseason
      obtain ⟨episodes, -, hseason⟩ := hseason
      split_ifs at hseason
      obtain ⟨listed, -, hidentified⟩ := Partial.exists_of_mem_mapM hseason hmem
      rw [season_of_identified hidentified]
      exact Int.not_le.mp hle

/-- A run that was successful with the answers of `provider`. -/
structure Ran (s s' : Store) (provider : Provider) (returned : List Returned) : Prop where
  root : s'.root = { s.root with
    catalogueIds := some (returned.map Returned.id)
    catalogueProvider := if provider = .tvdb then some .tvdb else s.root.catalogueProvider }
  kept : Kept s.episodes s'.episodes
  regular : ∀ item ∈ returned, 0 < item.season
  placed : ∃ showId row, s'.show? = some (showId, row) ∧
    ∀ item ∈ returned, Placed showId provider s'.episodes item

theorem ran_hydrateTvdb (hshow : s.show? = some (showId, row))
    (h : hydrateTvdb s showId row answers = some (s', returned)) : Ran s s' .tvdb returned := by
  rw [hydrateTvdb] at h
  split_ifs at h
  simp only [Option.bind_eq_bind, Option.bind_eq_some_iff] at h
  obtain ⟨answer, -, fetched, hfetched, h⟩ := h
  split_ifs at h
  simp only [Option.bind_eq_some_iff, Option.pure_def, Option.some.injEq, Prod.mk.injEq] at h
  obtain ⟨episodes, hplaced, rfl, rfl⟩ := h
  have hexisting : ∀ entry ∈ s.episodes.rows.filter fun entry ↦ decide (entry.2.showId = some showId),
      entry ∈ s.episodes.rows ∧ entry.2.showId = some showId := by
    intro entry hentry
    obtain ⟨hmem, hshow⟩ := List.mem_filter.mp hentry
    exact ⟨hmem, of_decide_eq_true hshow⟩
  obtain ⟨hkept, hitems⟩ := of_foldlM (.refl s.episodes)
    (fun _ _ _ hkept hplace ↦ of_placeTvdb hexisting hkept hplace) hplaced
  exact ⟨rfl, hkept, pos_of_mem_tvdbEpisodes hfetched, showId, row, hshow, hitems⟩

theorem show?_insert (h : s.show? = none) (hroot : (truthy s.root.tmdbId).isNone = false) :
    ({ s with shows := s.shows.insert ⟨s.root.tmdbId, none, .tmdb⟩ } : Store).show? =
      some (s.shows.next, ⟨s.root.tmdbId, none, .tmdb⟩) := by
  rw [Store.show?] at h ⊢
  simp only [Table.insert]
  rw [List.find?_append, h, Option.none_or, List.find?_singleton, if_pos]
  obtain ⟨id, hid⟩ := Option.isSome_iff_exists.mp (by rwa [← Option.not_isNone, Bool.not_eq_true'])
  have htmdb : s.root.tmdbId = some id := (Option.filter_eq_some_iff.mp hid).1
  rw [htmdb] at hid
  simp [Root.matches, htmdb, hid]

theorem ran_hydrateTmdb (h : hydrateTmdb s answers = some (s', returned)) :
    Ran s s' .tmdb returned := by
  rw [hydrateTmdb] at h
  split_ifs at h with hkeys
  simp only [Option.bind_eq_bind, Option.bind_eq_some_iff, Option.pure_def, Option.some.injEq,
    Prod.mk.injEq] at h
  obtain ⟨seasons, -, fetched, hfetched, episodes, hplaced, rfl, rfl⟩ := h
  obtain ⟨hkept, hitems⟩ := of_foldlM (.refl s.episodes)
    (fun _ _ _ _ hplace ↦ of_placeTmdb hplace) hplaced
  refine ⟨rfl, hkept, pos_of_mem_tmdbEpisodes hfetched, ?_⟩
  cases hshow : s.show? with
  | none =>
    simp only [hshow] at hitems ⊢
    have hroot : (truthy s.root.tmdbId).isNone = false := by
      simp only [Bool.or_eq_true, not_or, Bool.not_eq_true] at hkeys
      exact hkeys.1
    exact ⟨_, _, show?_insert hshow hroot, hitems⟩
  | some entry =>
    simp only [hshow] at hitems ⊢
    exact ⟨entry.1, entry.2, hshow, hitems⟩

theorem ran_hydrate (h : hydrateTrackingEpisodes s answers = some (s', returned)) :
    Ran s s' s.asks returned := by
  rw [hydrateTrackingEpisodes] at h
  rw [Store.asks]
  split_ifs at h
  cases hshow : s.show? with
  | none =>
    rw [hshow] at h
    exact ran_hydrateTmdb h
  | some entry =>
    obtain ⟨showId, row⟩ := entry
    simp only [hshow] at h ⊢
    cases hsource : row.canonicalSource with
    | tmdb =>
      rw [hsource, if_neg (by decide)] at h
      exact ran_hydrateTmdb h
    | tvdb =>
      rw [hsource, if_pos rfl] at h
      exact ran_hydrateTvdb hshow h

theorem mem_releasedEpisodes {today : String} {entry : ℕ × EpisodeRow} :
    entry ∈ releasedEpisodes s true today ↔ ∃ showId row, s.show? = some (showId, row) ∧
      entry ∈ s.episodes.rows ∧ isRegular showId entry.2 = true ∧ s.root.inCatalogue entry = true := by
  rw [releasedEpisodes]
  cases hshow : s.show? with
  | none => simp
  | some show' => simp [Prod.ext_iff, and_assoc]

theorem Ran.catalogueIds (h : Ran s s' provider returned) :
    s'.root.catalogueIds = some (returned.map Returned.id) := by rw [h.root]

theorem Ran.readAs (h : Ran s s' provider returned)
    (hspace : provider = .tmdb → s.root.catalogueProvider ≠ some .tvdb) :
    s'.root.readAs = provider := by
  rw [h.root, Root.readAs]
  cases provider with
  | tvdb => rfl
  | tmdb =>
    have hne := hspace rfl
    dsimp only
    rw [if_neg (by decide)]
    cases hstored : s.root.catalogueProvider with
    | none => rfl
    | some stored =>
      cases stored with
      | tmdb => rfl
      | tvdb => exact absurd hstored hne

theorem inCatalogue_iff {root : Root} {entry : ℕ × EpisodeRow}
    (hids : root.catalogueIds = some (returned.map Returned.id)) (hread : root.readAs = provider) :
    root.inCatalogue entry = true ↔
      (∃ item ∈ returned, entry.2.identity provider = some item.id) ∨ root.isImported entry = true := by
  rw [Root.inCatalogue, hids, hread]
  cases hid : entry.2.identity provider with
  | none => simp
  | some id =>
    simp only [Option.any_some, Bool.or_eq_true, decide_eq_true_eq, List.mem_map, Option.some.injEq]
    exact or_congr_left (exists_congr fun item ↦ and_congr_right fun _ ↦ eq_comm)

/-- What a successful run leaves is read as it was written. -/
theorem Ran.follows (h : Ran s s' provider returned)
    (hspace : provider = .tmdb → s.root.catalogueProvider ≠ some .tvdb) :
    Follows s' provider returned := by
  have hselected : ∀ today entry, entry ∈ releasedEpisodes s' true today ↔
      ∃ showId row, s'.show? = some (showId, row) ∧ entry ∈ s'.episodes.rows ∧
        isRegular showId entry.2 = true ∧
        ((∃ item ∈ returned, entry.2.identity provider = some item.id) ∨
          s'.root.isImported entry = true) := by
    intro today entry
    rw [mem_releasedEpisodes]
    simp only [inCatalogue_iff h.catalogueIds (h.readAs hspace)]
  refine ⟨h.catalogueIds, h.readAs hspace, hselected, fun today item hitem ↦ ?_⟩
  obtain ⟨showId, row, hshow, hplaced⟩ := h.placed
  obtain ⟨entry, hentry, hof, hat⟩ := hplaced item hitem
  refine ⟨entry, (hselected today entry).mpr ⟨showId, row, hshow, hentry, ?_, ?_⟩, hat⟩
  · simp [isRegular, hof, hat.2.1, h.regular item hitem]
  · exact .inl ⟨item, hitem, hat.1⟩

/-- A row of the shows after a change of the source of one of them. -/
def withSource (id : ℕ) (source : Provider) (entry : ℕ × ShowRow) : ℕ × ShowRow :=
  (entry.1, if entry.1 = id then { entry.2 with canonicalSource := source } else entry.2)

theorem show?_changeSource (s : Store) (id : ℕ) (source : Provider) :
    (s.changeSource id source).show? = s.show?.map (withSource id source) := by
  have hmatches : ((fun entry : ℕ × ShowRow ↦ s.root.matches entry.2) ∘ withSource id source) =
      fun entry ↦ s.root.matches entry.2 := by
    funext entry
    simp only [Function.comp_apply, withSource]
    split_ifs <;> rfl
  rw [Store.show?, Store.show?, ← hmatches, ← List.find?_map]
  rfl

theorem Follows.changeSource (h : Follows s provider returned) (id : ℕ) (source : Provider) :
    Follows (s.changeSource id source) provider returned := by
  have hreleased : ∀ today, releasedEpisodes (s.changeSource id source) true today =
      releasedEpisodes s true today := by
    intro today
    rw [releasedEpisodes, releasedEpisodes, show?_changeSource]
    cases s.show? <;> rfl
  refine ⟨h.ids, h.readAs, fun today entry ↦ ?_, fun today item hitem ↦ ?_⟩
  · rw [hreleased, h.selected, show?_changeSource]
    simp only [Option.map_eq_some_iff, Prod.exists]
    constructor
    · intro hentry
      obtain ⟨showId, row, hshow, hrest⟩ := hentry
      exact ⟨showId, _, ⟨showId, row, hshow, rfl⟩, hrest⟩
    · intro hentry
      obtain ⟨showId, _, ⟨showId', row, hshow, hchanged⟩, hrest⟩ := hentry
      obtain ⟨rfl, -⟩ := Prod.mk.inj hchanged
      exact ⟨showId', row, hshow, hrest⟩
  · rw [hreleased]
    exact h.present today item hitem

/-- No run takes the answers of TMDB while the stored catalogue is marked as one of TVDB. -/
def KeepsSpace (s : Followed) : Event → Prop
  | .hydrate _ => s.store.asks = .tmdb → s.store.root.catalogueProvider ≠ some .tvdb
  | .changeSource _ _ => True

def Followed.IsRead (s : Followed) : Prop :=
  ∀ provider returned, s.last = some (provider, returned) → Follows s.store provider returned

theorem isRead_step {f : Followed} {event : Event} (h : f.IsRead) (hspace : KeepsSpace f event) :
    (step f event).IsRead := by
  cases event with
  | hydrate answers =>
    rw [step]
    cases hrun : hydrateTrackingEpisodes f.store answers with
    | none => exact h
    | some result =>
      intro provider returned hlast
      obtain ⟨rfl, rfl⟩ := Prod.mk.inj (Option.some.inj hlast)
      exact (ran_hydrate hrun).follows hspace
  | changeSource id source =>
    intro provider returned hlast
    exact (h provider returned hlast).changeSource id source

theorem kept_step (f : Followed) (event : Event) :
    Kept f.store.episodes (step f event).store.episodes := by
  cases event with
  | hydrate answers =>
    rw [step]
    cases hrun : hydrateTrackingEpisodes f.store answers with
    | none => exact .refl _
    | some result => exact (ran_hydrate hrun).kept
  | changeSource id source => exact .refl _

theorem step_of_failed {f : Followed} {answers : Answers}
    (h : hydrateTrackingEpisodes f.store answers = none) : step f (.hydrate answers) = f := by
  rw [step, h]

end runs

/-- In every state of a run rows keep their places, a failed step changes nothing, and where the
spaces are kept apart the catalogue is read as it was written. -/
theorem catalogue_kept (s : Store) (events : List Event) (n : ℕ) :
    Kept s.episodes ((events.take n).foldl step ⟨s, none⟩).store.episodes ∧
    (∀ event, Kept ((events.take n).foldl step ⟨s, none⟩).store.episodes
      (step ((events.take n).foldl step ⟨s, none⟩) event).store.episodes) ∧
    (∀ answers, hydrateTrackingEpisodes ((events.take n).foldl step ⟨s, none⟩).store answers = none →
      step ((events.take n).foldl step ⟨s, none⟩) (.hydrate answers) =
        (events.take n).foldl step ⟨s, none⟩) ∧
    (Throughout step KeepsSpace ⟨s, none⟩ events → ((events.take n).foldl step ⟨s, none⟩).IsRead) := by
  refine ⟨?_, fun event ↦ kept_step _ event, fun answers ↦ step_of_failed, fun h ↦ ?_⟩
  · exact invariant (I := fun f : Followed ↦ Kept s.episodes f.store.episodes) (.refl s.episodes)
      fun f event hkept ↦ hkept.trans (kept_step f event)
  · have hstart : (⟨s, none⟩ : Followed).IsRead := fun provider returned hlast ↦ absurd hlast (by simp)
    exact (h.take n).invariant hstart fun f event hread hspace ↦ isRead_step hread hspace

/-- A series that both providers know, stored in the order of TVDB. -/
def sharedSeries : Store where
  root := ⟨some 1, some 2, none, none, []⟩
  shows := Table.empty.insert ⟨some 1, some 2, .tvdb⟩
  episodes := Table.empty

def oneEpisode (id : ℤ) (season : Option ℤ) : ListedEpisode :=
  ⟨some id, season, some 1, ⟨none, none, none, none, none⟩⟩

def bothAnswer : Answers where
  hasTmdbKey := true
  hasTvdbKey := true
  tvdb := some ⟨[⟨some 1, some 1⟩], [oneEpisode 10 (some 1)]⟩
  tmdbSeasons := some [⟨some 1, some 1⟩]
  tmdbSeason _ := some [oneEpisode 20 none]

def fetchedTwice : List Event := [.hydrate bothAnswer, .hydrate bothAnswer]

theorem catalogue_kept_twice :
    ((fetchedTwice.take 2).foldl step ⟨sharedSeries, none⟩).IsRead := by
  refine (catalogue_kept sharedSeries fetchedTwice 2).2.2.2 ⟨?_, ?_, trivial⟩
  · exact fun hasks ↦ absurd hasks (by decide)
  · exact fun hasks ↦ absurd hasks (by decide)

def sourceChanged : List Event :=
  [.hydrate bothAnswer, .changeSource 1 .tmdb, .hydrate bothAnswer]

theorem tmdb_ids_read_as_tvdb :
    ¬∀ n, ((sourceChanged.take n).foldl step ⟨sharedSeries, none⟩).IsRead := by
  intro h
  have hlast : ((sourceChanged.take 3).foldl step ⟨sharedSeries, none⟩).last =
      some (.tmdb, [⟨20, 1, 1, ⟨none, none, none, none, none⟩⟩]) := by decide
  have hread : ((sourceChanged.take 3).foldl step ⟨sharedSeries, none⟩).store.root.readAs =
      .tvdb := by decide
  have hsame := (h 3 _ _ hlast).readAs
  rw [hread] at hsame
  exact absurd hsame (by decide)

end AnyList.Catalogue.EpisodeCatalogue
