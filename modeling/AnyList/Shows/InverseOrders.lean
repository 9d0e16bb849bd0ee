import AnyList.Shows.EpisodeOrder

namespace AnyList.Shows

open AnyList.Library
open AnyList.Library.KeepApart
open ShowEpisodePosition (Clash SameDisplay place)

/-- Each map leads back to where the other came from. -/
structure MutuallyInverse (byCanonical byDisplay : Dict (ℤ × ℤ) ShowEpisodePosition) : Prop where
  display : ∀ c row, byCanonical.get c = some row →
    row.canonical = c ∧ byDisplay.get row.display = some row
  canonical : ∀ d row, byDisplay.get d = some row →
    row.display = d ∧ byCanonical.get row.canonical = some row

/-- The positions of an order and the canonical numbers of the listed episodes are in one to one
correspondence, in whatever order a select answers the rows. -/
structure Inverts (table : PositionTable) (seriesTmdbId : ℕ) (orderKey : Option String)
    (listed : List Episode) : Prop where
  inverse : ∀ rows, rows.Perm (table.select seriesTmdbId (normalizeOrderKey orderKey)) →
    MutuallyInverse (getPositionMaps orderKey rows).1 (getPositionMaps orderKey rows).2
  resolved : ∀ rows, rows.Perm (table.select seriesTmdbId (normalizeOrderKey orderKey)) →
    ∀ c d, displayOf orderKey rows c = some d →
      resolveDisplayToCanonical table seriesTmdbId orderKey d = .ok (some c)
  shown : ∀ e ∈ listed, ∃ row ∈ table.select seriesTmdbId (normalizeOrderKey orderKey),
    row.episode = e

namespace Provider

/-- The episodes with canonical numbers that the chosen order lists. -/
def listed (provider : Provider) (key : String) : List Episode :=
  if startsWith key "tmdb:group:" then
    ((provider.episodeGroup (afterColon (afterColon key))).flatMap EpisodeGroup.episodes).filterMap
      GroupEpisode.episode
  else if startsWith key "tvdb:" then
    if key = "tvdb:official" then provider.mappings.rows.map EpisodeOrderMapping.episode
    else (provider.seriesEpisodes (provider.showTvdbId.getD 0) (tvdbSeasonType key)).filterMap
      fun ep ↦ (ep.mapping provider.mappings.bridge).map EpisodeOrderMapping.episode
  else []

/-- A group names each episode by one id and one pair of numbers; the official order gives no
two mapped episodes one TVDB position; and serving the listings of another TVDB order as they
come, each where neither its position nor its episode is taken, leaves no mapped episode out. -/
def Agrees (provider : Provider) (seriesTmdbId : ℕ) (key : String) : Prop :=
  if startsWith key "tmdb:group:" then
    ∀ e ∈ provider.listed key, ∀ e' ∈ provider.listed key,
      e.tmdbEpisodeId = e'.tmdbEpisodeId ↔ e.canonical = e'.canonical
  else if startsWith key "tvdb:" then
    if key = "tvdb:official" then
      ∀ m ∈ provider.mappings.rows, ∀ m' ∈ provider.mappings.rows,
        m.tvdbSeasonNumber = m'.tvdbSeasonNumber → m.tvdbEpisodeNumber = m'.tvdbEpisodeNumber →
          m = m'
    else
      ∃ kept, FirstServed Clash (typePositions seriesTmdbId key provider.mappings
          (provider.seriesEpisodes (provider.showTvdbId.getD 0) (tvdbSeasonType key))) kept ∧
        ∀ e ∈ provider.listed key, ∃ row ∈ kept, row.episode = e
  else True

end Provider

section maps

variable {table : PositionTable} {seriesTmdbId : ℕ} {key : String} {orderKey : Option String}
  {rows : List ShowEpisodePosition} {row row' : ShowEpisodePosition} {listed : List Episode}

theorem mem_select : row ∈ table.select seriesTmdbId key ↔
    row ∈ table.rows ∧ row.seriesTmdbId = seriesTmdbId ∧ row.orderKey = key := by
  simp [PositionTable.select]

theorem eq_of_display_eq (h : row ∈ table.select seriesTmdbId key)
    (h' : row' ∈ table.select seriesTmdbId key) (heq : row.display = row'.display) : row = row' := by
  obtain ⟨hmem, hseries, hkey⟩ := mem_select.mp h
  obtain ⟨hmem', hseries', hkey'⟩ := mem_select.mp h'
  refine List.inj_on_of_nodup_map table.displayUnique hmem hmem' ?_
  rw [hseries, hkey, hseries', hkey', heq]

theorem eq_of_episodeId_eq (h : row ∈ table.select seriesTmdbId key)
    (h' : row' ∈ table.select seriesTmdbId key)
    (heq : row.tmdbEpisodeId = row'.tmdbEpisodeId) : row = row' := by
  obtain ⟨hmem, hseries, hkey⟩ := mem_select.mp h
  obtain ⟨hmem', hseries', hkey'⟩ := mem_select.mp h'
  refine List.inj_on_of_nodup_map table.canonicalUnique hmem hmem' ?_
  rw [hseries, hkey, hseries', hkey', heq]

theorem nodup_select (table : PositionTable) (seriesTmdbId : ℕ) (key : String) :
    (table.select seriesTmdbId key).Nodup :=
  (List.Nodup.of_map _ table.displayUnique).filter _

theorem getPositionMaps_of_not_aired (h : isAiredOrder orderKey = false) :
    getPositionMaps orderKey rows = (Dict.indexBy ShowEpisodePosition.canonical rows,
      Dict.indexBy ShowEpisodePosition.display rows) := by
  rw [getPositionMaps, h]
  rfl

theorem mutuallyInverse_iff (haired : isAiredOrder orderKey = false)
    (hdisplay : ∀ r ∈ rows, ∀ r' ∈ rows, r.display = r'.display → r = r') :
    MutuallyInverse (getPositionMaps orderKey rows).1 (getPositionMaps orderKey rows).2 ↔
      ∀ r ∈ rows, ∀ r' ∈ rows, r.canonical = r'.canonical → r = r' := by
  rw [getPositionMaps_of_not_aired haired]
  constructor
  · intro h r hr r' hr' heq
    have hget := (h.canonical _ r (Dict.get_indexBy hdisplay hr)).2
    have hget' := (h.canonical _ r' (Dict.get_indexBy hdisplay hr')).2
    rw [heq, hget'] at hget
    exact (Option.some.inj hget).symm
  · intro h
    refine ⟨fun c row hget ↦ ?_, fun d row hget ↦ ?_⟩
    · obtain ⟨hmem, hc⟩ := Dict.of_get_indexBy hget
      exact ⟨hc, Dict.get_indexBy hdisplay hmem⟩
    · obtain ⟨hmem, hd⟩ := Dict.of_get_indexBy hget
      exact ⟨hd, Dict.get_indexBy h hmem⟩

theorem normalizeOrderKey_idem (orderKey : Option String) :
    normalizeOrderKey (some (normalizeOrderKey orderKey)) = normalizeOrderKey orderKey := by
  simp only [normalizeOrderKey, Option.getD_some]
  split_ifs <;> simp_all [orderAired]

theorem isAiredOrder_normalizeOrderKey (orderKey : Option String) :
    isAiredOrder (some (normalizeOrderKey orderKey)) = isAiredOrder orderKey := by
  rw [isAiredOrder, normalizeOrderKey_idem, isAiredOrder]

/-- The row at a display position is the one that answers for it. -/
theorem resolve_of_mem (haired : isAiredOrder orderKey = false)
    (h : row ∈ table.select seriesTmdbId (normalizeOrderKey orderKey)) :
    resolveDisplayToCanonical table seriesTmdbId orderKey row.display =
      .ok (some row.canonical) := by
  have honly : ((table.select seriesTmdbId (normalizeOrderKey orderKey)).filter
      (·.display = row.display)) = [row] := by
    have hnodup := (nodup_select table seriesTmdbId (normalizeOrderKey orderKey)).filter
      (·.display = row.display)
    refine List.perm_singleton.mp ((List.perm_ext_iff_of_nodup hnodup (by simp)).mpr fun r ↦ ?_)
    rw [List.mem_filter, List.mem_singleton, decide_eq_true_iff]
    constructor
    · intro hr
      exact eq_of_display_eq hr.1 h hr.2
    · rintro rfl
      exact ⟨h, rfl⟩
  rw [resolveDisplayToCanonical]
  simp only [isAiredOrder_normalizeOrderKey, haired, honly]
  rfl

theorem resolve_displayOf (haired : isAiredOrder orderKey = false) {c d : ℤ × ℤ}
    (hrows : rows.Perm (table.select seriesTmdbId (normalizeOrderKey orderKey)))
    (h : displayOf orderKey rows c = some d) :
    resolveDisplayToCanonical table seriesTmdbId orderKey d = .ok (some c) := by
  rw [displayOf, haired, getPositionMaps_of_not_aired haired] at h
  obtain ⟨row, hget, rfl⟩ := Option.map_eq_some_iff.mp h
  obtain ⟨hmem, rfl⟩ := Dict.of_get_indexBy hget
  exact resolve_of_mem haired (hrows.mem_iff.mp hmem)

/-- The maps of an order are inverse exactly when no two of its rows share canonical numbers. -/
theorem inverts_iff (haired : isAiredOrder orderKey = false) :
    Inverts table seriesTmdbId orderKey listed ↔
      (∀ r ∈ table.select seriesTmdbId (normalizeOrderKey orderKey),
        ∀ r' ∈ table.select seriesTmdbId (normalizeOrderKey orderKey),
          r.canonical = r'.canonical → r = r') ∧
      ∀ e ∈ listed, ∃ row ∈ table.select seriesTmdbId (normalizeOrderKey orderKey),
        row.episode = e := by
  constructor
  · intro h
    refine ⟨?_, h.shown⟩
    exact (mutuallyInverse_iff haired fun r hr r' hr' ↦ eq_of_display_eq hr hr').mp
      (h.inverse _ (List.Perm.refl _))
  · intro h
    obtain ⟨hcanonical, hshown⟩ := h
    refine ⟨fun rows hrows ↦ ?_, fun rows hrows c d ↦ resolve_displayOf haired hrows, hshown⟩
    refine (mutuallyInverse_iff haired fun r hr r' hr' ↦ ?_).mpr fun r hr r' hr' ↦ ?_
    · exact eq_of_display_eq (hrows.mem_iff.mp hr) (hrows.mem_iff.mp hr')
    · exact hcanonical r (hrows.mem_iff.mp hr) r' (hrows.mem_iff.mp hr')

theorem inverts_of_aired (haired : isAiredOrder orderKey = true) :
    Inverts table seriesTmdbId orderKey [] := by
  refine ⟨fun rows _ ↦ ?_, fun rows _ c d h ↦ ?_, by simp⟩
  · simp only [getPositionMaps, haired, if_true]
    exact ⟨fun c row h ↦ by simp at h, fun d row h ↦ by simp at h⟩
  · simp only [displayOf, haired, if_true, Option.some.injEq] at h
    simp only [resolveDisplayToCanonical, isAiredOrder_normalizeOrderKey, haired, if_true, h]

end maps

section candidates

variable {seriesTmdbId : ℕ} {key : String} {groups : List EpisodeGroup} {mappings : Mappings}
  {episodes : List TvdbEpisode} {row row' : ShowEpisodePosition} {e : Episode}
  {m m' : EpisodeOrderMapping}

theorem mem_zipIdx_one {α : Type*} {l : List α} {x : α} {i : ℕ} :
    (x, i) ∈ l.zipIdx 1 ↔ 1 ≤ i ∧ l[i - 1]? = some x := by
  rw [List.mk_mem_zipIdx_iff_le_and_getElem?_sub]

theorem mem_groupPositions : row ∈ groupPositions seriesTmdbId key groups ↔
    ∃ g i ep j e, (g, i) ∈ (groups.insertionSort fun g g' ↦ g.order ≤ g'.order).zipIdx 1 ∧
      (ep, j) ∈ (g.episodes.insertionSort fun ep ep' ↦ ep.order ≤ ep'.order).zipIdx 1 ∧
      ep.episode = some e ∧ place seriesTmdbId key i j e = row := by
  simp only [groupPositions, List.mem_flatMap, List.mem_filterMap, Option.map_eq_some_iff,
    Prod.exists]
  constructor
  · intro h
    obtain ⟨g, i, hg, ep, j, hep, e, he, rfl⟩ := h
    exact ⟨g, i, ep, j, e, hg, hep, he, rfl⟩
  · intro h
    obtain ⟨g, i, ep, j, e, hg, hep, he, rfl⟩ := h
    exact ⟨g, i, hg, ep, j, hep, e, he, rfl⟩

/-- A group numbers no two entries alike. -/
theorem eq_of_display_groupPositions (h : row ∈ groupPositions seriesTmdbId key groups)
    (h' : row' ∈ groupPositions seriesTmdbId key groups) (heq : row.display = row'.display) :
    row = row' := by
  obtain ⟨g, i, ep, j, e, hg, hep, he, rfl⟩ := mem_groupPositions.mp h
  obtain ⟨g', i', ep', j', e', hg', hep', he', rfl⟩ := mem_groupPositions.mp h'
  obtain ⟨hi, hj⟩ := Prod.mk.inj heq
  obtain rfl : i = i' := Int.ofNat.inj hi
  obtain rfl : j = j' := Int.ofNat.inj hj
  obtain rfl : g = g' :=
    Option.some.inj ((mem_zipIdx_one.mp hg).2.symm.trans (mem_zipIdx_one.mp hg').2)
  obtain rfl : ep = ep' :=
    Option.some.inj ((mem_zipIdx_one.mp hep).2.symm.trans (mem_zipIdx_one.mp hep').2)
  obtain rfl : e = e' := Option.some.inj (he.symm.trans he')
  rfl

theorem exists_mem_zipIdx_one {α : Type*} {l : List α} {x : α} :
    (∃ i, (x, i) ∈ l.zipIdx 1) ↔ x ∈ l := by
  constructor
  · intro h
    obtain ⟨i, hi⟩ := h
    exact List.mem_of_getElem? (mem_zipIdx_one.mp hi).2
  · intro hx
    obtain ⟨i, hi⟩ := List.getElem?_of_mem hx
    exact ⟨i + 1, mem_zipIdx_one.mpr ⟨by omega, by simpa using hi⟩⟩

theorem exists_episode_groupPositions :
    (∃ row ∈ groupPositions seriesTmdbId key groups, row.episode = e) ↔
      e ∈ (groups.flatMap EpisodeGroup.episodes).filterMap GroupEpisode.episode := by
  simp only [List.mem_filterMap, List.mem_flatMap]
  constructor
  · intro h
    obtain ⟨row, hrow, rfl⟩ := h
    obtain ⟨g, i, ep, j, e, hg, hep, he, rfl⟩ := mem_groupPositions.mp hrow
    have hgroup := (List.perm_insertionSort _ _).mem_iff.mp (exists_mem_zipIdx_one.mp ⟨i, hg⟩)
    have hentry := (List.perm_insertionSort _ _).mem_iff.mp (exists_mem_zipIdx_one.mp ⟨j, hep⟩)
    exact ⟨ep, ⟨g, hgroup, hentry⟩, he⟩
  · intro h
    obtain ⟨ep, ⟨g, hgroup, hentry⟩, he⟩ := h
    obtain ⟨i, hg⟩ := exists_mem_zipIdx_one.mpr
      ((List.perm_insertionSort (fun g g' : EpisodeGroup ↦ g.order ≤ g'.order) _).mem_iff.mpr hgroup)
    obtain ⟨j, hep⟩ := exists_mem_zipIdx_one.mpr
      ((List.perm_insertionSort (fun ep ep' : GroupEpisode ↦ ep.order ≤ ep'.order) _).mem_iff.mpr
        hentry)
    exact ⟨place seriesTmdbId key i j e,
      mem_groupPositions.mpr ⟨g, i, ep, j, e, hg, hep, he, rfl⟩, rfl⟩

theorem get_bridge {tvdbId : ℤ} :
    mappings.bridge.get tvdbId = some m ↔ m ∈ mappings.rows ∧ m.tvdbId = tvdbId := by
  constructor
  · exact Dict.of_get_indexBy
  · intro h
    obtain ⟨hm, rfl⟩ := h
    exact Dict.get_indexBy (fun m hm m' hm' heq ↦
      List.inj_on_of_nodup_map mappings.tvdbUnique hm hm' heq) hm

theorem mem_bridge_values : m ∈ mappings.bridge.values ↔ m ∈ mappings.rows := by
  rw [Dict.mem_values]
  constructor
  · intro h
    obtain ⟨tvdbId, h⟩ := h
    exact (get_bridge.mp h).1
  · intro h
    exact ⟨m.tvdbId, get_bridge.mpr ⟨h, rfl⟩⟩

/-- A mapped episode has its own canonical numbers. -/
theorem mapping_eq_of_canonical (hm : m ∈ mappings.rows) (hm' : m' ∈ mappings.rows)
    (h : m.episode.canonical = m'.episode.canonical) : m = m' :=
  List.inj_on_of_nodup_map mappings.tmdbUnique hm hm' h

theorem mem_officialPositions : row ∈ officialPositions seriesTmdbId key mappings ↔
    ∃ m ∈ mappings.rows,
      place seriesTmdbId key m.tvdbSeasonNumber m.tvdbEpisodeNumber m.episode = row := by
  simp only [officialPositions, List.mem_map, mem_bridge_values]

theorem mapping_of_mem_typePositions
    (h : row ∈ typePositions seriesTmdbId key mappings episodes) :
    ∃ m ∈ mappings.rows, ∃ ds de, row = place seriesTmdbId key ds de m.episode := by
  obtain ⟨ep, -, hposition⟩ := List.mem_filterMap.mp h
  obtain ⟨m, hm, hnumber⟩ := Option.bind_eq_some_iff.mp hposition
  obtain ⟨de, -, rfl⟩ := Option.map_eq_some_iff.mp hnumber
  obtain ⟨tvdbId, -, hget⟩ := Option.bind_eq_some_iff.mp hm
  exact ⟨m, (get_bridge.mp hget).1, _, de, rfl⟩

end candidates

section builds

variable {provider : Provider} {table : PositionTable} {seriesTmdbId : ℕ} {key : String}
  {orderKey : Option String} {force : Bool} {build : Build} {groups : List EpisodeGroup}
  {mappings : Mappings} {episodes : List TvdbEpisode} {rows stored : List ShowEpisodePosition}
  {row : ShowEpisodePosition}

theorem rows_of_flush {table : PositionTable} (h : PositionTable.flush rows = .ok table) :
    table.rows = rows := by
  unfold PositionTable.flush at h
  split_ifs at h
  exact congrArg PositionTable.rows (Except.ok.inj h).symm

/-- A build leaves the table as it is, or writes the rows of its order anew. -/
theorem build_cases
    (h : buildOrderPositions provider table seriesTmdbId orderKey force = .ok build) :
    (isAiredOrder orderKey = true ∨ build.cached = true) ∧ build.table = table ∨
      (isAiredOrder orderKey = false ∧ build.cached = false) ∧ ∃ rows,
        orderPositions seriesTmdbId (normalizeOrderKey orderKey) provider = .ok rows ∧
          build.table.rows = table.deleteOrder seriesTmdbId (normalizeOrderKey orderKey) ++ rows := by
  rw [buildOrderPositions] at h
  simp only [isAiredOrder_normalizeOrderKey] at h
  split_ifs at h with haired hexisting
  · exact .inl ⟨.inl haired, by rw [← Except.ok.inj h]⟩
  · exact .inl ⟨.inr (by rw [← Except.ok.inj h]), by rw [← Except.ok.inj h]⟩
  · cases hrows : orderPositions seriesTmdbId (normalizeOrderKey orderKey) provider with
    | error message => simp [hrows, Except.bind] at h
    | ok rows =>
      simp only [hrows, Except.bind] at h
      split_ifs at h with hempty
      cases hflush : PositionTable.flush
          (table.deleteOrder seriesTmdbId (normalizeOrderKey orderKey) ++ rows) with
      | error message => simp [hflush, Except.map] at h
      | ok table' =>
        simp only [hflush, Except.map, Except.ok.injEq] at h
        subst h
        exact .inr ⟨⟨by simpa using haired, rfl⟩, rows, rfl, rows_of_flush hflush⟩

/-- What each kind of order builds. -/
theorem orderPositions_cases (h : orderPositions seriesTmdbId key provider = .ok rows) :
    startsWith key "tmdb:group:" = true ∧
        rows = orderPositionsFromTmdbGroup seriesTmdbId key
          (provider.episodeGroup (afterColon (afterColon key))) ∨
      (startsWith key "tmdb:group:" = false ∧ startsWith key "tvdb:" = true) ∧
        (key = "tvdb:official" ∧
            rows = keepApart SameDisplay [] (officialPositions seriesTmdbId key provider.mappings) ∨
          key ≠ "tvdb:official" ∧
            rows = keepApart Clash [] (typePositions seriesTmdbId key provider.mappings
              (provider.seriesEpisodes (provider.showTvdbId.getD 0) (tvdbSeasonType key)))) := by
  rw [orderPositions] at h
  by_cases hgroup : startsWith key "tmdb:group:" = true
  · rw [if_pos hgroup] at h
    split_ifs at h
    exact .inl ⟨hgroup, (Except.ok.inj h).symm⟩
  · rw [if_neg hgroup] at h
    split_ifs at h with htvdb hkeys
    refine .inr ⟨⟨by simpa using hgroup, htvdb⟩, ?_⟩
    cases hid : provider.showTvdbId with
    | none => simp [hid] at h
    | some showTvdbId =>
      simp only [hid, orderPositionsFromTvdbType] at h
      split_ifs at h with hempty hofficial
      · exact .inl ⟨hofficial, (Except.ok.inj h).symm⟩
      · exact .inr ⟨hofficial, (Except.ok.inj h).symm⟩

theorem group_agrees_iff
    (hid : ∀ r ∈ stored, ∀ r' ∈ stored, r.tmdbEpisodeId = r'.tmdbEpisodeId → r = r')
    (hstored : ∀ row, row ∈ stored ↔ row ∈ orderPositionsFromTmdbGroup seriesTmdbId key groups)
    {listed : List Episode}
    (hlisted : listed = (groups.flatMap EpisodeGroup.episodes).filterMap GroupEpisode.episode) :
    ((∀ r ∈ stored, ∀ r' ∈ stored, r.canonical = r'.canonical → r = r') ∧
        ∀ e ∈ listed, ∃ row ∈ stored, row.episode = e) ↔
      ∀ e ∈ listed, ∀ e' ∈ listed, e.tmdbEpisodeId = e'.tmdbEpisodeId ↔ e.canonical = e'.canonical := by
  have hcandidate {r : ShowEpisodePosition} (hr : r ∈ stored) :
      r ∈ groupPositions seriesTmdbId key groups :=
    mem_of_mem_keepApart ((hstored r).mp hr)
  constructor
  · intro h e he e' he'
    obtain ⟨hcanonical, hshown⟩ := h
    obtain ⟨r, hr, rfl⟩ := hshown e he
    obtain ⟨r', hr', rfl⟩ := hshown e' he'
    constructor
    · intro heq
      rw [hid r hr r' hr' heq]
    · intro heq
      rw [hcanonical r hr r' hr' heq]
  · intro h
    have hepisode {r : ShowEpisodePosition} (hr : r ∈ groupPositions seriesTmdbId key groups) :
        r.episode ∈ listed := hlisted ▸ exists_episode_groupPositions.mp ⟨r, hr, rfl⟩
    refine ⟨fun r hr r' hr' heq ↦ ?_, fun e he ↦ ?_⟩
    · refine hid r hr r' hr' ?_
      exact (h r.episode (hepisode (hcandidate hr)) r'.episode (hepisode (hcandidate hr'))).mpr heq
    · obtain ⟨r, hr, rfl⟩ := exists_episode_groupPositions.mpr (hlisted ▸ he)
      have hrefl : ∀ r, Clash r r := fun _ ↦ .inl rfl
      obtain ⟨b, hb, hnear⟩ := exists_near_of_mem hrefl [] hr
      rw [List.nil_append] at hb
      refine ⟨b, (hstored b).mpr hb, ?_⟩
      have hb' := mem_of_mem_keepApart hb
      rcases hnear with hsame | hdisplay
      · have hnumbers := (h b.episode (hepisode hb') r.episode (hepisode hr)).mp hsame
        obtain ⟨hseason, hnumber⟩ := Prod.mk.inj hnumbers
        exact Episode.ext hsame hseason hnumber
      · rw [eq_of_display_groupPositions hb' hr hdisplay]

theorem official_agrees_iff (hstored : ∀ row, row ∈ stored ↔
      row ∈ keepApart SameDisplay [] (officialPositions seriesTmdbId key mappings)) :
    ((∀ r ∈ stored, ∀ r' ∈ stored, r.canonical = r'.canonical → r = r') ∧
        ∀ e ∈ mappings.rows.map EpisodeOrderMapping.episode, ∃ row ∈ stored, row.episode = e) ↔
      ∀ m ∈ mappings.rows, ∀ m' ∈ mappings.rows, m.tvdbSeasonNumber = m'.tvdbSeasonNumber →
        m.tvdbEpisodeNumber = m'.tvdbEpisodeNumber → m = m' := by
  have hcandidate {r : ShowEpisodePosition} (hr : r ∈ stored) :=
    mem_officialPositions.mp (mem_of_mem_keepApart ((hstored r).mp hr))
  constructor
  · intro h m hm m' hm' hseason hnumber
    have hplaced {m : EpisodeOrderMapping} (hm : m ∈ mappings.rows) :
        place seriesTmdbId key m.tvdbSeasonNumber m.tvdbEpisodeNumber m.episode ∈ stored := by
      obtain ⟨r, hr, heq⟩ := h.2 m.episode (List.mem_map_of_mem hm)
      obtain ⟨n, hn, rfl⟩ := hcandidate hr
      obtain rfl : n = m := mapping_eq_of_canonical hn hm (congrArg Episode.canonical heq)
      exact hr
    have hnear : SameDisplay
        (place seriesTmdbId key m.tvdbSeasonNumber m.tvdbEpisodeNumber m.episode)
        (place seriesTmdbId key m'.tvdbSeasonNumber m'.tvdbEpisodeNumber m'.episode) :=
      Prod.ext hseason hnumber
    have heq := eq_of_near_keepApart (fun _ _ h ↦ Eq.symm h) ((hstored _).mp (hplaced hm))
      ((hstored _).mp (hplaced hm')) hnear
    exact mapping_eq_of_canonical hm hm' (congrArg ShowEpisodePosition.canonical heq)
  · intro h
    refine ⟨fun r hr r' hr' heq ↦ ?_, fun e he ↦ ?_⟩
    · obtain ⟨m, hm, rfl⟩ := hcandidate hr
      obtain ⟨m', hm', rfl⟩ := hcandidate hr'
      rw [mapping_eq_of_canonical hm hm' heq]
    · obtain ⟨m, hm, rfl⟩ := List.mem_map.mp he
      have hplace : place seriesTmdbId key m.tvdbSeasonNumber m.tvdbEpisodeNumber m.episode ∈
          officialPositions seriesTmdbId key mappings := mem_officialPositions.mpr ⟨m, hm, rfl⟩
      have hrefl : ∀ r, SameDisplay r r := fun _ ↦ rfl
      obtain ⟨b, hb, hnear⟩ := exists_near_of_mem hrefl [] hplace
      rw [List.nil_append] at hb
      obtain ⟨n, hn, rfl⟩ := mem_officialPositions.mp (mem_of_mem_keepApart hb)
      obtain ⟨hseason, hnumber⟩ := Prod.mk.inj hnear
      obtain rfl := h n hn m hm hseason hnumber
      exact ⟨_, (hstored _).mpr hb, rfl⟩

theorem type_agrees_iff (hstored : ∀ row, row ∈ stored ↔
      row ∈ keepApart Clash [] (typePositions seriesTmdbId key mappings episodes))
    {listed : List Episode} :
    ((∀ r ∈ stored, ∀ r' ∈ stored, r.canonical = r'.canonical → r = r') ∧
        ∀ e ∈ listed, ∃ row ∈ stored, row.episode = e) ↔
      ∃ kept, FirstServed Clash (typePositions seriesTmdbId key mappings episodes) kept ∧
        ∀ e ∈ listed, ∃ row ∈ kept, row.episode = e := by
  have hsymm (r r' : ShowEpisodePosition) (h : Clash r r') : Clash r' r := h.imp Eq.symm Eq.symm
  have hcanonical : ∀ r ∈ stored, ∀ r' ∈ stored, r.canonical = r'.canonical → r = r' := by
    intro r hr r' hr' heq
    have hr := (hstored r).mp hr
    have hr' := (hstored r').mp hr'
    obtain ⟨m, hm, ds, de, hrow⟩ := mapping_of_mem_typePositions (mem_of_mem_keepApart hr)
    obtain ⟨m', hm', ds', de', hrow'⟩ := mapping_of_mem_typePositions (mem_of_mem_keepApart hr')
    have hmapping : m = m' := by
      rw [hrow, hrow'] at heq
      exact mapping_eq_of_canonical hm hm' heq
    have hsame : r.tmdbEpisodeId = r'.tmdbEpisodeId := by
      rw [hrow, hrow', hmapping]
      rfl
    exact eq_of_near_keepApart hsymm hr hr' (.inl hsame)
  constructor
  · intro h
    refine ⟨_, firstServed_keepApart (fun _ ↦ .inl rfl) hsymm _, fun e he ↦ ?_⟩
    obtain ⟨row, hrow, heq⟩ := h.2 e he
    exact ⟨row, (hstored row).mp hrow, heq⟩
  · intro h
    obtain ⟨kept, hkept, hlisted⟩ := h
    refine ⟨hcanonical, fun e he ↦ ?_⟩
    obtain ⟨row, hrow, heq⟩ := hlisted e he
    exact ⟨row, (hstored row).mpr ((mem_keepApart_iff hkept).mpr hrow), heq⟩

theorem fields_of_orderPositions (h : orderPositions seriesTmdbId key provider = .ok rows)
    (hrow : row ∈ rows) : row.seriesTmdbId = seriesTmdbId ∧ row.orderKey = key := by
  rcases orderPositions_cases h with ⟨-, rfl⟩ | ⟨-, ⟨-, rfl⟩ | ⟨-, rfl⟩⟩
  · obtain ⟨g, i, ep, j, e, -, -, -, rfl⟩ := mem_groupPositions.mp (mem_of_mem_keepApart hrow)
    exact ⟨rfl, rfl⟩
  · obtain ⟨m, -, rfl⟩ := mem_officialPositions.mp (mem_of_mem_keepApart hrow)
    exact ⟨rfl, rfl⟩
  · obtain ⟨m, -, ds, de, rfl⟩ := mapping_of_mem_typePositions (mem_of_mem_keepApart hrow)
    exact ⟨rfl, rfl⟩

theorem listed_of_aired (provider : Provider) : provider.listed orderAired = [] := by
  have hgroup : startsWith orderAired "tmdb:group:" = false := by decide
  have htvdb : startsWith orderAired "tvdb:" = false := by decide
  rw [Provider.listed, if_neg (by simp [hgroup]), if_neg (by simp [htvdb])]

theorem agrees_of_aired (provider : Provider) (seriesTmdbId : ℕ) :
    provider.Agrees seriesTmdbId orderAired := by
  have hgroup : startsWith orderAired "tmdb:group:" = false := by decide
  have htvdb : startsWith orderAired "tvdb:" = false := by decide
  rw [Provider.Agrees, if_neg (by simp [hgroup]), if_neg (by simp [htvdb])]
  trivial

/-- A build that writes an order anew stores the rows it made for it. -/
theorem mem_select_of_build {rows : List ShowEpisodePosition}
    (hrows : orderPositions seriesTmdbId key provider = .ok rows) {table' : PositionTable}
    (h : table'.rows = table.deleteOrder seriesTmdbId key ++ rows) (row : ShowEpisodePosition) :
    row ∈ table'.select seriesTmdbId key ↔ row ∈ rows := by
  rw [mem_select, h, List.mem_append]
  constructor
  · intro hrow
    obtain ⟨hdeleted | hmem, hfields⟩ := hrow
    · exact absurd hfields (of_decide_eq_true (List.mem_filter.mp hdeleted).2)
    · exact hmem
  · intro hrow
    exact ⟨.inr hrow, fields_of_orderPositions hrows hrow⟩

/-- What a build stores for its order agrees with what the provider lists for it. -/
theorem build_agrees_iff (hrows : orderPositions seriesTmdbId key provider = .ok rows)
    (h : ∀ row, row ∈ table.select seriesTmdbId key ↔ row ∈ rows) :
    ((∀ r ∈ table.select seriesTmdbId key, ∀ r' ∈ table.select seriesTmdbId key,
        r.canonical = r'.canonical → r = r') ∧
      ∀ e ∈ provider.listed key, ∃ row ∈ table.select seriesTmdbId key, row.episode = e) ↔
        provider.Agrees seriesTmdbId key := by
  rcases orderPositions_cases hrows with
    ⟨hgroup, rfl⟩ | ⟨⟨hgroup, htvdb⟩, ⟨hofficial, rfl⟩ | ⟨hofficial, rfl⟩⟩
  · rw [Provider.Agrees, if_pos hgroup]
    refine group_agrees_iff (fun r hr r' hr' ↦ eq_of_episodeId_eq hr hr') h ?_
    rw [Provider.listed, if_pos hgroup]
  · rw [Provider.Agrees, if_neg (by simp [hgroup]), if_pos htvdb, if_pos hofficial,
      Provider.listed, if_neg (by simp [hgroup]), if_pos htvdb, if_pos hofficial]
    exact official_agrees_iff h
  · rw [Provider.Agrees, if_neg (by simp [hgroup]), if_pos htvdb, if_neg hofficial]
    exact type_agrees_iff h

/-- A build leaves the positions of every other show and order as they are. -/
theorem select_of_other {series' : ℕ} {key' : String}
    (h : buildOrderPositions provider table seriesTmdbId orderKey force = .ok build)
    (hother : (series', key') ≠ (seriesTmdbId, normalizeOrderKey orderKey)) :
    build.table.select series' key' = table.select series' key' := by
  rcases build_cases h with ⟨-, htable⟩ | ⟨-, rows, hrows, htable⟩
  · rw [htable]
  · have hkept : ∀ row : ShowEpisodePosition, row.seriesTmdbId = series' ∧ row.orderKey = key' →
        ¬(row.seriesTmdbId = seriesTmdbId ∧ row.orderKey = normalizeOrderKey orderKey) :=
      fun row hrow hown ↦
        hother (Prod.ext (hrow.1.symm.trans hown.1) (hrow.2.symm.trans hown.2))
    have hnew : rows.filter (fun row ↦ row.seriesTmdbId = series' ∧ row.orderKey = key') = [] := by
      refine List.filter_eq_nil_iff.mpr fun row hrow hfields ↦ ?_
      exact hkept row (of_decide_eq_true hfields) (fields_of_orderPositions hrows hrow)
    rw [PositionTable.select, htable, List.filter_append, hnew, List.append_nil,
      PositionTable.deleteOrder, List.filter_filter, PositionTable.select]
    refine List.filter_congr fun row _ ↦ ?_
    by_cases hfields : row.seriesTmdbId = series' ∧ row.orderKey = key'
    · rw [decide_eq_true hfields, decide_eq_true (hkept row hfields)]
      rfl
    · rw [decide_eq_false hfields]
      rfl

end builds

/-- A table that builds have filled, and the answers of the provider each of its orders was last
built from. -/
inductive BuiltFrom : PositionTable → (ℕ × String → Option Provider) → Prop where
  | empty : BuiltFrom .empty fun _ ↦ none
  | cached {table source provider seriesTmdbId orderKey force build} :
      BuiltFrom table source →
      buildOrderPositions provider table seriesTmdbId orderKey force = .ok build →
      build.cached = true → BuiltFrom build.table source
  | fresh {table source provider seriesTmdbId orderKey force build} :
      BuiltFrom table source →
      buildOrderPositions provider table seriesTmdbId orderKey force = .ok build →
      build.cached = false →
      BuiltFrom build.table
        (Function.update source (seriesTmdbId, normalizeOrderKey orderKey) (some provider))

theorem stored_agrees_iff {table : PositionTable} {source : ℕ × String → Option Provider}
    {provider : Provider} {seriesTmdbId : ℕ} {key : String} (h : BuiltFrom table source)
    (haired : isAiredOrder (some key) = false) (hkey : normalizeOrderKey (some key) = key)
    (hsource : source (seriesTmdbId, key) = some provider) :
    ((∀ r ∈ table.select seriesTmdbId key, ∀ r' ∈ table.select seriesTmdbId key,
        r.canonical = r'.canonical → r = r') ∧
      ∀ e ∈ provider.listed key, ∃ row ∈ table.select seriesTmdbId key, row.episode = e) ↔
        provider.Agrees seriesTmdbId key := by
  induction h with
  | empty => simp at hsource
  | cached _ hbuild hcached ih =>
    rcases build_cases hbuild with ⟨-, htable⟩ | ⟨⟨-, hfresh⟩, -⟩
    · rw [htable]
      exact ih hsource
    · exact absurd (hcached.symm.trans hfresh) (by simp)
  | @fresh table source provider' series orderKey force build _ hbuild hfresh ih =>
    by_cases hown : (seriesTmdbId, key) = (series, normalizeOrderKey orderKey)
    · obtain ⟨rfl, rfl⟩ := Prod.mk.inj hown
      rw [Function.update_self] at hsource
      obtain rfl := Option.some.inj hsource
      rcases build_cases hbuild with ⟨haired' | hcached, -⟩ | ⟨-, rows, hrows, htable⟩
      · rw [isAiredOrder_normalizeOrderKey, haired'] at haired
        exact absurd haired (by simp)
      · exact absurd (hcached.symm.trans hfresh) (by simp)
      · exact build_agrees_iff hrows (mem_select_of_build hrows htable)
    · rw [Function.update_of_ne hown] at hsource
      rw [select_of_other hbuild hown]
      exact ih hsource

/-- Whatever builds ran, an order inverts exactly when what the provider listed at its last build
agrees; the aired order always does. -/
theorem stored_inverts_iff {table : PositionTable} {source : ℕ × String → Option Provider}
    (h : BuiltFrom table source) (provider : Provider) (seriesTmdbId : ℕ) (orderKey : Option String)
    (hsource : isAiredOrder orderKey = true ∨
      source (seriesTmdbId, normalizeOrderKey orderKey) = some provider) :
    Inverts table seriesTmdbId orderKey (provider.listed (normalizeOrderKey orderKey)) ↔
      provider.Agrees seriesTmdbId (normalizeOrderKey orderKey) := by
  cases haired : isAiredOrder orderKey with
  | true =>
    have hkey : normalizeOrderKey orderKey = orderAired := of_decide_eq_true haired
    rw [hkey, listed_of_aired]
    exact iff_of_true (inverts_of_aired haired) (agrees_of_aired provider seriesTmdbId)
  | false =>
    rw [inverts_iff haired]
    refine stored_agrees_iff h ?_ (normalizeOrderKey_idem orderKey)
      (hsource.resolve_left (by simp [haired]))
    rw [isAiredOrder_normalizeOrderKey, haired]

/-- A provider whose every group lists these entries. -/
def groupOf (episodes : List GroupEpisode) : Provider where
  hasTmdbKey := true
  hasTvdbKey := false
  showTvdbId := none
  mappings := ⟨[], List.nodup_nil, List.nodup_nil⟩
  episodeGroup _ := [⟨0, episodes⟩]
  seriesEpisodes _ _ := []

/-- Two episodes in the opposite order. -/
def swappedGroup : Provider := groupOf [⟨some 10, some 1, some 1, 1⟩, ⟨some 11, some 1, some 2, 0⟩]

theorem stored_inverts_swappedGroup : ∃ build,
    buildOrderPositions swappedGroup .empty 7 (some "tmdb:group:5") false = .ok build ∧
      Inverts build.table 7 (some "tmdb:group:5")
        (swappedGroup.listed (normalizeOrderKey (some "tmdb:group:5"))) := by
  have hagrees : swappedGroup.Agrees 7 (normalizeOrderKey (some "tmdb:group:5")) := by
    rw [Provider.Agrees, if_pos (by decide)]
    decide
  have hbuild : ∃ build,
      buildOrderPositions swappedGroup .empty 7 (some "tmdb:group:5") false = .ok build ∧
        build.cached = false := ⟨_, rfl, rfl⟩
  obtain ⟨build, h, hfresh⟩ := hbuild
  have hrun := BuiltFrom.empty.fresh h hfresh
  refine ⟨build, h, (stored_inverts_iff hrun swappedGroup 7 _ (.inr ?_)).mpr hagrees⟩
  exact Function.update_self _ _ _

/-- Two episode ids under the numbers of one episode. -/
def twinGroup : Provider := groupOf [⟨some 10, some 1, some 1, 0⟩, ⟨some 11, some 1, some 1, 1⟩]

/-- The first episode is displayed at two positions. -/
theorem twinGroup_not_inverse : ∃ build,
    buildOrderPositions twinGroup .empty 7 (some "tmdb:group:5") false = .ok build ∧
      build.cached = false ∧ ¬Inverts build.table 7 (some "tmdb:group:5")
        (twinGroup.listed (normalizeOrderKey (some "tmdb:group:5"))) := by
  refine ⟨_, rfl, rfl, fun h ↦ ?_⟩
  have hdistinct := ((inverts_iff (by decide)).mp h).1
  have hrow := hdistinct (.place 7 "tmdb:group:5" 1 1 ⟨10, 1, 1⟩) (by decide)
    (.place 7 "tmdb:group:5" 1 2 ⟨11, 1, 1⟩) (by decide) rfl
  exact absurd hrow (by decide)

end AnyList.Shows
