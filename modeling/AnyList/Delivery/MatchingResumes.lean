import AnyList.Delivery.PublishedResumes

namespace AnyList.Delivery.LocalResumes

open AnyList.Library AnyList.Library.Members

variable {t : Tables} {entry : TrackedEntry} {show' : Show} {m m' : Media} {today : Text}
  {observedAt : ℤ} {nuvio : Bool} {p : PlaybackProgress} {row : Row}

section series

variable {remap : Media → Option Show → Text → Text} {resume : Place × ℤ}

/-- A fresh row that an unwatched episode is resumed from, short of its end. -/
def isUnderWay (t : Tables) (entry : TrackedEntry) (m : Media) : Bool :=
  decide (m.id ∉ t.completed) && (t.progress m.id).any fun p ↦
    freshFor p entry && decide (p.progressPercent < finishedPercent)

def lastPlayed (t : Tables) (m : Media) : ℤ :=
  ((t.progress m.id).bind PlaybackProgress.updatedAt).getD 0

/-- The released episodes under way, in the order of the full push. -/
def underWay (t : Tables) (entry : TrackedEntry) (today : Text) : List Media :=
  ((ordered position (episodesOf t (showIdsOf t entry.media.tmdbId))).filter
    (isReleased today)).filter (isUnderWay t entry)

/-- The most recently played one of the episodes under way. -/
def IsLatest (t : Tables) (entry : TrackedEntry) (today : Text) (m : Media)
    (p : PlaybackProgress) : Prop :=
  IsFirstMax (lastPlayed t) (underWay t entry today) m ∧ t.progress m.id = some p

theorem number_inj {a b : Option ℕ} (h : number a = number b) : a = b := by
  cases a <;> cases b <;> simp_all [number]

theorem place_eq_of_position (h : position m = position m') : m.place = m'.place := by
  obtain ⟨hseason, hepisode⟩ := Prod.mk.inj (toLex_inj.mp h)
  rw [Media.place, Media.place, number_inj hseason, number_inj hepisode]

theorem position_le_of_queueOrder (h : queueOrder m ≤ queueOrder m') :
    position m ≤ position m' := by
  obtain h | ⟨h, -⟩ := Prod.Lex.toLex_le_toLex.mp h
  · exact h.le
  · exact h.le

theorem StillToWatch.of_mem_iff {l l' : List Media} (hmem : ∀ m, m ∈ l' ↔ m ∈ l)
    (h : StillToWatch t l m) : StillToWatch t l' m :=
  h.imp_right fun hall m' hm' ↦ hall m' ((hmem m').mp hm')

theorem itemPlace_eq (hm : m ∈ episodesOf t [show'.id]) : m.itemPlace = m.place := by
  rw [Media.itemPlace, if_neg]
  rw [(mem_episodesOf.mp hm).2.1]
  decide

variable (he : entry ∈ t.watching) (hseries : entry.media.mediaType = .series)
  (hshow : showOfEntry t entry = some show')

include he hseries hshow

theorem showIdsOf_eq : showIdsOf t entry.media.tmdbId = [show'.id] := by
  obtain ⟨hs, htmdb, hne⟩ := (showOfEntry_eq_some he hseries).mp hshow
  have honly : (t.shows.filter fun s ↦ decide (s.tmdbId = entry.media.tmdbId)) = [show'] := by
    refine List.perm_singleton.mp ((List.perm_ext_iff_of_nodup ?_ (List.nodup_singleton _)).mpr ?_)
    · exact (List.Nodup.of_map _ t.showIds).filter _
    · intro s
      rw [List.mem_filter, List.mem_singleton, decide_eq_true_iff]
      refine ⟨fun ⟨hmem, heq⟩ ↦ ?_, fun heq ↦ heq ▸ ⟨hs, htmdb⟩⟩
      exact t.showTitles _ hmem _ hs (heq.trans htmdb.symm) (heq ▸ hne)
  rw [showIdsOf, honly, List.map_singleton]

theorem mem_releasedEpisodes : m ∈ releasedEpisodes t entry.media today ↔
    m ∈ (showEpisodes t show').filter (isReleased today) := by
  rw [releasedEpisodes, showIdsOf_eq he hseries hshow, showEpisodes, List.mem_filter,
    List.mem_filter, mem_ordered, mem_ordered]

theorem rowOf_iff (hm : m ∈ t.media) : RowOf t entry m ↔ m ∈ episodesOf t [show'.id] := by
  obtain ⟨hs, htmdb, hne⟩ := (showOfEntry_eq_some he hseries).mp hshow
  rw [RowOf, if_pos hseries, mem_episodesOf]
  constructor
  · rintro ⟨htype, s, hs', hid, heq, -⟩
    obtain rfl := t.showTitles _ hs' _ hs (heq.trans htmdb.symm) (heq ▸ hne)
    exact ⟨hm, htype, s.id, List.mem_singleton_self _, hid⟩
  · rintro ⟨-, htype, id, hid, hshowId⟩
    exact ⟨htype, show', hs, List.mem_singleton.mp hid ▸ hshowId, htmdb, hne⟩

theorem addressable_iff (hm : m ∈ episodesOf t [show'.id]) : Addressable t m ↔
    show'.imdbId ≠ none ∧ m.seasonNumber ≠ none ∧ m.episodeNumber ≠ none := by
  obtain ⟨hs, -, -⟩ := (showOfEntry_eq_some he hseries).mp hshow
  obtain ⟨-, htype, id, hid, hshowId⟩ := mem_episodesOf.mp hm
  have hfind : showOf t m = some show' := by
    rw [showOf, hshowId, List.mem_singleton.mp hid, Option.bind_some]
    exact find?_eq_some_of_only hs (decide_eq_true rfl) fun s hs' h ↦
      List.inj_on_of_nodup_map t.showIds hs' hs (of_decide_eq_true h)
  simp [Addressable, htype, hfind]

theorem addressable_congr (hm : m ∈ episodesOf t [show'.id]) (hm' : m' ∈ episodesOf t [show'.id])
    (hplace : m.place = m'.place) : Addressable t m ↔ Addressable t m' := by
  obtain ⟨hseason, hepisode⟩ := Prod.mk.inj hplace
  rw [addressable_iff he hseries hshow hm, addressable_iff he hseries hshow hm', hseason, hepisode]

theorem get_freshRows_episode (hm : m ∈ episodesOf t [show'.id]) :
    (freshRows t).get m.id = (freshProgress t m).map PlaybackProgress.row := by
  obtain ⟨hmedia, htype, id, hid, hshowId⟩ := mem_episodesOf.mp hm
  refine get_freshRows (List.mem_filter.mpr ⟨hmedia, ?_⟩)
  rw [Bool.or_eq_true, Bool.and_eq_true, Option.any_eq_true]
  refine .inr ⟨decide_eq_true htype, id, hshowId, ?_⟩
  rw [List.mem_singleton.mp hid, showEntry_eq he hseries hshow]
  rfl

theorem filter_isActive : ((showEpisodes t show').filter (isReleased today)).filter (isActive t) =
    underWay t entry today := by
  rw [underWay, showIdsOf_eq he hseries hshow, showEpisodes]
  refine List.filter_congr fun m hm ↦ ?_
  have howner := owner_episode he hseries hshow (mem_ordered.mp (List.mem_of_mem_filter hm))
  rw [isActive, isUnderWay, freshProgress_eq howner]
  cases t.progress m.id with
  | none => rfl
  | some p => cases hfresh : freshFor p entry <;> simp [hfresh]

theorem fresh_of_mem_underWay (hm : m ∈ underWay t entry today) :
    ∃ p, Fresh t entry m p ∧ activityTime t m = lastPlayed t m := by
  have hin : m ∈ ((showEpisodes t show').filter (isReleased today)).filter (isActive t) := by
    rwa [filter_isActive he hseries hshow]
  have howner := owner_episode he hseries hshow
    (mem_ordered.mp (List.mem_of_mem_filter (List.mem_of_mem_filter hin)))
  have hactive := (Bool.and_eq_true_iff.mp (List.mem_filter.mp hin).2).2
  rw [Option.any_eq_true] at hactive
  obtain ⟨p, hp, -⟩ := hactive
  have hfresh := (freshProgress_eq_some howner).mp hp
  exact ⟨p, hfresh, by rw [activityTime, lastPlayed, hp, hfresh.1]⟩

theorem firstMax_underWay : firstMax (activityTime t) (underWay t entry today) = some m ↔
    IsFirstMax (lastPlayed t) (underWay t entry today) m := by
  have hkey (m : Media) (hm : m ∈ underWay t entry today) : activityTime t m = lastPlayed t m := by
    obtain ⟨p, -, heq⟩ := fresh_of_mem_underWay he hseries hshow hm
    exact heq
  rw [firstMax_eq_some]
  exact IsFirstMax.congr hkey

theorem seriesResume_of_latest (h : IsLatest t entry today m p) :
    seriesResume t nuvio ((showEpisodes t show').filter (isReleased today)) =
      some (m.id, p.row) := by
  obtain ⟨q, hq, -⟩ := fresh_of_mem_underWay he hseries hshow h.1.mem
  obtain rfl := Option.some.inj (h.2.symm.trans hq.1)
  have hm : m ∈ episodesOf t [show'.id] := by
    have hmem := List.mem_of_mem_filter (List.mem_of_mem_filter h.1.mem)
    rwa [mem_ordered, showIdsOf_eq he hseries hshow] at hmem
  have hp := (freshProgress_eq_some (owner_episode he hseries hshow hm)).mpr hq
  simp only [seriesResume, filter_isActive he hseries hshow,
    (firstMax_underWay he hseries hshow).mpr h.1, hp, Option.map_some]

theorem seriesResume_of_isNext (hnone : underWay t entry today = [])
    (h : IsNext t entry.media today m) :
    (nuvio ∧ Begun t entry.media today ∧
      seriesResume t nuvio ((showEpisodes t show').filter (isReleased today)) = none) ∨
    (¬(nuvio ∧ Begun t entry.media today) ∧ ∃ m' ∈ episodesOf t [show'.id],
      seriesResume t nuvio ((showEpisodes t show').filter (isReleased today)) =
        some (m'.id, synthetic) ∧ m'.place = m.place) := by
  have hmem (m : Media) := (mem_releasedEpisodes he hseries hshow : _ ↔ m ∈ (showEpisodes t show').filter (isReleased today))
  have hbegun : (((showEpisodes t show').filter (isReleased today)).any fun m ↦
      decide (m.id ∈ t.completed)) = true ↔ Begun t entry.media today := by
    rw [List.any_eq_true, Begun]
    exact exists_congr fun m ↦ by rw [hmem, decide_eq_true_iff]
  simp only [seriesResume, filter_isActive he hseries hshow, firstMax_eq_none.mpr hnone]
  by_cases hhidden : nuvio ∧ Begun t entry.media today
  · exact .inl ⟨hhidden.1, hhidden.2, if_pos (hhidden.imp_right hbegun.mpr)⟩
  · refine .inr ⟨hhidden, ?_⟩
    rw [if_neg fun h ↦ hhidden (h.imp_right hbegun.mp)]
    have hne : (showEpisodes t show').filter (isReleased today) ≠ [] :=
      List.ne_nil_of_mem ((hmem m).mp h.1)
    obtain ⟨m', hm'⟩ := Option.ne_none_iff_exists'.mp (nextEpisode_eq_none.not.mpr hne)
    obtain ⟨hin, hstill, hfirst⟩ := of_nextEpisode ((pairwise_ordered position _).filter _) hm'
    have hle := hfirst m ((hmem m).mp h.1) (h.2.1.of_mem_iff fun m ↦ (hmem m).symm)
    have hge := h.2.2 m' ((hmem m').mpr hin) (hstill.of_mem_iff hmem)
    refine ⟨m', mem_ordered.mp (List.mem_of_mem_filter hin), by rw [hm', Option.map_some], ?_⟩
    exact place_eq_of_position (le_antisymm hle (position_le_of_queueOrder hge))

theorem get_progress_episode (hm : m ∈ episodesOf t [show'.id]) :
    (progressByMedia t today nuvio).get m.id =
      if ((showEpisodes t show').filter (isReleased today)).isEmpty then
        (freshProgress t m).map PlaybackProgress.row
      else (seriesResume t nuvio ((showEpisodes t show').filter (isReleased today))).bind
        fun resume ↦ if resume.1 = m.id then some resume.2 else none := by
  have htouch : Touches t entry m.id := by
    rw [Touches, if_pos hseries]
    exact ⟨show', hshow, m, hm, rfl⟩
  have hid : m.id ∈ (showEpisodes t show').map Media.id :=
    List.mem_map_of_mem (mem_ordered.mpr hm)
  obtain ⟨rows, hrows, hget⟩ := get_progressByMedia today nuvio he htouch
  rw [hget, get_publishEntry_series hseries hshow, hrows,
    get_freshRows_episode he hseries hshow hm]
  split
  · rfl
  · cases seriesResume t nuvio ((showEpisodes t show').filter (isReleased today)) with
    | none => rfl
    | some resume => rfl

theorem published_series_iff : Published t entry (progressItems t today nuvio remap) resume ↔
    ∃ m ∈ episodesOf t [show'.id], ∃ row, (progressByMedia t today nuvio).get m.id = some row ∧
      row.Started ∧ Addressable t m ∧ resume = (m.place, row.progressSeconds * 1000) := by
  rw [published_iff]
  constructor
  · rintro ⟨m, hmedia, hrow, row, hget, hstarted, haddress, hresume⟩
    have hm := (rowOf_iff he hseries hshow hmedia).mp hrow
    exact ⟨m, hm, row, hget, hstarted, haddress, itemPlace_eq hm ▸ hresume⟩
  · rintro ⟨m, hm, row, hget, hstarted, haddress, hresume⟩
    have hmedia := (mem_episodesOf.mp hm).1
    exact ⟨m, hmedia, (rowOf_iff he hseries hshow hmedia).mpr hm, row, hget, hstarted, haddress,
      (itemPlace_eq hm).symm ▸ hresume⟩

theorem isEmpty_released : ((showEpisodes t show').filter (isReleased today)).isEmpty ↔
    releasedEpisodes t entry.media today = [] := by
  rw [List.isEmpty_iff, List.eq_nil_iff_forall_not_mem, List.eq_nil_iff_forall_not_mem]
  exact forall_congr' fun m ↦ not_congr (mem_releasedEpisodes he hseries hshow).symm

theorem published_unreleased_iff (hnil : releasedEpisodes t entry.media today = []) :
    Published t entry (progressItems t today nuvio remap) resume ↔
      ∃ m ∈ episodesOf t [show'.id], ∃ p, Fresh t entry m p ∧ p.row.Started ∧ Addressable t m ∧
        resume = (m.place, p.progressSeconds * 1000) := by
  have hempty := (isEmpty_released he hseries hshow).mpr hnil
  rw [published_series_iff he hseries hshow]
  refine exists_congr fun m ↦ and_congr_right fun hm ↦ ?_
  have howner := owner_episode he hseries hshow hm
  rw [get_progress_episode he hseries hshow hm, if_pos hempty]
  constructor
  · rintro ⟨row, hrow, hstarted, haddress, hresume⟩
    obtain ⟨p, hp, rfl⟩ := Option.map_eq_some_iff.mp hrow
    exact ⟨p, (freshProgress_eq_some howner).mp hp, hstarted, haddress, hresume⟩
  · rintro ⟨p, hp, hstarted, haddress, hresume⟩
    refine ⟨p.row, ?_, hstarted, haddress, hresume⟩
    rw [(freshProgress_eq_some howner).mpr hp, Option.map_some]

theorem not_published_of_none (hne : releasedEpisodes t entry.media today ≠ [])
    (h : seriesResume t nuvio ((showEpisodes t show').filter (isReleased today)) = none) :
    ¬Published t entry (progressItems t today nuvio remap) resume := by
  have hempty := (isEmpty_released he hseries hshow).not.mpr hne
  rw [published_series_iff he hseries hshow]
  rintro ⟨m, hm, row, hget, -⟩
  rw [get_progress_episode he hseries hshow hm, if_neg hempty, h] at hget
  exact absurd hget (by simp)

theorem published_of_some_iff (hne : releasedEpisodes t entry.media today ≠ [])
    (hm : m ∈ episodesOf t [show'.id])
    (h : seriesResume t nuvio ((showEpisodes t show').filter (isReleased today)) =
      some (m.id, row)) :
    Published t entry (progressItems t today nuvio remap) resume ↔
      row.Started ∧ Addressable t m ∧ resume = (m.place, row.progressSeconds * 1000) := by
  have hempty := (isEmpty_released he hseries hshow).not.mpr hne
  rw [published_series_iff he hseries hshow]
  constructor
  · rintro ⟨m', hm', row', hget, hstarted, haddress, hresume⟩
    rw [get_progress_episode he hseries hshow hm', if_neg hempty, h, Option.bind_some] at hget
    split_ifs at hget with hid
    obtain rfl := t.eq_of_id (mem_episodesOf.mp hm).1 (mem_episodesOf.mp hm').1 hid
    obtain rfl := Option.some.inj hget
    exact ⟨hstarted, haddress, hresume⟩
  · rintro ⟨hstarted, haddress, hresume⟩
    refine ⟨m, hm, row, ?_, hstarted, haddress, hresume⟩
    rw [get_progress_episode he hseries hshow hm, if_neg hempty, h, Option.bind_some, if_pos rfl]

end series

section agreement

variable {remap : Media → Option Show → Text → Text} {resume : Place × ℤ}
  {items : List (Media × Item)}

/-- The items resume the title as the queued action does, and nowhere else. -/
def PublishesSame (t : Tables) (entry : TrackedEntry) (observedAt : ℤ) (today : Text)
    (nuvio : Bool) (items : List (Media × Item)) : Prop :=
  ∀ resume, Published t entry items resume ↔
    queuedResume t entry observedAt today nuvio = some resume

def Media.Special (m : Media) : Prop := m.seasonNumber = some 0

def Media.Regular (m : Media) : Prop := ∃ n, m.seasonNumber = some n ∧ 0 < n

/-- A seeded episode is a special only when no regular released episode is unwatched. -/
def SpecialsLast (t : Tables) (entry : TrackedEntry) (observedAt : ℤ) (today : Text)
    (nuvio : Bool) : Prop :=
  entry.media.mediaType = .series →
    ∀ record, localResumeRecord t entry observedAt today = some record →
      record.syntheticResume → ¬(nuvio ∧ record.hasWatchedHistory) → record.episodeMedia.Special →
        ∀ m ∈ releasedEpisodes t entry.media today, m.Regular → m.id ∈ t.completed

/-- When the two agree. Both pass over the rows of the other episodes, or those rows lead to the
episode and the position that the queued action has. -/
inductive Alike (t : Tables) (entry : TrackedEntry) (observedAt : ℤ) (today : Text)
    (nuvio : Bool) : Prop
  | film (type : entry.media.mediaType ≠ .series) (address : Addressable t entry.media)
      (started : ∀ p, Fresh t entry entry.media p → p.row.Started ∧
        (Taken t entry observedAt entry.media p ∨ p.progressSeconds = 1))
  | unreleased (type : entry.media.mediaType = .series)
      (none_released : releasedEpisodes t entry.media today = [])
      (unpublished : ∀ m ∈ t.media, RowOf t entry m →
        ∀ p, Fresh t entry m p → p.row.Started → ¬Addressable t m)
  | hidden (type : entry.media.mediaType = .series) (m : Media)
      (next : IsNext t entry.media today m) (begun : nuvio ∧ Begun t entry.media today)
      (own : ∀ p, ¬Taken t entry observedAt m p)
      (latest : ∀ m' p, IsLatest t entry today m' p → p.row.Started → Addressable t m' →
        entry.media.tmdbId = none)
  | seeded (type : entry.media.mediaType = .series) (m : Media)
      (next : IsNext t entry.media today m) (shown : ¬(nuvio ∧ Begun t entry.media today))
      (none_under_way : underWay t entry today = []) (tmdb : entry.media.tmdbId ≠ none)
      (address : Addressable t m)
      (own : ∀ p, Taken t entry observedAt m p → p.progressSeconds = 1)
  | resumed (type : entry.media.mediaType = .series) (m m' : Media) (p : PlaybackProgress)
      (next : IsNext t entry.media today m) (latest : IsLatest t entry today m' p)
      (tmdb : entry.media.tmdbId ≠ none) (started : p.row.Started) (address : Addressable t m')
      (place : m'.place = m.place)
      (own : (∃ q, Taken t entry observedAt m q ∧ q.progressSeconds = p.progressSeconds) ∨
        (∀ q, ¬Taken t entry observedAt m q) ∧ p.progressSeconds = 1 ∧
          ¬(nuvio ∧ Begun t entry.media today))

/-- Where an episode is seeded, no special is left to watch or nothing but specials is. -/
def NoEarlySpecial (t : Tables) (entry : TrackedEntry) (observedAt : ℤ) (today : Text)
    (nuvio : Bool) : Prop :=
  entry.media.mediaType = .series →
    (∃ m, IsNext t entry.media today m ∧ ∀ p, ¬Taken t entry observedAt m p) →
      ¬(nuvio ∧ Begun t entry.media today) →
        (∀ m ∈ releasedEpisodes t entry.media today, m.Special → m.id ∈ t.completed) ∨
          ∀ m ∈ releasedEpisodes t entry.media today, m.Regular → m.id ∈ t.completed

theorem publishesSame_of_not (h : ∀ resume, ¬Published t entry items resume) :
    PublishesSame t entry observedAt today nuvio items ↔
      queuedResume t entry observedAt today nuvio = none := by
  rw [Option.eq_none_iff_forall_not_mem]
  exact forall_congr' fun resume ↦ iff_false_left (h resume)

theorem publishesSame_of_iff (resume : Place × ℤ)
    (h : ∀ r, Published t entry items r ↔ r = resume) :
    PublishesSame t entry observedAt today nuvio items ↔
      queuedResume t entry observedAt today nuvio = some resume := by
  refine ⟨fun hsame ↦ (hsame resume).mp ((h resume).mpr rfl), fun hqueued r ↦ ?_⟩
  rw [h, hqueued, Option.some.injEq, eq_comm]

theorem Taken.fresh (h : Taken t entry observedAt m p) : Fresh t entry m p := by
  obtain ⟨hrow, ⟨at', hat, hle⟩, -⟩ := h
  refine ⟨hrow, ?_⟩
  unfold freshFor
  split
  · rfl
  · next changedAt hchanged =>
    rw [hchanged, Option.getD_some] at hle
    rw [Option.any_eq_true]
    exact ⟨at', hat, decide_eq_true hle⟩

theorem queuedResume_film (hfilm : entry.media.mediaType ≠ .series) :
    queuedResume t entry observedAt today nuvio = some ((none, none),
      (localPosition (t.progress entry.media.id) (entry.statusChangedAt.getD observedAt)).1) := by
  rw [queuedResume, localResumeRecord_film hfilm, Option.bind_some, if_neg fun h ↦ hfilm h.2.1,
    if_neg hfilm]

section queuedSeries

variable (hseries : entry.media.mediaType = .series)

include hseries

theorem queuedResume_of_nil (hnil : releasedEpisodes t entry.media today = []) :
    queuedResume t entry observedAt today nuvio = none := by
  rw [queuedResume, localResumeRecord_of_nil hseries hnil, Option.bind_none]

variable (hnext : IsNext t entry.media today m)

include hnext

theorem queuedResume_of_taken (h : Taken t entry observedAt m p) :
    queuedResume t entry observedAt today nuvio = some (m.place, p.progressSeconds * 1000) := by
  rw [queuedResume, localResumeRecord_of_isNext hseries hnext, Option.bind_some,
    localPosition_of_taken h, if_pos hseries]
  exact if_neg fun h ↦ Bool.noConfusion h.2.2.2

theorem queuedResume_hidden (hbegun : nuvio ∧ Begun t entry.media today)
    (h : ∀ p, ¬Taken t entry observedAt m p) :
    queuedResume t entry observedAt today nuvio = none := by
  rw [queuedResume, localResumeRecord_of_isNext hseries hnext, Option.bind_some,
    localPosition_of_not_taken h]
  exact if_pos ⟨hbegun.1, hseries, decide_eq_true hbegun.2, rfl⟩

theorem queuedResume_seeded (hshown : ¬(nuvio ∧ Begun t entry.media today))
    (h : ∀ p, ¬Taken t entry observedAt m p) :
    queuedResume t entry observedAt today nuvio = some (m.place, 1000) := by
  rw [queuedResume, localResumeRecord_of_isNext hseries hnext, Option.bind_some,
    localPosition_of_not_taken h, if_pos hseries]
  exact if_neg fun h ↦ hshown ⟨h.1, of_decide_eq_true h.2.2.1⟩

end queuedSeries

theorem itemPlace_film (he : entry ∈ t.watching) (hfilm : entry.media.mediaType ≠ .series) :
    entry.media.itemPlace = (none, none) := by
  have hepisode := (t.tracked _ he).2
  rw [Media.itemPlace, if_pos]
  cases htype : entry.media.mediaType with
  | movie => rfl
  | series => exact absurd htype hfilm
  | episode => exact absurd htype hepisode

theorem alike_film_iff (hfilm : entry.media.mediaType ≠ .series) :
    Alike t entry observedAt today nuvio ↔ Addressable t entry.media ∧
      ∀ p, Fresh t entry entry.media p → p.row.Started ∧
        (Taken t entry observedAt entry.media p ∨ p.progressSeconds = 1) := by
  refine ⟨fun h ↦ ?_, fun h ↦ .film hfilm h.1 h.2⟩
  cases h with
  | film _ address started => exact ⟨address, started⟩
  | unreleased type => exact absurd type hfilm
  | hidden type => exact absurd type hfilm
  | seeded type => exact absurd type hfilm
  | resumed type => exact absurd type hfilm

theorem Fresh.eq {q : PlaybackProgress} (h : Fresh t entry m p) (hq : Fresh t entry m q) : q = p :=
  Option.some.inj (hq.1.symm.trans h.1)

theorem queuedResume_film_iff (hfilm : entry.media.mediaType ≠ .series)
    (hp : Fresh t entry entry.media p) :
    queuedResume t entry observedAt today nuvio = some ((none, none), p.progressSeconds * 1000) ↔
      Taken t entry observedAt entry.media p ∨ p.progressSeconds = 1 := by
  rw [queuedResume_film hfilm, Option.some.injEq, Prod.mk.injEq, and_iff_right rfl]
  by_cases htaken : Taken t entry observedAt entry.media p
  · rw [localPosition_of_taken htaken]
    exact iff_of_true rfl (.inl htaken)
  · rw [localPosition_of_not_taken fun q hq ↦ htaken (hp.eq hq.fresh ▸ hq)]
    constructor
    · exact fun h ↦ .inr (by omega)
    · rintro (h | h)
      · exact absurd h htaken
      · rw [h]
        rfl

theorem publishesSame_film_iff (he : entry ∈ t.watching)
    (hfilm : entry.media.mediaType ≠ .series) :
    PublishesSame t entry observedAt today nuvio (progressItems t today nuvio remap) ↔
      Alike t entry observedAt today nuvio := by
  have hpublished (r : Place × ℤ) : Published t entry (progressItems t today nuvio remap) r ↔ _ :=
    published_film_iff he hfilm
  rw [itemPlace_film he hfilm] at hpublished
  have hsome : queuedResume t entry observedAt today nuvio ≠ none := by
    rw [queuedResume_film hfilm]
    exact Option.some_ne_none _
  rw [alike_film_iff hfilm]
  by_cases haddress : Addressable t entry.media
  · by_cases hfresh : ∃ p, Fresh t entry entry.media p
    · obtain ⟨p, hp⟩ := hfresh
      by_cases hstarted : p.row.Started
      · have hiff (r : Place × ℤ) : Published t entry (progressItems t today nuvio remap) r ↔
            r = ((none, none), p.progressSeconds * 1000) := by
          rw [hpublished]
          constructor
          · rintro ⟨-, ⟨q, hq, -, hr⟩ | ⟨hnone, -⟩⟩
            · rwa [hp.eq hq] at hr
            · exact absurd hp (hnone p)
          · exact fun hr ↦ ⟨haddress, .inl ⟨p, hp, hstarted, hr⟩⟩
        rw [publishesSame_of_iff _ hiff, queuedResume_film_iff hfilm hp]
        exact ⟨fun h ↦ ⟨haddress, fun q hq ↦ hp.eq hq ▸ ⟨hstarted, h⟩⟩, fun h ↦ (h.2 p hp).2⟩
      · rw [publishesSame_of_not fun r h ↦ ?_]
        · exact iff_of_false hsome fun h ↦ hstarted (h.2 p hp).1
        · obtain ⟨-, ⟨q, hq, hq', -⟩ | ⟨hnone, -⟩⟩ := (hpublished r).mp h
          · exact hstarted (hp.eq hq ▸ hq')
          · exact hnone p hp
    · have hnone (p : PlaybackProgress) (hp : Fresh t entry entry.media p) : False := hfresh ⟨p, hp⟩
      have hiff (r : Place × ℤ) : Published t entry (progressItems t today nuvio remap) r ↔
          r = ((none, none), 1000) := by
        rw [hpublished]
        constructor
        · rintro ⟨-, ⟨q, hq, -⟩ | ⟨-, hr⟩⟩
          · exact (hnone q hq).elim
          · exact hr
        · exact fun hr ↦ ⟨haddress, .inr ⟨hnone, hr⟩⟩
      rw [publishesSame_of_iff _ hiff, queuedResume_film hfilm,
        localPosition_of_not_taken fun q hq ↦ hnone q hq.fresh]
      exact iff_of_true rfl ⟨haddress, fun p hp ↦ (hnone p hp).elim⟩
  · rw [publishesSame_of_not fun r h ↦ haddress ((hpublished r).mp h).1]
    exact iff_of_false hsome fun h ↦ haddress h.1

section series

variable (hseries : entry.media.mediaType = .series)

include hseries

section next

variable (hnext : IsNext t entry.media today m)

include hnext

theorem queuedResume_eq_none_iff : queuedResume t entry observedAt today nuvio = none ↔
    (nuvio ∧ Begun t entry.media today) ∧ ∀ p, ¬Taken t entry observedAt m p := by
  by_cases htaken : ∃ p, Taken t entry observedAt m p
  · obtain ⟨p, hp⟩ := htaken
    rw [queuedResume_of_taken hseries hnext hp]
    exact iff_of_false (Option.some_ne_none _) fun h ↦ h.2 p hp
  · have hnot : ∀ p, ¬Taken t entry observedAt m p := fun p hp ↦ htaken ⟨p, hp⟩
    by_cases hbegun : nuvio ∧ Begun t entry.media today
    · exact iff_of_true (queuedResume_hidden hseries hnext hbegun hnot) ⟨hbegun, hnot⟩
    · rw [queuedResume_seeded hseries hnext hbegun hnot]
      exact iff_of_false (Option.some_ne_none _) fun h ↦ hbegun h.1

theorem queuedResume_eq_some_iff {place : Place} {seconds : ℤ} :
    queuedResume t entry observedAt today nuvio = some (place, seconds * 1000) ↔
      place = m.place ∧ ((∃ q, Taken t entry observedAt m q ∧ q.progressSeconds = seconds) ∨
        (∀ q, ¬Taken t entry observedAt m q) ∧ seconds = 1 ∧
          ¬(nuvio ∧ Begun t entry.media today)) := by
  by_cases htaken : ∃ p, Taken t entry observedAt m p
  · obtain ⟨p, hp⟩ := htaken
    rw [queuedResume_of_taken hseries hnext hp, Option.some.injEq, Prod.mk.injEq,
      eq_comm (a := m.place)]
    refine and_congr_right fun _ ↦ ⟨fun h ↦ .inl ⟨p, hp, by omega⟩, ?_⟩
    rintro (⟨q, hq, rfl⟩ | ⟨hnot, -⟩)
    · rw [hp.fresh.eq hq.fresh]
    · exact absurd hp (hnot p)
  · have hnot : ∀ p, ¬Taken t entry observedAt m p := fun p hp ↦ htaken ⟨p, hp⟩
    by_cases hbegun : nuvio ∧ Begun t entry.media today
    · rw [queuedResume_hidden hseries hnext hbegun hnot]
      refine iff_of_false (Option.some_ne_none _).symm ?_
      rintro ⟨-, ⟨q, hq, -⟩ | ⟨-, -, hshown⟩⟩
      · exact hnot q hq
      · exact hshown hbegun
    · rw [queuedResume_seeded hseries hnext hbegun hnot, Option.some.injEq, Prod.mk.injEq,
        eq_comm (a := m.place)]
      refine and_congr_right fun _ ↦ ⟨fun h ↦ .inr ⟨hnot, by omega, hbegun⟩, ?_⟩
      rintro (⟨q, hq, -⟩ | ⟨-, rfl, -⟩)
      · exact absurd hq (hnot q)
      · rfl

end next

theorem publishesSame_without_show_iff (he : entry ∈ t.watching)
    (hshow : showOfEntry t entry = none) :
    PublishesSame t entry observedAt today nuvio (progressItems t today nuvio remap) ↔
      Alike t entry observedAt today nuvio := by
  have hnoShow (s : Show) (hs : s ∈ t.shows) (htmdb : s.tmdbId = entry.media.tmdbId) :
      entry.media.tmdbId = none := by
    by_contra hne
    rw [(showOfEntry_eq_some he hseries).mpr ⟨hs, htmdb, hne⟩] at hshow
    exact absurd hshow (Option.some_ne_none s)
  have hrow (m : Media) (h : RowOf t entry m) : False := by
    rw [RowOf, if_pos hseries] at h
    obtain ⟨-, s, hs, -, htmdb, hne⟩ := h
    exact hne (hnoShow s hs htmdb)
  have hnot (r : Place × ℤ) : ¬Published t entry (progressItems t today nuvio remap) r := by
    rintro ⟨item, -, h, -⟩
    exact hrow _ h
  rw [publishesSame_of_not hnot]
  by_cases hnil : releasedEpisodes t entry.media today = []
  · exact iff_of_true (queuedResume_of_nil hseries hnil)
      (.unreleased hseries hnil fun m _ h ↦ (hrow m h).elim)
  · obtain ⟨m, hnext, -⟩ := exists_isNext hnil
    have htmdb : entry.media.tmdbId = none := by
      obtain ⟨-, -, id, hid, -⟩ := mem_episodesOf.mp
        (mem_ordered.mp (List.mem_of_mem_filter hnext.1))
      obtain ⟨s, hs, -⟩ := List.mem_map.mp hid
      obtain ⟨hs, heq⟩ := List.mem_filter.mp hs
      exact hnoShow s hs (of_decide_eq_true heq)
    rw [queuedResume_eq_none_iff hseries hnext]
    constructor
    · exact fun h ↦ .hidden hseries m hnext h.1 h.2 fun _ _ _ _ _ ↦ htmdb
    · intro h
      cases h with
      | film type => exact absurd hseries type
      | unreleased _ none_released => exact absurd none_released hnil
      | hidden _ m' next begun own => exact hnext.eq next ▸ ⟨begun, own⟩
      | seeded _ _ _ _ _ tmdb => exact absurd htmdb tmdb
      | resumed _ _ _ _ _ _ tmdb => exact absurd htmdb tmdb

section withShow

variable (he : entry ∈ t.watching) (hshow : showOfEntry t entry = some show')

include he hshow

theorem publishesSame_unreleased_iff (hnil : releasedEpisodes t entry.media today = []) :
    PublishesSame t entry observedAt today nuvio (progressItems t today nuvio remap) ↔
      Alike t entry observedAt today nuvio := by
  have hpublished (r : Place × ℤ) : Published t entry (progressItems t today nuvio remap) r ↔ _ :=
    published_unreleased_iff he hseries hshow hnil
  rw [PublishesSame, queuedResume_of_nil hseries hnil]
  constructor
  · intro h
    refine .unreleased hseries hnil fun m hm hrow p hp hstarted haddress ↦ ?_
    have hin := (rowOf_iff he hseries hshow hm).mp hrow
    exact Option.some_ne_none _ ((h _).mp ((hpublished _).mpr
      ⟨m, hin, p, hp, hstarted, haddress, rfl⟩)).symm
  · intro h r
    refine iff_of_false (fun hr ↦ ?_) (Option.some_ne_none r).symm
    obtain ⟨m, hm, p, hp, hstarted, haddress, -⟩ := (hpublished r).mp hr
    have hmedia := (mem_episodesOf.mp hm).1
    cases h with
    | film type => exact type hseries
    | unreleased _ _ unpublished =>
      exact unpublished m hmedia ((rowOf_iff he hseries hshow hmedia).mpr hm) p hp hstarted haddress
    | hidden _ m' next => exact List.ne_nil_of_mem next.1 hnil
    | seeded _ m' next => exact List.ne_nil_of_mem next.1 hnil
    | resumed _ m' _ _ next => exact List.ne_nil_of_mem next.1 hnil

theorem tmdbId_ne_none : entry.media.tmdbId ≠ none :=
  ((showOfEntry_eq_some he hseries).mp hshow).2.2

variable (hnext : IsNext t entry.media today m)

include hnext

theorem mem_episodesOf_of_isNext : m ∈ episodesOf t [show'.id] :=
  mem_ordered.mp (List.mem_of_mem_filter ((mem_releasedEpisodes he hseries hshow).mp hnext.1))

theorem publishesSame_seeded_iff (hnone : underWay t entry today = []) :
    PublishesSame t entry observedAt today nuvio (progressItems t today nuvio remap) ↔
      Alike t entry observedAt today nuvio := by
  have hne := List.ne_nil_of_mem hnext.1
  have hnoLatest (m' : Media) (p : PlaybackProgress) (h : IsLatest t entry today m' p) : False := by
    have hmem := h.1.mem
    rw [hnone] at hmem
    exact List.not_mem_nil hmem
  obtain ⟨hnuvio, hbegun, hresume⟩ | ⟨hshown, m', hm', hresume, hplace⟩ :=
    seriesResume_of_isNext he hseries hshow hnone hnext
  · rw [publishesSame_of_not fun r ↦ not_published_of_none he hseries hshow hne hresume,
      queuedResume_eq_none_iff hseries hnext]
    constructor
    · exact fun h ↦ .hidden hseries m hnext h.1 h.2 fun m' p h ↦ (hnoLatest m' p h).elim
    · intro h
      cases h with
      | film type => exact absurd hseries type
      | unreleased _ none_released => exact absurd none_released hne
      | hidden _ m' next begun own => exact hnext.eq next ▸ ⟨begun, own⟩
      | seeded _ _ _ shown => exact absurd ⟨hnuvio, hbegun⟩ shown
      | resumed _ _ m' p _ latest => exact (hnoLatest m' p latest).elim
  · have hpublished (r : Place × ℤ) :
        Published t entry (progressItems t today nuvio remap) r ↔ _ :=
      published_of_some_iff he hseries hshow hne hm' hresume
    have hcongr := addressable_congr he hseries hshow hm'
      (mem_episodesOf_of_isNext hseries he hshow hnext) hplace
    have halike : Alike t entry observedAt today nuvio ↔ Addressable t m' ∧
        ∀ p, Taken t entry observedAt m p → p.progressSeconds = 1 := by
      constructor
      · intro h
        cases h with
        | film type => exact absurd hseries type
        | unreleased _ none_released => exact absurd none_released hne
        | hidden _ _ _ begun => exact absurd begun hshown
        | seeded _ m'' next _ _ _ address own =>
          obtain rfl := hnext.eq next
          exact ⟨hcongr.mpr address, own⟩
        | resumed _ _ m' p _ latest => exact (hnoLatest m' p latest).elim
      · exact fun ⟨address, own⟩ ↦ .seeded hseries m hnext hshown hnone
          (tmdbId_ne_none hseries he hshow) (hcongr.mp address) own
    rw [halike]
    by_cases haddress : Addressable t m'
    · have hiff (r : Place × ℤ) : Published t entry (progressItems t today nuvio remap) r ↔
          r = (m'.place, 1 * 1000) := by
        rw [hpublished]
        exact ⟨fun h ↦ h.2.2, fun h ↦ ⟨started_synthetic, haddress, h⟩⟩
      rw [publishesSame_of_iff _ hiff, queuedResume_eq_some_iff hseries hnext]
      constructor
      · rintro ⟨-, ⟨q, hq, hone⟩ | ⟨hnot, -⟩⟩
        · exact ⟨haddress, fun p hp ↦ hq.fresh.eq hp.fresh ▸ hone⟩
        · exact ⟨haddress, fun p hp ↦ absurd hp (hnot p)⟩
      · intro h
        refine ⟨hplace, ?_⟩
        by_cases htaken : ∃ q, Taken t entry observedAt m q
        · obtain ⟨q, hq⟩ := htaken
          exact .inl ⟨q, hq, h.2 q hq⟩
        · exact .inr ⟨fun q hq ↦ htaken ⟨q, hq⟩, rfl, hshown⟩
    · rw [publishesSame_of_not fun r h ↦ haddress ((hpublished r).mp h).2.1,
        queuedResume_eq_none_iff hseries hnext]
      exact iff_of_false (fun h ↦ hshown h.1) fun h ↦ haddress h.1

theorem publishesSame_resumed_iff {m' : Media} (hlatest : IsLatest t entry today m' p) :
    PublishesSame t entry observedAt today nuvio (progressItems t today nuvio remap) ↔
      Alike t entry observedAt today nuvio := by
  have hne := List.ne_nil_of_mem hnext.1
  have htmdb := tmdbId_ne_none hseries he hshow
  have hm' : m' ∈ episodesOf t [show'.id] := by
    have hmem := List.mem_of_mem_filter (List.mem_of_mem_filter hlatest.1.mem)
    rwa [mem_ordered, showIdsOf_eq he hseries hshow] at hmem
  have hpublished (r : Place × ℤ) : Published t entry (progressItems t today nuvio remap) r ↔ _ :=
    published_of_some_iff he hseries hshow hne hm'
      (seriesResume_of_latest he hseries hshow hlatest)
  have honly {m'' : Media} {q : PlaybackProgress} (h : IsLatest t entry today m'' q) :
      m'' = m' ∧ q = p := by
    obtain rfl := h.1.eq hlatest.1
    exact ⟨rfl, Option.some.inj (h.2.symm.trans hlatest.2)⟩
  by_cases hmade : p.row.Started ∧ Addressable t m'
  · have hiff (r : Place × ℤ) : Published t entry (progressItems t today nuvio remap) r ↔
        r = (m'.place, p.progressSeconds * 1000) := by
      rw [hpublished]
      exact ⟨fun h ↦ h.2.2, fun h ↦ ⟨hmade.1, hmade.2, h⟩⟩
    rw [publishesSame_of_iff _ hiff, queuedResume_eq_some_iff hseries hnext]
    constructor
    · exact fun ⟨hplace, hown⟩ ↦
        .resumed hseries m m' p hnext hlatest htmdb hmade.1 hmade.2 hplace hown
    · intro h
      cases h with
      | film type => exact absurd hseries type
      | unreleased _ none_released => exact absurd none_released hne
      | hidden _ _ _ _ _ latest => exact absurd (latest m' p hlatest hmade.1 hmade.2) htmdb
      | seeded _ _ _ _ none_under_way =>
        exact absurd none_under_way (List.ne_nil_of_mem hlatest.1.mem)
      | resumed _ m₁ m₂ q next latest _ _ _ place own =>
        obtain ⟨rfl, rfl⟩ := honly latest
        obtain rfl := hnext.eq next
        exact ⟨place, own⟩
  · rw [publishesSame_of_not fun r h ↦ hmade ⟨((hpublished r).mp h).1, ((hpublished r).mp h).2.1⟩,
      queuedResume_eq_none_iff hseries hnext]
    constructor
    · refine fun h ↦ .hidden hseries m hnext h.1 h.2 fun m'' q hq hstarted haddress ↦ ?_
      obtain ⟨rfl, rfl⟩ := honly hq
      exact absurd ⟨hstarted, haddress⟩ hmade
    · intro h
      cases h with
      | film type => exact absurd hseries type
      | unreleased _ none_released => exact absurd none_released hne
      | hidden _ _ next begun own => exact hnext.eq next ▸ ⟨begun, own⟩
      | seeded _ _ _ _ none_under_way =>
        exact absurd none_under_way (List.ne_nil_of_mem hlatest.1.mem)
      | resumed _ _ _ q _ latest _ started address =>
        obtain ⟨rfl, rfl⟩ := honly latest
        exact absurd ⟨started, address⟩ hmade

end withShow

end series

theorem publishesSame_iff (he : entry ∈ t.watching) :
    PublishesSame t entry observedAt today nuvio (progressItems t today nuvio remap) ↔
      Alike t entry observedAt today nuvio := by
  by_cases hseries : entry.media.mediaType = .series
  · cases hshow : showOfEntry t entry with
    | none => exact publishesSame_without_show_iff hseries he hshow
    | some show' =>
      by_cases hnil : releasedEpisodes t entry.media today = []
      · exact publishesSame_unreleased_iff hseries he hshow hnil
      · obtain ⟨m, hnext, -⟩ := exists_isNext hnil
        cases hmax : firstMax (activityTime t) (underWay t entry today) with
        | none =>
          exact publishesSame_seeded_iff hseries he hshow hnext (firstMax_eq_none.mp hmax)
        | some m' =>
          have hfirst := (firstMax_underWay he hseries hshow).mp hmax
          obtain ⟨p, hp, -⟩ := fresh_of_mem_underWay he hseries hshow hfirst.mem
          exact publishesSame_resumed_iff hseries he hshow hnext ⟨hfirst, hp.1⟩
  · exact publishesSame_film_iff he hseries

theorem zero_le_number (n : Option ℕ) : ((0 : ℕ) : WithTop ℕ) ≤ number n := by
  cases n with
  | none => exact le_top
  | some n => exact WithTop.coe_le_coe.mpr n.zero_le

theorem special_of_position_le (h : m'.Special) (hle : position m ≤ position m') : m.Special := by
  have hnumber : number m'.seasonNumber = (0 : ℕ) := by
    rw [h]
    rfl
  obtain hlt | ⟨heq, -⟩ := Prod.Lex.toLex_le_toLex.mp hle
  · rw [hnumber] at hlt
    exact absurd hlt (not_lt_of_ge (zero_le_number m.seasonNumber))
  · exact (number_inj heq).trans h

/-- The first episode that is still to watch is a special where one is. -/
theorem specialsLast_iff : SpecialsLast t entry observedAt today nuvio ↔
    NoEarlySpecial t entry observedAt today nuvio := by
  refine forall_congr' fun hseries ↦ ?_
  constructor
  · rintro h ⟨m, hnext, hnot⟩ hshown
    have hrecord : localResumeRecord t entry observedAt today = _ :=
      localResumeRecord_of_isNext hseries hnext
    rw [localPosition_of_not_taken hnot] at hrecord
    by_cases hspecial : ∀ m ∈ releasedEpisodes t entry.media today, m.Special → m.id ∈ t.completed
    · exact .inl hspecial
    · simp only [not_forall] at hspecial
      obtain ⟨s, hs, hzero, hunwatched⟩ := hspecial
      have hle := position_le_of_queueOrder (hnext.2.2 s hs (.inl hunwatched))
      refine .inr (h _ hrecord rfl (fun hbegun ↦ hshown ⟨hbegun.1, of_decide_eq_true hbegun.2⟩) ?_)
      exact special_of_position_le hzero hle
  · intro h record hrecord hsynthetic hshown hspecial
    obtain ⟨m, hnext, -⟩ := exists_isNext fun hnil ↦ by
      rw [localResumeRecord_of_nil hseries hnil] at hrecord
      exact absurd hrecord.symm (Option.some_ne_none record)
    rw [localResumeRecord_of_isNext hseries hnext] at hrecord
    obtain rfl := Option.some.inj hrecord
    have hnot (p : PlaybackProgress) (hp : Taken t entry observedAt m p) : False := by
      rw [localPosition_of_taken hp] at hsynthetic
      exact Bool.noConfusion hsynthetic
    obtain hwatched | hall := h ⟨m, hnext, hnot⟩ fun hbegun ↦
      hshown ⟨hbegun.1, decide_eq_true hbegun.2⟩
    · obtain hunwatched | hall := hnext.2.1
      · exact absurd (hwatched m hnext.1 hspecial) hunwatched
      · exact fun m' hm' _ ↦ hall m' hm'
    · exact hall

/-- Whenever the full push goes out, the queued action agrees with it on exactly these inputs. -/
theorem resumes_agree_iff (he : entry ∈ t.watching)
    (h : buildProgressItems t today nuvio remap = .ok items) :
    (PublishesSame t entry observedAt today nuvio items ∧
        SpecialsLast t entry observedAt today nuvio) ↔
      Alike t entry observedAt today nuvio ∧ NoEarlySpecial t entry observedAt today nuvio := by
  unfold buildProgressItems at h
  split_ifs at h
  obtain rfl := Except.ok.inj h
  rw [publishesSame_iff he, specialsLast_iff]

end agreement

/-- A watching series of which the second of two unwatched episodes is under way. -/
def secondUnderWay : TrackedEntry × Tables :=
  let series : Media := ⟨1, .series, some 10, none, none, none, none, none⟩
  let entry : TrackedEntry := ⟨series, some 0⟩
  (entry,
    { media := [series, ⟨2, .episode, none, none, some 1, some 1, some 1, none⟩,
        ⟨3, .episode, none, none, some 1, some 1, some 2, none⟩]
      shows := [⟨1, some 10, some "tt1".toList⟩]
      watching := [entry]
      completed := []
      progress := fun id ↦ if id = 3 then some ⟨600, 1 / 2, some 5⟩ else none
      ids := by decide
      titles := by decide
      showIds := by decide
      showTitles := by decide
      entries := by decide
      tracked := by decide })

theorem resumes_agree_iff_secondUnderWay :
    (PublishesSame secondUnderWay.2 secondUnderWay.1 9 [] false
        (progressItems secondUnderWay.2 [] false fun _ _ id ↦ id) ∧
      SpecialsLast secondUnderWay.2 secondUnderWay.1 9 [] false) ↔
    Alike secondUnderWay.2 secondUnderWay.1 9 [] false ∧
      NoEarlySpecial secondUnderWay.2 secondUnderWay.1 9 [] false :=
  resumes_agree_iff List.mem_cons_self (if_pos (by decide +kernel))

/-- The full push resumes the second episode at ten minutes, the queued action seeds the first. -/
theorem later_resume_passed_over :
    (buildProgressItems secondUnderWay.2 [] false fun _ _ id ↦ id) =
        .ok (progressItems secondUnderWay.2 [] false fun _ _ id ↦ id) ∧
      ((progressItems secondUnderWay.2 [] false fun _ _ id ↦ id).map fun item ↦
        ((item.2.season, item.2.episode), item.2.position)) = [((some 1, some 2), 600000)] ∧
      queuedResume secondUnderWay.2 secondUnderWay.1 9 [] false =
        some ((some 1, some 1), 1000) ∧
      ¬PublishesSame secondUnderWay.2 secondUnderWay.1 9 [] false
        (progressItems secondUnderWay.2 [] false fun _ _ id ↦ id) := by
  have hqueued : queuedResume secondUnderWay.2 secondUnderWay.1 9 [] false =
      some ((some 1, some 1), 1000) := by decide +kernel
  have hitems : ((progressItems secondUnderWay.2 [] false fun _ _ id ↦ id).map fun item ↦
      ((item.2.season, item.2.episode), item.2.position)) = [((some 1, some 2), 600000)] := by
    decide +kernel
  refine ⟨if_pos (by decide +kernel), hitems, hqueued, fun h ↦ ?_⟩
  obtain ⟨item, hitem, -, heq⟩ := (h ((some 1, some 1), 1000)).mpr hqueued
  have hmem := List.mem_map_of_mem (f := fun item : Media × Item ↦
    ((item.2.season, item.2.episode), item.2.position)) hitem
  rw [hitems, ← heq] at hmem
  exact absurd hmem (by decide)

end AnyList.Delivery.LocalResumes
