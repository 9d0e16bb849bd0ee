import AnyList.Delivery.LocalResumes

namespace AnyList.Delivery.LocalResumes

open AnyList.Library AnyList.Library.Members

variable (t : Tables)

section published

def trackedShows : List Show :=
  t.shows.filter fun show' ↦ show'.tmdbId.isSome && t.watching.any fun entry ↦
    decide (entry.media.mediaType = .series ∧ entry.media.tmdbId = show'.tmdbId)

/-- The entry `show_id_to_entry` has for a show. -/
def showEntry (showId : ℕ) : Option TrackedEntry :=
  ((trackedShows t).find? fun show' ↦ decide (show'.id = showId)).bind fun show' ↦
    (t.watching.filter fun entry ↦
      decide (entry.media.mediaType = .series ∧ entry.media.tmdbId = show'.tmdbId)).getLast?

def candidates : List Media :=
  t.media.filter fun m ↦
    (t.watching.any fun entry ↦ decide (entry.media.id = m.id)) ||
      decide (m.mediaType = .episode) && m.showId.any fun id ↦ (showEntry t id).isSome

def owner (m : Media) : Option TrackedEntry :=
  (t.watching.find? fun entry ↦ decide (entry.media.id = m.id)).or (m.showId.bind (showEntry t))

def freshFor (progress : PlaybackProgress) (entry : TrackedEntry) : Bool :=
  match entry.statusChangedAt with
  | none => true
  | some changedAt => progress.updatedAt.any fun at' ↦ decide (changedAt ≤ at')

def freshProgress (m : Media) : Option PlaybackProgress :=
  (t.progress m.id).filter fun progress ↦ (owner t m).any (freshFor progress)

/-- What `progress_item` reads of a playback row, or of a synthetic one. -/
structure Row where
  progressSeconds : ℤ
  progressPercent : ℚ

def PlaybackProgress.row (progress : PlaybackProgress) : Row :=
  ⟨progress.progressSeconds, progress.progressPercent⟩

def synthetic : Row := ⟨1, 1 / 100⟩

def freshRows : Dict ℕ Row :=
  Dict.empty.setAll ((candidates t).filterMap fun m ↦
    (freshProgress t m).map fun progress ↦ (m.id, progress.row))

def showEpisodes (show' : Show) : List Media := ordered position (episodesOf t [show'.id])

/-- The double 0.95. -/
def finishedPercent : ℚ := 4278419646001971 / 4503599627370496

def isActive (m : Media) : Bool :=
  decide (m.id ∉ t.completed) &&
    (freshProgress t m).any fun progress ↦ decide (progress.progressPercent < finishedPercent)

def activityTime (m : Media) : ℤ := ((freshProgress t m).bind PlaybackProgress.updatedAt).getD 0

def seriesResume (nextUp : Bool) (released : List Media) : Option (ℕ × Row) :=
  match firstMax (activityTime t) (released.filter (isActive t)) with
  | some target => (freshProgress t target).map fun progress ↦ (target.id, progress.row)
  | none =>
    if nextUp ∧ (released.any fun m ↦ decide (m.id ∈ t.completed)) then none
    else (nextEpisode t released).map fun target ↦ (target.id, synthetic)

def showOfEntry (entry : TrackedEntry) : Option Show :=
  (trackedShows t).find? fun show' ↦ decide (show'.tmdbId = entry.media.tmdbId)

variable (today : Text) (nextUp : Bool)

def publishEntry (rows : Dict ℕ Row) (entry : TrackedEntry) : Dict ℕ Row :=
  match entry.media.mediaType with
  | .series =>
    match showOfEntry t entry with
    | none => rows
    | some show' =>
      let released := (showEpisodes t show').filter (isReleased today)
      if released.isEmpty then rows
      else
        let others := rows.filterKeys fun id ↦ decide (id ∉ (showEpisodes t show').map Media.id)
        match seriesResume t nextUp released with
        | none => others
        | some (id, row) => others.set id row
  | _ =>
    if (freshProgress t entry.media).isSome then rows else rows.set entry.media.id synthetic

def progressByMedia : Dict ℕ Row := t.watching.foldl (publishEntry t today nextUp) (freshRows t)

structure Item where
  contentId : Text
  season : Option ℕ
  episode : Option ℕ
  position : ℤ

def progressItem (row : Row) (m : Media) (show' : Option Show) : Option Item :=
  if max 0 row.progressSeconds ≤ 0 ∨ row.progressPercent ≤ 0 then none
  else
    match m.mediaType with
    | .movie => m.imdbId.map fun id ↦ ⟨id, none, none, max 0 row.progressSeconds * 1000⟩
    | .episode =>
      (show'.bind Show.imdbId).bind fun id ↦ m.seasonNumber.bind fun season ↦
        m.episodeNumber.map fun episode ↦
          ⟨id, some season, some episode, max 0 row.progressSeconds * 1000⟩
    | .series => none

def showOf (m : Media) : Option Show :=
  m.showId.bind fun id ↦ t.shows.find? fun show' ↦ decide (show'.id = id)

variable (remap : Media → Option Show → Text → Text)

/-- The items of the playback rows, each with the row it is made for. The baseline's content id of
a title replaces its own. -/
def progressItems : List (Media × Item) :=
  (progressByMedia t today nextUp).entries.filterMap fun entry ↦
    (t.media.find? fun m ↦ decide (m.id = entry.1)).bind fun m ↦
      (progressItem entry.2 m (showOf t m)).map fun item ↦
        (m, { item with contentId := remap m (showOf t m) item.contentId })

def contentId (entry : TrackedEntry) : Option Text :=
  ((if entry.media.mediaType = .series then (showOfEntry t entry).bind Show.imdbId else none).or
    entry.media.imdbId).map (remap entry.media none)

def hasWatchedHistory (entry : TrackedEntry) : Bool :=
  decide (entry.media.mediaType = .series) && (showOfEntry t entry).any fun show' ↦
    ((showEpisodes t show').filter (isReleased today)).any fun m ↦ decide (m.id ∈ t.completed)

def missing : List TrackedEntry :=
  t.watching.filter fun entry ↦ (contentId t remap entry).all fun id ↦
    !((progressItems t today nextUp remap).any fun item ↦ decide (item.2.contentId = id)) &&
      !(nextUp && hasWatchedHistory t today entry)

/-- `build_progress_items`. -/
def buildProgressItems : Except (List TrackedEntry) (List (Media × Item)) :=
  if (missing t today nextUp remap).isEmpty then .ok (progressItems t today nextUp remap)
  else .error (missing t today nextUp remap)

end published

variable {t} {entry entry' : TrackedEntry} {show' : Show} {m : Media} {today : Text} {nuvio : Bool}
  {p : PlaybackProgress} {id : ℕ} {rows : Dict ℕ Row} {row : Row}

section owners

variable (he : entry ∈ t.watching)

include he

theorem owner_self : owner t entry.media = some entry := by
  have hfind : (t.watching.find? fun other ↦ decide (other.media.id = entry.media.id)) =
      some entry :=
    find?_eq_some_of_only he (decide_eq_true rfl) fun other hother h ↦
      t.entry_eq hother he (of_decide_eq_true h)
  rw [owner, hfind, Option.some_or]

theorem showOfEntry_eq_some (hseries : entry.media.mediaType = .series) :
    showOfEntry t entry = some show' ↔
      show' ∈ t.shows ∧ show'.tmdbId = entry.media.tmdbId ∧ entry.media.tmdbId ≠ none := by
  have htracked (s : Show) (hs : s ∈ trackedShows t) : s ∈ t.shows ∧ s.tmdbId ≠ none := by
    obtain ⟨hs, hp⟩ := List.mem_filter.mp hs
    exact ⟨hs, Option.isSome_iff_ne_none.mp (Bool.and_eq_true_iff.mp hp).1⟩
  refine ⟨fun h ↦ ?_, fun ⟨hs, htmdb, hne⟩ ↦ ?_⟩
  · have hp := List.find?_some h
    have htmdb : show'.tmdbId = entry.media.tmdbId := of_decide_eq_true hp
    obtain ⟨hs, hne⟩ := htracked _ (List.mem_of_find?_eq_some h)
    exact ⟨hs, htmdb, htmdb ▸ hne⟩
  · have hmem : show' ∈ trackedShows t := by
      refine List.mem_filter.mpr ⟨hs, Bool.and_eq_true_iff.mpr ⟨?_, ?_⟩⟩
      · rw [htmdb]
        exact Option.isSome_iff_ne_none.mpr hne
      · exact List.any_eq_true.mpr ⟨entry, he, decide_eq_true ⟨hseries, htmdb.symm⟩⟩
    refine find?_eq_some_of_only hmem (decide_eq_true htmdb) fun s hs' hp ↦ ?_
    have heq : s.tmdbId = entry.media.tmdbId := of_decide_eq_true hp
    exact t.showTitles _ (htracked s hs').1 _ hs (heq.trans htmdb.symm) (htracked s hs').2

variable (hseries : entry.media.mediaType = .series) (hshow : showOfEntry t entry = some show')

include hseries hshow

theorem showEntry_eq : showEntry t show'.id = some entry := by
  obtain ⟨hs, htmdb, hne⟩ := (showOfEntry_eq_some he hseries).mp hshow
  have hfind : ((trackedShows t).find? fun other ↦ decide (other.id = show'.id)) = some show' :=
    find?_eq_some_of_only (List.mem_of_find?_eq_some hshow) (decide_eq_true rfl) fun other ho hid ↦
      List.inj_on_of_nodup_map t.showIds (List.mem_filter.mp ho).1 hs (of_decide_eq_true hid)
  rw [showEntry, hfind, Option.bind_some]
  cases hlast : (t.watching.filter fun other ↦ decide
      (other.media.mediaType = .series ∧ other.media.tmdbId = show'.tmdbId)).getLast? with
  | none =>
    have hin : entry ∈ t.watching.filter fun other ↦ decide
        (other.media.mediaType = .series ∧ other.media.tmdbId = show'.tmdbId) :=
      List.mem_filter.mpr ⟨he, decide_eq_true ⟨hseries, htmdb.symm⟩⟩
    rw [List.getLast?_eq_none_iff.mp hlast] at hin
    exact absurd hin List.not_mem_nil
  | some other =>
    obtain ⟨hother, hp⟩ := List.mem_filter.mp (List.mem_of_getLast? hlast)
    obtain ⟨htype, hother'⟩ := of_decide_eq_true hp
    have hmedia := t.titles _ (t.tracked _ hother).1 _ (t.tracked _ he).1
      (htype.trans hseries.symm) (hother'.trans htmdb) (by rw [hother', htmdb]; exact hne)
    rw [t.entry_eq hother he (congrArg Media.id hmedia)]

theorem owner_episode (hm : m ∈ episodesOf t [show'.id]) : owner t m = some entry := by
  obtain ⟨hmedia, htype, id, hid, hshowId⟩ := mem_episodesOf.mp hm
  have hnone : (t.watching.find? fun other ↦ decide (other.media.id = m.id)) = none := by
    refine List.find?_eq_none.mpr fun other hother heq ↦ ?_
    obtain ⟨hin, hne⟩ := t.tracked _ hother
    exact hne (t.eq_of_id hin hmedia (of_decide_eq_true heq) ▸ htype)
  rw [owner, hnone, Option.none_or, hshowId, List.mem_singleton.mp hid, Option.bind_some,
    showEntry_eq he hseries hshow]

end owners

theorem freshProgress_eq (h : owner t m = some entry) :
    freshProgress t m = (t.progress m.id).filter fun p ↦ freshFor p entry := by
  rw [freshProgress, h]
  rfl

theorem get_freshRows (hm : m ∈ candidates t) :
    (freshRows t).get m.id = (freshProgress t m).map PlaybackProgress.row := by
  have hsub (l : List Media) : ((l.filterMap fun m ↦ (freshProgress t m).map fun progress ↦
      (m.id, progress.row)).map Prod.fst).Sublist (l.map Media.id) := by
    induction l with
    | nil => exact .slnil
    | cons m l ih =>
      rw [List.filterMap_cons, List.map_cons]
      cases freshProgress t m with
      | none => exact ih.cons m.id
      | some p => exact ih.cons_cons m.id
  have hkeys := t.ids.sublist ((hsub (candidates t)).trans (List.filter_sublist.map Media.id))
  cases hrow : freshProgress t m with
  | some p =>
    exact Dict.get_setAll_of_mem hkeys (List.mem_filterMap.mpr ⟨m, hm, by rw [hrow]; rfl⟩) _
  | none =>
    refine Dict.get_setAll_of_notMem (fun h ↦ ?_) _
    obtain ⟨write, hwrite, hid⟩ := List.mem_map.mp h
    obtain ⟨other, hother, heq⟩ := List.mem_filterMap.mp hwrite
    obtain ⟨q, hq, rfl⟩ := Option.map_eq_some_iff.mp heq
    obtain rfl := t.eq_of_id (List.mem_filter.mp hother).1 (List.mem_filter.mp hm).1 hid
    rw [hrow] at hq
    exact absurd hq (by simp)

section steps

/-- The ids whose rows an entry of Continue Watching sets. -/
def Touches (t : Tables) (entry : TrackedEntry) (id : ℕ) : Prop :=
  if entry.media.mediaType = .series then
    ∃ show', showOfEntry t entry = some show' ∧ ∃ m ∈ episodesOf t [show'.id], m.id = id
  else entry.media.id = id

theorem exists_of_seriesResume {released : List Media}
    (h : seriesResume t nuvio released = some (id, row)) : ∃ m ∈ released, m.id = id := by
  unfold seriesResume at h
  split at h
  · next target htarget =>
    obtain ⟨p, -, heq⟩ := Option.map_eq_some_iff.mp h
    exact ⟨target, List.mem_of_mem_filter (mem_of_firstMax htarget), (Prod.mk.inj heq).1⟩
  · split_ifs at h
    obtain ⟨target, htarget, heq⟩ := Option.map_eq_some_iff.mp h
    obtain htarget | ⟨-, htarget⟩ := Option.or_eq_some_iff.mp htarget
    · exact ⟨target, List.mem_of_find?_eq_some htarget, (Prod.mk.inj heq).1⟩
    · exact ⟨target, List.mem_of_mem_head? htarget, (Prod.mk.inj heq).1⟩

theorem get_publishEntry_film (hfilm : entry.media.mediaType ≠ .series) :
    (publishEntry t today nuvio rows entry).get id =
      if (freshProgress t entry.media).isSome then rows.get id
      else if entry.media.id = id then some synthetic else rows.get id := by
  unfold publishEntry
  split
  · next hseries => exact absurd hseries hfilm
  · split
    · rfl
    · rw [Dict.get_set]

theorem publishEntry_none (hseries : entry.media.mediaType = .series)
    (hshow : showOfEntry t entry = none) : publishEntry t today nuvio rows entry = rows := by
  simp only [publishEntry, hseries, hshow]

theorem get_publishEntry_series (hseries : entry.media.mediaType = .series)
    (hshow : showOfEntry t entry = some show') :
    (publishEntry t today nuvio rows entry).get id =
      if ((showEpisodes t show').filter (isReleased today)).isEmpty then rows.get id
      else match seriesResume t nuvio ((showEpisodes t show').filter (isReleased today)) with
        | none => if id ∈ (showEpisodes t show').map Media.id then none else rows.get id
        | some (other, row) =>
          if other = id then some row
          else if id ∈ (showEpisodes t show').map Media.id then none else rows.get id := by
  simp only [publishEntry, hseries, hshow]
  split
  · rfl
  · cases seriesResume t nuvio ((showEpisodes t show').filter (isReleased today)) with
    | none => simp only [Dict.get_filterKeys, decide_not, Bool.not_eq_true',
        decide_eq_false_iff_not, ite_not]
    | some resume => simp only [Dict.get_set, Dict.get_filterKeys, decide_not, Bool.not_eq_true',
        decide_eq_false_iff_not, ite_not]

theorem get_publishEntry_of_not (h : ¬Touches t entry id) :
    (publishEntry t today nuvio rows entry).get id = rows.get id := by
  unfold Touches at h
  split_ifs at h with hseries
  · cases hshow : showOfEntry t entry with
    | none => rw [publishEntry_none hseries hshow]
    | some show' =>
      have hnotMem : id ∉ (showEpisodes t show').map Media.id := by
        intro hid
        obtain ⟨m, hm, rfl⟩ := List.mem_map.mp hid
        exact h ⟨show', hshow, m, mem_ordered.mp hm, rfl⟩
      rw [get_publishEntry_series hseries hshow]
      simp only [if_neg hnotMem]
      split
      · rfl
      · split
        · rfl
        · next other row hother =>
          obtain ⟨m, hm, rfl⟩ := exists_of_seriesResume hother
          have hne : m.id ≠ id :=
            fun heq ↦ hnotMem (List.mem_map.mpr ⟨m, List.mem_of_mem_filter hm, heq⟩)
          rw [if_neg hne]
  · rw [get_publishEntry_film hseries, if_neg h, ite_self]

theorem eq_of_touches (he : entry ∈ t.watching) (he' : entry' ∈ t.watching)
    (h : Touches t entry id) (h' : Touches t entry' id) : entry = entry' := by
  unfold Touches at h h'
  have htracked := t.tracked
  split_ifs at h h' with hseries hseries' hseries'
  · obtain ⟨s, hs, m, hm, rfl⟩ := h
    obtain ⟨s', hs', m', hm', hid⟩ := h'
    obtain ⟨hmedia, -, i, hi, hshowId⟩ := mem_episodesOf.mp hm
    obtain ⟨hmedia', -, i', hi', hshowId'⟩ := mem_episodesOf.mp hm'
    obtain rfl := t.eq_of_id hmedia hmedia' hid.symm
    obtain ⟨hmem, htmdb, hne⟩ := (showOfEntry_eq_some he hseries).mp hs
    obtain ⟨hmem', htmdb', -⟩ := (showOfEntry_eq_some he' hseries').mp hs'
    have hids : s.id = s'.id := by
      rw [← List.mem_singleton.mp hi, ← List.mem_singleton.mp hi']
      exact Option.some.inj (hshowId.symm.trans hshowId')
    obtain rfl := List.inj_on_of_nodup_map t.showIds hmem hmem' hids
    have hentries := t.titles _ (htracked _ he).1 _ (htracked _ he').1
      (hseries.trans hseries'.symm) (htmdb.symm.trans htmdb') hne
    exact t.entry_eq he he' (congrArg Media.id hentries)
  · obtain ⟨s, -, m, hm, hid⟩ := h
    obtain ⟨hmedia, htype, -⟩ := mem_episodesOf.mp hm
    have heq := t.eq_of_id (htracked _ he').1 hmedia (h'.trans hid.symm)
    exact absurd (heq ▸ htype) (htracked _ he').2
  · obtain ⟨s, -, m, hm, hid⟩ := h'
    obtain ⟨hmedia, htype, -⟩ := mem_episodesOf.mp hm
    have heq := t.eq_of_id (htracked _ he).1 hmedia (h.trans hid.symm)
    exact absurd (heq ▸ htype) (htracked _ he).2
  · exact t.entry_eq he he' (h.trans h'.symm)

/-- Only the title's own entry decides about its rows. -/
theorem get_progressByMedia (today : Text) (nuvio : Bool) (he : entry ∈ t.watching) (h : Touches t entry id) :
    ∃ rows : Dict ℕ Row, rows.get id = (freshRows t).get id ∧
      (progressByMedia t today nuvio).get id =
        (publishEntry t today nuvio rows entry).get id := by
  have huntouched (entries : List TrackedEntry) (rows : Dict ℕ Row)
      (hentries : ∀ other ∈ entries, ¬Touches t other id) :
      (entries.foldl (publishEntry t today nuvio) rows).get id = rows.get id := by
    induction entries generalizing rows with
    | nil => rfl
    | cons other entries ih =>
      rw [List.foldl_cons, ih _ fun o ho ↦ hentries o (List.mem_cons_of_mem other ho)]
      exact get_publishEntry_of_not (hentries other List.mem_cons_self)
  obtain ⟨before, after, hsplit⟩ := List.append_of_mem he
  have hnodup : (before ++ entry :: after).Nodup := hsplit ▸ (List.Nodup.of_map _ t.entries)
  have hother (other : TrackedEntry) (hmem : other ∈ before ∨ other ∈ after) :
      ¬Touches t other id := by
    intro htouch
    have hin : other ∈ t.watching := by
      rw [hsplit, List.mem_append, List.mem_cons]
      exact hmem.imp_right .inr
    obtain rfl := eq_of_touches hin he htouch h
    rw [List.nodup_append, List.nodup_cons] at hnodup
    obtain hmem | hmem := hmem
    · exact hnodup.2.2 _ hmem _ List.mem_cons_self rfl
    · exact hnodup.2.1.1 hmem
  refine ⟨before.foldl (publishEntry t today nuvio) (freshRows t),
    huntouched before _ fun o ho ↦ hother o (.inl ho), ?_⟩
  rw [progressByMedia, hsplit, List.foldl_append, List.foldl_cons]
  exact huntouched after _ fun o ho ↦ hother o (.inr ho)

end steps

section items

variable {remap : Media → Option Show → Text → Text} {resume : Place × ℤ}

/-- The title's own row, or the rows of its show's episodes. -/
def RowOf (t : Tables) (entry : TrackedEntry) (m : Media) : Prop :=
  if entry.media.mediaType = .series then
    m.mediaType = .episode ∧ ∃ show' ∈ t.shows, m.showId = some show'.id ∧
      show'.tmdbId = entry.media.tmdbId ∧ entry.media.tmdbId ≠ none
  else m = entry.media

/-- One of the items resumes the title at the place and the position. -/
def Published (t : Tables) (entry : TrackedEntry) (items : List (Media × Item))
    (resume : Place × ℤ) : Prop :=
  ∃ item ∈ items, RowOf t entry item.1 ∧
    resume = ((item.2.season, item.2.episode), item.2.position)

def Row.Started (row : Row) : Prop := 0 < row.progressSeconds ∧ 0 < row.progressPercent

/-- The rows that an item can be made for. -/
def Addressable (t : Tables) (m : Media) : Prop :=
  match m.mediaType with
  | .movie => m.imdbId ≠ none
  | .episode => (∃ show', showOf t m = some show' ∧ show'.imdbId ≠ none) ∧
      m.seasonNumber ≠ none ∧ m.episodeNumber ≠ none
  | .series => False

def Media.itemPlace (m : Media) : Place :=
  if m.mediaType = .movie then (none, none) else m.place

/-- A row of `m` that is not older than the last change of status. -/
def Fresh (t : Tables) (entry : TrackedEntry) (m : Media) (p : PlaybackProgress) : Prop :=
  t.progress m.id = some p ∧ freshFor p entry

theorem started_synthetic : synthetic.Started := ⟨by decide, by decide +kernel⟩

theorem exists_progressItem_iff : (∃ item, progressItem row m (showOf t m) = some item ∧
      resume = ((item.season, item.episode), item.position)) ↔
    row.Started ∧ Addressable t m ∧ resume = (m.itemPlace, row.progressSeconds * 1000) := by
  by_cases hstarted : row.Started
  · have hmax : max 0 row.progressSeconds = row.progressSeconds := max_eq_right hstarted.1.le
    have hnot : ¬(max 0 row.progressSeconds ≤ 0 ∨ row.progressPercent ≤ 0) := by
      rw [hmax, not_or, not_le, not_le]
      exact hstarted
    rw [progressItem, if_neg hnot, hmax]
    cases htype : m.mediaType with
    | movie =>
      cases himdb : m.imdbId <;> simp [Addressable, Media.itemPlace, htype, himdb, hstarted]
    | episode =>
      cases hshow : showOf t m with
      | none => simp [Addressable, htype, hshow]
      | some show' =>
        cases himdb : show'.imdbId <;> cases hseason : m.seasonNumber <;>
          cases hepisode : m.episodeNumber <;>
          simp [Addressable, Media.itemPlace, Media.place, htype, hshow, himdb, hseason, hepisode,
            hstarted]
    | series => simp [Addressable, htype]
  · have hnot : max 0 row.progressSeconds ≤ 0 ∨ row.progressPercent ≤ 0 := by
      by_contra h
      rw [not_or, not_le, not_le] at h
      exact hstarted ⟨by omega, h.2⟩
    rw [progressItem, if_pos hnot]
    simp [hstarted]

theorem published_iff : Published t entry (progressItems t today nuvio remap) resume ↔
    ∃ m ∈ t.media, RowOf t entry m ∧ ∃ row, (progressByMedia t today nuvio).get m.id = some row ∧
      row.Started ∧ Addressable t m ∧ resume = (m.itemPlace, row.progressSeconds * 1000) := by
  have hfind {m : Media} (hm : m ∈ t.media) :
      (t.media.find? fun other ↦ decide (other.id = m.id)) = some m :=
    find?_eq_some_of_only hm (decide_eq_true rfl) fun other hother h ↦
      t.eq_of_id hother hm (of_decide_eq_true h)
  constructor
  · rintro ⟨⟨m, item⟩, hitem, hrow, rfl⟩
    obtain ⟨⟨id, row⟩, hentry, hsome⟩ := List.mem_filterMap.mp hitem
    obtain ⟨other, hother, hsome⟩ := Option.bind_eq_some_iff.mp hsome
    obtain ⟨made, hmade, heq⟩ := Option.map_eq_some_iff.mp hsome
    obtain ⟨rfl, rfl⟩ := Prod.mk.inj heq
    have hp := List.find?_some hother
    have hid : other.id = id := of_decide_eq_true hp
    obtain ⟨hstarted, haddress, hresume⟩ := exists_progressItem_iff.mp ⟨made, hmade, rfl⟩
    exact ⟨other, List.mem_of_find?_eq_some hother, hrow, row,
      hid ▸ Dict.mem_entries.mp hentry, hstarted, haddress, hresume⟩
  · rintro ⟨m, hm, hrow, row, hget, hstarted, haddress, hresume⟩
    obtain ⟨made, hmade, hresume⟩ := exists_progressItem_iff.mpr ⟨hstarted, haddress, hresume⟩
    refine ⟨(m, { made with contentId := remap m (showOf t m) made.contentId }), ?_, hrow, hresume⟩
    refine List.mem_filterMap.mpr ⟨(m.id, row), Dict.mem_entries.mpr hget, ?_⟩
    rw [hfind hm, Option.bind_some, hmade, Option.map_some]

theorem freshProgress_eq_some (howner : owner t m = some entry) :
    freshProgress t m = some p ↔ Fresh t entry m p := by
  rw [freshProgress_eq howner, Option.filter_eq_some_iff]
  rfl

theorem freshProgress_eq_none (howner : owner t m = some entry) :
    freshProgress t m = none ↔ ∀ p, ¬Fresh t entry m p := by
  rw [Option.eq_none_iff_forall_not_mem]
  exact forall_congr' fun p ↦ not_congr (freshProgress_eq_some howner)

theorem mem_candidates_self (he : entry ∈ t.watching) : entry.media ∈ candidates t := by
  refine List.mem_filter.mpr ⟨(t.tracked _ he).1, ?_⟩
  rw [Bool.or_eq_true, List.any_eq_true]
  exact .inl ⟨entry, he, decide_eq_true rfl⟩

theorem published_film_iff (he : entry ∈ t.watching) (hfilm : entry.media.mediaType ≠ .series) :
    Published t entry (progressItems t today nuvio remap) resume ↔
      Addressable t entry.media ∧
        ((∃ p, Fresh t entry entry.media p ∧ p.row.Started ∧
          resume = (entry.media.itemPlace, p.progressSeconds * 1000)) ∨
        (∀ p, ¬Fresh t entry entry.media p) ∧ resume = (entry.media.itemPlace, 1000)) := by
  have htouch : Touches t entry entry.media.id := by
    rw [Touches, if_neg hfilm]
  obtain ⟨rows, hrows, hget⟩ := get_progressByMedia today nuvio he htouch
  rw [get_publishEntry_film hfilm, hrows, get_freshRows (mem_candidates_self he),
    if_pos rfl] at hget
  have howner := owner_self he
  have hself : ∀ m, RowOf t entry m ↔ m = entry.media := fun m ↦ by rw [RowOf, if_neg hfilm]
  rw [published_iff]
  cases hfresh : freshProgress t entry.media with
  | some p =>
    rw [hfresh] at hget
    have hp := (freshProgress_eq_some howner).mp hfresh
    constructor
    · rintro ⟨m, -, hrow, row, hrow', hstarted, haddress, hresume⟩
      obtain rfl := (hself m).mp hrow
      obtain rfl := Option.some.inj (hget.symm.trans hrow')
      exact ⟨haddress, .inl ⟨p, hp, hstarted, hresume⟩⟩
    · rintro ⟨haddress, ⟨q, hq, hstarted, hresume⟩ | ⟨hnone, -⟩⟩
      · obtain rfl := Option.some.inj (hp.1.symm.trans hq.1)
        exact ⟨_, (t.tracked _ he).1, (hself _).mpr rfl, p.row, hget, hstarted, haddress, hresume⟩
      · exact absurd hp (hnone p)
  | none =>
    rw [hfresh] at hget
    have hnone := (freshProgress_eq_none howner).mp hfresh
    constructor
    · rintro ⟨m, -, hrow, row, hrow', -, haddress, hresume⟩
      obtain rfl := (hself m).mp hrow
      obtain rfl := Option.some.inj (hget.symm.trans hrow')
      exact ⟨haddress, .inr ⟨hnone, hresume⟩⟩
    · rintro ⟨haddress, ⟨q, hq, -⟩ | ⟨-, hresume⟩⟩
      · exact absurd hq (hnone q)
      · exact ⟨_, (t.tracked _ he).1, (hself _).mpr rfl, synthetic, hget, started_synthetic,
          haddress, hresume⟩

end items

end AnyList.Delivery.LocalResumes
