import AnyList.Streaming.ImportedProgress

namespace AnyList.Streaming

open AnyList.Library
open AnyList.Reconciliation.Watches (Status)

/-- A catalogue that counts the progress of each series by `released`. -/
structure Catalogue.Counts (cat : Catalogue) (released : ℕ → List Episode) : Prop where
  agrees : cat.Agrees
  siblings : ∀ mediaId episodes title, cat.siblings mediaId = some episodes →
    cat.titleOf mediaId = some title → episodes = released title
  known : ∀ title, ∀ episode ∈ released title, cat.titleOf episode.mediaId = some title ∧
    (cat.siblings episode.mediaId).isSome = true
  nodup : ∀ title, ((released title).map Episode.mediaId).Nodup

/-- A series that an import would add. -/
structure IsNew (cat : Catalogue) (t : Tracking) (media : Media) : Prop where
  listed : cat.byId media.id = some media
  series : media.kind = .series
  entry : t.entries.get media.id = none

/-- An import that only adds, counts the progress of new series by their first episodes, completes
them with all of these, and is done at once. -/
structure OnlyAdds (cat : Catalogue) (released : ℕ → List Episode) (deleted : ℕ → Bool)
    (t t' : Tracking) : Prop where
  tombstones : ∀ title, deleted title = true → t'.entries.get title = t.entries.get title
  existing : ∀ title entry, t.entries.get title = some entry → t'.entries.get title = some entry
  progress : ∀ media entry, IsNew cat t media → t'.entries.get media.id = some entry →
    ∀ (i : ℕ) episode, (released media.id)[i]? = some episode →
      (t'.isWatched episode.mediaId = true ↔ i < entry.progress)
  completed : ∀ media entry, IsNew cat t media → t'.entries.get media.id = some entry →
    entry.status = .completed →
      ∀ episode ∈ released media.id, t'.isWatched episode.mediaId = true
  again : ∀ now, importTrackingHistory cat now deleted t' = (t', [])

/-- Each series that would be added for completed viewing has some of its released regular
episodes watched, or has none of them. -/
def RegularlyWatched (cat : Catalogue) (released : ℕ → List Episode) (deleted : ℕ → Bool)
    (t : Tracking) : Prop :=
  ∀ media, IsNew cat t media → deleted media.id = false →
    (∃ play ∈ t.plays, play.completed = true ∧ cat.titleOf play.mediaId = some media.id) →
      released media.id = [] ∨ ∃ episode ∈ released media.id, t.isWatched episode.mediaId = true

section counts

variable {cat : Catalogue} {released : ℕ → List Episode} {deleted : ℕ → Bool} {now : Int}
  {t : Tracking} {title : ℕ} {e : Evidence} {media : Media} {episode : Episode}

theorem isWatched_iff {mediaId : ℕ} : t.isWatched mediaId = true ↔
    ∃ play ∈ t.plays, play.mediaId = mediaId ∧ play.completed = true := by
  simp only [Tracking.isWatched, List.any_eq_true, Bool.and_eq_true, decide_eq_true_eq]

section evidence

variable (hcat : cat.Counts released) (hfiled : ∀ mediaId ∈ e.watched,
  cat.titleOf mediaId = some title)

include hcat hfiled

theorem countedEpisodes_eq : countedEpisodes cat e = released title ∨
    countedEpisodes cat e = [] := by
  unfold countedEpisodes
  cases hfound : e.watched.findSome? cat.siblings with
  | none => exact .inr rfl
  | some episodes =>
    obtain ⟨mediaId, hmem, hsiblings⟩ := List.exists_of_findSome?_eq_some hfound
    exact .inl (hcat.siblings mediaId episodes title hsiblings (hfiled mediaId hmem))

theorem countedEpisodes_of_watched (hmem : episode ∈ released title)
    (hwatched : episode.mediaId ∈ e.watched) : countedEpisodes cat e = released title := by
  refine (countedEpisodes_eq hcat hfiled).resolve_right fun hnil ↦ ?_
  have hsome := (hcat.known title episode hmem).2
  unfold countedEpisodes at hnil
  cases hfound : e.watched.findSome? cat.siblings with
  | none =>
    rw [List.findSome?_eq_none_iff.mp hfound _ hwatched] at hsome
    cases hsome
  | some episodes =>
    obtain ⟨mediaId, hmedia, hsiblings⟩ := List.exists_of_findSome?_eq_some hfound
    rw [hfound] at hnil
    obtain rfl : episodes = [] := hnil
    rw [← hcat.siblings mediaId [] title hsiblings (hfiled mediaId hmedia)] at hmem
    cases hmem

/-- Nothing is filled in, and nothing reached, before a regular episode is watched. -/
theorem reached_countedEpisodes (h : ∀ episode ∈ released title, episode.mediaId ∉ e.watched) :
    reached e (countedEpisodes cat e) = 0 := by
  have hnone : ¬ 0 < reached e (countedEpisodes cat e) := by
    rw [reached_pos]
    rintro ⟨episode, hmem, hwatched⟩
    obtain heq | heq := countedEpisodes_eq hcat hfiled
    · exact h episode (heq ▸ hmem) hwatched
    · rw [heq] at hmem
      cases hmem
  omega

end evidence

section runs

theorem titles_collectEvidence_not_deleted
    (h : (collectEvidence cat (dropDeleted cat deleted t)).get title = some e) :
    deleted title = false := by
  obtain ⟨play, hmem, htitle⟩ | ⟨mediaId, hmem, htitle⟩ | hmem :=
    isSome_collectEvidence.mp (Option.isSome_iff_exists.mpr ⟨e, h⟩)
  · simpa [htitle] using (List.mem_filter.mp hmem).2
  · simpa [htitle] using (List.mem_filter.mp hmem).2
  · simpa using (List.mem_filter.mp hmem).2

theorem get_importTrackingHistory_of_none
    (h : (collectEvidence cat (dropDeleted cat deleted t)).get title = none) :
    (importTrackingHistory cat now deleted t).1.entries.get title = t.entries.get title := by
  refine get_foldl_importStep_of_notMem fun hmem ↦ ?_
  obtain ⟨e, he⟩ := Dict.mem_keys.mp hmem
  rw [h] at he
  cases he

theorem get_importTrackingHistory_of_new
    (h : (collectEvidence cat (dropDeleted cat deleted t)).get media.id = some e)
    (hnew : IsNew cat t media) :
    (importTrackingHistory cat now deleted t).1.entries.get media.id =
      some (newEntry cat now media e) :=
  get_foldl_importStep_of_new (Dict.mem_entries.mpr h) (Dict.nodup _) hnew.entry hnew.listed

/-- What is watched of a new series after an import: what was, and what is filled in. -/
theorem isWatched_importTrackingHistory (hcat : cat.Counts released) (hnew : IsNew cat t media)
    (h : (collectEvidence cat (dropDeleted cat deleted t)).get media.id = some e)
    (hmem : episode ∈ released media.id) :
    (importTrackingHistory cat now deleted t).1.isWatched episode.mediaId = true ↔
      episode.mediaId ∈ e.watched ∨
        ∃ fill ∈ fillIns now e (countedEpisodes cat e), fill.1.mediaId = episode.mediaId := by
  have htitle := (hcat.known media.id episode hmem).1
  have hplays (play : Play) : play ∈ (importTrackingHistory cat now deleted t).1.plays ↔ _ :=
    mem_plays_foldl_importStep (Dict.nodup _)
  rw [isWatched_iff]
  simp only [hplays]
  rw [mem_watched_collectEvidence h]
  constructor
  · rintro ⟨play, hplay | ⟨item, hitem, other, -, hother, hplay⟩, hid, hcompleted⟩
    · exact .inl ⟨play, hplay, hid ▸ htitle, hcompleted, hid⟩
    · have hget := Dict.mem_entries.mp hitem
      have hfiled := filed_collectEvidence cat (dropDeleted cat deleted t) item.1 item.2 hget
      unfold newPlays at hplay
      split at hplay
      · cases hplay
      · obtain ⟨fill, hfill, rfl⟩ := List.mem_map.mp hplay
        have hcounted := mem_of_mem_fillIns hfill
        have hsame : item.1 = media.id := by
          obtain heq | heq := countedEpisodes_eq hcat hfiled
          · have hfill' := (hcat.known item.1 fill.1 (heq ▸ hcounted)).1
            rw [show fill.1.mediaId = episode.mediaId from hid, htitle] at hfill'
            exact (Option.some.inj hfill').symm
          · rw [heq] at hcounted
            cases hcounted
        rw [hsame] at hget
        obtain rfl : e = item.2 := Option.some.inj (h.symm.trans hget)
        exact .inr ⟨fill, hfill, hid⟩
  · rintro (⟨play, hplay, -, hcompleted, hid⟩ | ⟨fill, hfill, hid⟩)
    · exact ⟨play, .inl hplay, hid, hcompleted⟩
    · refine ⟨filledPlay now fill, .inr ⟨(media.id, e), Dict.mem_entries.mpr h, media, hnew.entry,
        hnew.listed, ?_⟩, hid, rfl⟩
      rw [newPlays, hnew.series]
      exact List.mem_map_of_mem hfill

theorem newEntry_progress (hseries : media.kind = .series) :
    (newEntry cat now media e).progress = if 0 < reached e (countedEpisodes cat e) then
      reached e (countedEpisodes cat e) else e.watched.dedup.length := by
  rw [newEntry, hseries]
  rfl

theorem complete_of_observedStatus {complete playing : Bool}
    (h : observedStatus none complete playing = .completed) : complete = true := by
  cases complete with
  | true => rfl
  | false => cases playing <;> cases h

theorem status_newEntry (hseries : media.kind = .series)
    (h : (newEntry cat now media e).status = .completed) :
    countedEpisodes cat e ≠ [] ∧
      (newEntry cat now media e).progress = (countedEpisodes cat e).length := by
  rw [newEntry_progress hseries]
  rw [newEntry, hseries] at h
  have hcomplete := complete_of_observedStatus h
  rw [Bool.and_eq_true, decide_eq_true_eq] at hcomplete
  exact hcomplete.2

theorem exists_evidence {entry : TrackedEntry} (hnew : IsNew cat t media)
    (h : (importTrackingHistory cat now deleted t).1.entries.get media.id = some entry) :
    ∃ e, (collectEvidence cat (dropDeleted cat deleted t)).get media.id = some e ∧
      entry = newEntry cat now media e := by
  cases hget : (collectEvidence cat (dropDeleted cat deleted t)).get media.id with
  | none =>
    rw [get_importTrackingHistory_of_none hget, hnew.entry] at h
    cases h
  | some e =>
    rw [get_importTrackingHistory_of_new hget hnew] at h
    exact ⟨e, rfl, (Option.some.inj h).symm⟩

/-- A play of a title that is not deleted outlives the deletions. -/
theorem mem_plays_dropDeleted {play : Play} (hplay : play ∈ t.plays)
    (htitle : cat.titleOf play.mediaId = some title) (h : deleted title = false) :
    play ∈ (dropDeleted cat deleted t).plays := by
  refine List.mem_filter.mpr ⟨hplay, ?_⟩
  simp [htitle, h]

end runs

section claim

variable (hcat : cat.Counts released)

include hcat

/-- An import gives a new series a progress that its first episodes agree with, where one of its
regular episodes is watched or none is completed or known. -/
theorem progress_of_regularlyWatched (hnew : IsNew cat t media)
    (hget : (collectEvidence cat (dropDeleted cat deleted t)).get media.id = some e)
    (h : released media.id = [] ∨ (∃ episode ∈ released media.id, episode.mediaId ∈ e.watched) ∨
      e.watched = []) {i : ℕ} (hi : (released media.id)[i]? = some episode) :
    (importTrackingHistory cat now deleted t).1.isWatched episode.mediaId = true ↔
      i < (newEntry cat now media e).progress := by
  have hfiled := filed_collectEvidence cat (dropDeleted cat deleted t) media.id e hget
  have hmem := List.mem_of_getElem? hi
  rw [isWatched_importTrackingHistory hcat hnew hget hmem, newEntry_progress hnew.series]
  obtain hnil | ⟨watched, hreleased, hwatched⟩ | hnone := h
  · rw [hnil] at hmem
    cases hmem
  · have heq := countedEpisodes_of_watched hcat hfiled hreleased hwatched
    have hpos : 0 < reached e (countedEpisodes cat e) := by
      rw [heq]
      exact reached_pos.mpr ⟨watched, hreleased, hwatched⟩
    rw [if_pos hpos, heq]
    exact watched_or_filled_iff (hcat.nodup media.id) hi
  · have hcounted : countedEpisodes cat e = [] := by
      rw [countedEpisodes, hnone]
      rfl
    rw [hcounted, hnone]
    exact iff_of_false (by simp [fillIns]) (by simp [reached])

theorem watched_of_isWatched (hmem : episode ∈ released title) (hdeleted : deleted title = false)
    (hget : (collectEvidence cat (dropDeleted cat deleted t)).get title = some e) :
    episode.mediaId ∈ e.watched ↔ t.isWatched episode.mediaId = true := by
  have htitle := (hcat.known title episode hmem).1
  rw [mem_watched_collectEvidence hget, isWatched_iff]
  constructor
  · rintro ⟨play, hplay, -, hcompleted, hid⟩
    exact ⟨play, List.mem_of_mem_filter hplay, hid, hcompleted⟩
  · rintro ⟨play, hplay, hid, hcompleted⟩
    rw [← hid] at htitle
    exact ⟨play, mem_plays_dropDeleted hplay htitle hdeleted, htitle, hcompleted, hid⟩

theorem importTrackingHistory_only_adds : OnlyAdds cat released deleted t
      (importTrackingHistory cat now deleted t).1 ↔ RegularlyWatched cat released deleted t := by
  constructor
  · intro h media hnew hdeleted ⟨play, hplay, hcompleted, htitle⟩
    by_contra hnot
    obtain ⟨hne, hunwatched⟩ := not_or.mp hnot
    have hkept := mem_plays_dropDeleted hplay htitle hdeleted
    obtain ⟨e, hget⟩ := Option.isSome_iff_exists.mp
      (isSome_collectEvidence.mpr (.inl ⟨play, hkept, htitle⟩))
    have hfiled := filed_collectEvidence cat (dropDeleted cat deleted t) media.id e hget
    have hwatched : play.mediaId ∈ e.watched :=
      (mem_watched_collectEvidence hget).mpr ⟨play, hkept, htitle, hcompleted, rfl⟩
    have hnone : ∀ episode ∈ released media.id, episode.mediaId ∉ e.watched :=
      fun episode hmem hmem' ↦
        hunwatched ⟨episode, hmem, (watched_of_isWatched hcat hmem hdeleted hget).mp hmem'⟩
    have hreached := reached_countedEpisodes hcat hfiled hnone
    obtain ⟨first, rest, hfirst⟩ := List.exists_cons_of_ne_nil hne
    have hi : (released media.id)[0]? = some first := by
      rw [hfirst]
      rfl
    have hpos : 0 < (newEntry cat now media e).progress := by
      rw [newEntry_progress hnew.series, if_neg (by omega)]
      exact List.length_pos_of_mem (List.mem_dedup.mpr hwatched)
    have hlaw := (h.progress media _ hnew (get_importTrackingHistory_of_new hget hnew) 0 first
      hi).mpr hpos
    have hmem := List.mem_of_getElem? hi
    rw [isWatched_importTrackingHistory hcat hnew hget hmem] at hlaw
    obtain heq | heq := countedEpisodes_eq hcat hfiled
    · rw [heq] at hreached hlaw
      rw [watched_or_filled_iff (hcat.nodup media.id) hi] at hlaw
      omega
    · rw [heq] at hlaw
      refine hlaw.elim (hnone first hmem) ?_
      simp [fillIns]
  · intro h
    have hcases {media : Media} {e : Evidence} (hnew : IsNew cat t media)
        (hget : (collectEvidence cat (dropDeleted cat deleted t)).get media.id = some e) :
        released media.id = [] ∨
          (∃ episode ∈ released media.id, episode.mediaId ∈ e.watched) ∨ e.watched = [] := by
      have hdeleted := titles_collectEvidence_not_deleted hget
      by_cases hnone : e.watched = []
      · exact .inr (.inr hnone)
      · obtain ⟨mediaId, hmem⟩ := List.exists_mem_of_ne_nil _ hnone
        obtain ⟨play, hplay, htitle, hcompleted, -⟩ := (mem_watched_collectEvidence hget).mp hmem
        refine (h media hnew hdeleted
          ⟨play, List.mem_of_mem_filter hplay, hcompleted, htitle⟩).imp_right fun hwatched ↦ ?_
        obtain ⟨episode, hreleased, hwatched⟩ := hwatched
        exact .inl ⟨episode, hreleased, (watched_of_isWatched hcat hreleased hdeleted hget).mpr
          hwatched⟩
    refine ⟨fun title hdeleted ↦ ?_, fun title entry hentry ↦ ?_,
      fun media entry hnew hentry i episode hi ↦ ?_,
      fun media entry hnew hentry hstatus episode hmem ↦ ?_, fun now' ↦ ?_⟩
    · cases hget : (collectEvidence cat (dropDeleted cat deleted t)).get title with
      | none => exact get_importTrackingHistory_of_none hget
      | some e =>
        rw [titles_collectEvidence_not_deleted hget] at hdeleted
        cases hdeleted
    · exact get_foldl_importStep_of_some hentry
    · obtain ⟨e, hget, rfl⟩ := exists_evidence hnew hentry
      exact progress_of_regularlyWatched hcat hnew hget (hcases hnew hget) hi
    · obtain ⟨e, hget, rfl⟩ := exists_evidence hnew hentry
      obtain ⟨i, hi⟩ := List.getElem?_of_mem hmem
      obtain ⟨hne, hall⟩ := status_newEntry hnew.series hstatus
      have hfiled := filed_collectEvidence cat (dropDeleted cat deleted t) media.id e hget
      have hcounted := (countedEpisodes_eq hcat hfiled).resolve_right hne
      rw [progress_of_regularlyWatched hcat hnew hget (hcases hnew hget) hi, hall, hcounted]
      exact (List.getElem?_eq_some_iff.mp hi).1
    · exact importTrackingHistory_of_imported (imported_importTrackingHistory hcat.agrees t)

end claim

end counts

section tables

variable {tables : Tables} {today : String} {rows : List MediaRow} {row : MediaRow}
  {episode : Episode} {title : ℕ}

theorem Tables.row_of_mem (h : row ∈ tables.media) : tables.row row.id = some row := by
  unfold Tables.row
  cases hfind : tables.media.find? fun other ↦ decide (other.id = row.id) with
  | none => simpa using List.find?_eq_none.mp hfind row h
  | some other =>
    have hid : other.id = row.id := by simpa using List.find?_some hfind
    rw [List.inj_on_of_nodup_map tables.nodup (List.mem_of_find?_eq_some hfind) h hid]

theorem Tables.of_row {id : ℕ} (h : tables.row id = some row) : row ∈ tables.media ∧ row.id = id :=
  ⟨List.mem_of_find?_eq_some h, by simpa using List.find?_some h⟩

theorem MediaRow.mediaId_toEpisode (row : MediaRow) : row.toEpisode.mediaId = row.id := by
  unfold MediaRow.toEpisode
  cases row.kind <;> rfl

theorem Tables.mem_ordered : episode ∈ Tables.ordered rows ↔
    ∃ row ∈ rows, row.toEpisode = episode := by
  rw [Tables.ordered, List.mem_map]
  simp only [List.mem_insertionSort]

theorem Tables.nodup_ordered {p : MediaRow → Bool} :
    ((Tables.ordered (tables.media.filter p)).map Episode.mediaId).Nodup := by
  have hids : (Tables.ordered (tables.media.filter p)).map Episode.mediaId =
      ((tables.media.filter p).insertionSort fun a b ↦ a.position ≤ b.position).map
        MediaRow.id := by
    rw [Tables.ordered, List.map_map]
    exact List.map_congr_left fun row _ ↦ row.mediaId_toEpisode
  rw [hids]
  refine (((List.perm_insertionSort _ _).map MediaRow.id).nodup_iff).mpr ?_
  exact tables.nodup.sublist (List.filter_sublist.map _)

/-- The show of an episode that is filed under a series. -/
theorem exists_show (hregular : row.isReleasedRegular today = true)
    (h : parent tables.media tables.shows row = some title) :
    ∃ show' ∈ tables.shows, row.showId = some show'.id ∧
      seriesOfShow tables.media show' = some title := by
  obtain ⟨id, tmdbId, tvdbId, kind, date, refreshed⟩ := row
  cases kind with
  | episode showId season number =>
    obtain ⟨showId', rfl, hfind⟩ := Option.bind_eq_some_iff.mp h
    obtain ⟨show', hshow, hseries⟩ := Option.bind_eq_some_iff.mp hfind
    have hid : show'.id = showId' := by simpa using List.find?_some hshow
    exact ⟨show', List.mem_of_find?_eq_some hshow, congrArg some hid.symm, hseries⟩
  | _ => cases hregular

/-- Episodes of one show are filed alike. -/
theorem parent_congr {row' : MediaRow} {showId : ℕ} (h : row.showId = some showId)
    (h' : row'.showId = some showId) :
    parent tables.media tables.shows row = parent tables.media tables.shows row' := by
  obtain ⟨id, tmdbId, tvdbId, kind, date, refreshed⟩ := row
  obtain ⟨id', tmdbId', tvdbId', kind', date', refreshed'⟩ := row'
  cases kind with
  | episode other _ _ =>
    cases kind' with
    | episode other' _ _ =>
      obtain rfl : other = some showId := h
      obtain rfl : other' = some showId := h'
      rfl
    | _ => cases h'
  | _ => cases h

/-- The episodes of a show are those of its series, as the series has no other show. -/
theorem episodesOf_eq {id : ℕ} (hrow : tables.row id = some row) {showId : ℕ}
    (hshow : row.showId = some showId) (h : parent tables.media tables.shows row = some title) :
    tables.episodesOf today showId = tables.releasedOf today title := by
  obtain ⟨rowId, tmdbId, tvdbId, kind, date, refreshed⟩ := row
  cases kind with
  | episode showId' season number =>
    obtain rfl : showId' = some showId := hshow
    obtain ⟨own, hown, hseries⟩ := Option.bind_eq_some_iff.mp h
    have hownId : own.id = showId := by simpa using List.find?_some hown
    have hownMem := List.mem_of_find?_eq_some hown
    refine congrArg Tables.ordered (List.filter_congr fun other _ ↦ ?_)
    cases hregular : other.isReleasedRegular today with
    | false => rfl
    | true =>
      rw [Bool.true_and, Bool.true_and, decide_eq_decide]
      constructor
      · intro hother
        exact (parent_congr hother rfl).trans h
      · intro hother
        obtain ⟨show', hmem, hshow', hseries'⟩ := exists_show hregular hother
        rw [hshow', tables.oneShow show' hmem own hownMem title hseries' hseries, hownId]
  | _ => cases hshow

theorem counts_catalogue (tables : Tables) (today : String) :
    (tables.catalogue today).Counts (tables.releasedOf today) := by
  have hreleased {title : ℕ} {episode : Episode} (h : episode ∈ tables.releasedOf today title) :
      (tables.catalogue today).titleOf episode.mediaId = some title ∧
        ((tables.catalogue today).siblings episode.mediaId).isSome = true := by
    obtain ⟨row, hrow, rfl⟩ := Tables.mem_ordered.mp h
    obtain ⟨hmem, hrow⟩ := List.mem_filter.mp hrow
    rw [Bool.and_eq_true, decide_eq_true_eq] at hrow
    obtain ⟨show', -, hshow, -⟩ := exists_show hrow.1 hrow.2
    rw [row.mediaId_toEpisode]
    simp only [Tables.catalogue, Tables.row_of_mem hmem, Option.bind_some, hrow.2, hshow,
      Option.map_some, Option.isSome_some, and_self]
  have hsiblings {mediaId title : ℕ} {episodes : List Episode}
      (h : (tables.catalogue today).siblings mediaId = some episodes)
      (htitle : (tables.catalogue today).titleOf mediaId = some title) :
      episodes = tables.releasedOf today title := by
    obtain ⟨showId, hshow, rfl⟩ := Option.map_eq_some_iff.mp h
    obtain ⟨row, hrow, hshow⟩ := Option.bind_eq_some_iff.mp hshow
    obtain ⟨row', hrow', hparent⟩ := Option.bind_eq_some_iff.mp htitle
    obtain rfl : row = row' := Option.some.inj (hrow.symm.trans hrow')
    exact episodesOf_eq hrow hshow hparent
  refine ⟨⟨fun title episodes h episode hmem ↦ ?_, fun mediaId episodes h episode hmem ↦ ?_⟩,
    fun mediaId episodes title h htitle ↦ hsiblings h htitle, fun title episode hmem ↦
      hreleased hmem, fun title ↦ Tables.nodup_ordered⟩
  · obtain rfl := Option.some.inj h
    exact (hreleased hmem).1
  · obtain ⟨showId, hshow, rfl⟩ := Option.map_eq_some_iff.mp h
    obtain ⟨row, hrow, hshow⟩ := Option.bind_eq_some_iff.mp hshow
    obtain ⟨other, hother, rfl⟩ := Tables.mem_ordered.mp hmem
    obtain ⟨hother, hown⟩ := List.mem_filter.mp hother
    rw [Bool.and_eq_true, decide_eq_true_eq] at hown
    rw [other.mediaId_toEpisode]
    simp only [Tables.catalogue, Tables.row_of_mem hother, hrow, Option.bind_some]
    exact parent_congr hown.2 hshow

/-- History import only adds just where each series that it adds for completed viewing has some of
its released regular episodes watched, or has none. -/
theorem history_import_only_adds (tables : Tables) (today : String) (now : Int)
    (deleted : ℕ → Bool) (t : Tracking) :
    OnlyAdds (tables.catalogue today) (tables.releasedOf today) deleted t
        (importTrackingHistory (tables.catalogue today) now deleted t).1 ↔
      RegularlyWatched (tables.catalogue today) (tables.releasedOf today) deleted t :=
  importTrackingHistory_only_adds (counts_catalogue tables today)

/-- A series of a special and one regular episode. -/
def specialTables : Tables where
  media := [⟨1, some 10, none, .series, none, true⟩,
    ⟨2, some 20, none, .episode (some 5) (some 0) (some 1), some "2024-01-01", false⟩,
    ⟨3, some 30, none, .episode (some 5) (some 1) (some 1), some "2024-01-02", false⟩]
  shows := [⟨5, some 10, none⟩]
  nodup := by decide
  oneShow s hs s' hs' _ _ _ := by
    rw [List.mem_singleton.mp hs, List.mem_singleton.mp hs']

/-- The special is watched, and the series becomes completed with one episode of progress. -/
theorem history_import_counts_special :
    ¬ OnlyAdds (specialTables.catalogue "2024-06-01") (specialTables.releasedOf "2024-06-01")
      (fun _ ↦ false) ⟨.empty, [], [⟨2, true, some 0, false, false, 0⟩], [], [], []⟩
      (importTrackingHistory (specialTables.catalogue "2024-06-01") 0 (fun _ ↦ false)
        ⟨.empty, [], [⟨2, true, some 0, false, false, 0⟩], [], [], []⟩).1 := by
  intro h
  have hwatched := (h.progress ⟨1, .series, 10, none⟩ _ ⟨rfl, rfl, rfl⟩ rfl 0 ⟨3, 1, 1⟩
    (by decide +kernel)).mpr (by decide +kernel)
  exact absurd hwatched (by decide +kernel)

end tables

end AnyList.Streaming
