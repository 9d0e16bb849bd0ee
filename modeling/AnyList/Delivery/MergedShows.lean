import AnyList.Delivery.ShowPayloads

namespace AnyList.Delivery.ShowPayloads

open AnyList.Library AnyList.Library.KeyedInserts AnyList.Library.LastValue

/-- What a payload can mark: a show, a season of it, an episode of that. -/
inductive Address
  | ofShow (tmdb : Int)
  | ofSeason (tmdb number : Int)
  | ofEpisode (tmdb season number : Int)
  deriving DecidableEq

section read

variable (name : Option String)

/-- The mark of a name; without a name, that the marks are there at all. -/
def look (marks : Marks) : Option (Option Mark) :=
  match name with
  | none => some none
  | some name => (marks.get name).map some

def EpisodeEntry.read (number : Int) (episode : EpisodeEntry) : Option (Option Mark) :=
  if episode.number = number then look name episode.marks else none

def SeasonEntry.read (number : Int) (episode : Option Int) (season : SeasonEntry) :
    Option (Option Mark) :=
  if season.number = number then
    match episode with
    | none => look name season.marks
    | some episode => lastValue (EpisodeEntry.read name episode) (season.episodes.getD [])
  else none

/-- What an entry says at an address, its last word if it says several. -/
def ShowEntry.read (address : Address) (item : ShowEntry) : Option (Option Mark) :=
  match address with
  | .ofShow tmdb => if item.tmdb = some tmdb then look name item.marks else none
  | .ofSeason tmdb number => if item.tmdb = some tmdb then
      lastValue (SeasonEntry.read name number none) (item.seasons.getD []) else none
  | .ofEpisode tmdb season number => if item.tmdb = some tmdb then
      lastValue (SeasonEntry.read name season (some number)) (item.seasons.getD []) else none

end read

/-- Whether some entry names the show, season or episode. -/
def Listed (entries : List ShowEntry) (address : Address) : Prop :=
  ∃ item ∈ entries, (item.read none address).isSome = true

/-- The last value that the entries give a mark. -/
def markAt (entries : List ShowEntry) (address : Address) (name : String) : Option Mark :=
  (lastValue (ShowEntry.read (some name) address) entries).join

section take

variable {name : Option String}

theorem look_setAll (marks marks' : Marks) :
    look name (marks.setAll marks'.entries) = (look name marks').or (look name marks) := by
  cases name with
  | none => rfl
  | some name =>
    simp only [look, Dict.get_setAll_entries]
    cases marks'.get name <;> rfl

theorem look_empty_setAll (marks : Marks) :
    look name ((Dict.empty : Marks).setAll marks.entries) = look name marks := by
  rw [look_setAll]
  cases name with
  | none => rfl
  | some name =>
    simp only [look, Dict.get_empty]
    exact Option.or_none

section episodes

variable {existing episodes : List EpisodeEntry} {number : Int}

theorem EpisodeEntry.read_of_ne (episode : EpisodeEntry) (h : episode.number ≠ number) :
    episode.read name number = none := if_neg h

theorem EpisodeEntry.read_update (target episode : EpisodeEntry)
    (h : target.number = episode.number) :
    (target.update episode).read name number =
      (episode.read name number).or (target.read name number) := by
  unfold EpisodeEntry.read EpisodeEntry.update
  rw [← h]
  split_ifs
  · exact look_setAll _ _
  · rfl

theorem nodup_mergeEpisodes (h : (existing.map EpisodeEntry.number).Nodup) :
    ((mergeEpisodes existing episodes).map EpisodeEntry.number).Nodup :=
  nodup_foldl_insertWith (fun _ _ ↦ rfl) h

theorem read_mergeEpisodes (h : (existing.map EpisodeEntry.number).Nodup) :
    lastValue (EpisodeEntry.read name number) (mergeEpisodes existing episodes) =
      (lastValue (EpisodeEntry.read name number) episodes).or
        (lastValue (EpisodeEntry.read name number) existing) :=
  lastValue_foldl_insertWith (P := fun _ ↦ True) (fun episode ↦ episode.read_of_ne)
    (fun _ _ ↦ rfl) (fun _ ↦ rfl) (fun target episode _ ↦ target.read_update episode) h
    (fun _ _ ↦ trivial) (fun _ ↦ trivial) fun _ _ _ ↦ trivial

theorem mergeEpisodes_eq_self (h : (episodes.map EpisodeEntry.number).Nodup) :
    mergeEpisodes [] episodes = episodes := by
  rw [mergeEpisodes, foldl_insertWith_of_nodup (by simpa using h)]
  exact List.map_id episodes

end episodes

section seasons

/-- A season that has one entry for each episode. -/
def SeasonEntry.WellFormed (season : SeasonEntry) : Prop :=
  ((season.episodes.getD []).map EpisodeEntry.number).Nodup

variable {existing seasons : List SeasonEntry} {number : Int} {episode : Option Int}

theorem SeasonEntry.wellFormed_blank (number : Int) : (SeasonEntry.blank number).WellFormed :=
  List.nodup_nil

theorem SeasonEntry.WellFormed.take {target : SeasonEntry} (h : target.WellFormed)
    (season : SeasonEntry) : (target.take season).WellFormed := by
  unfold WellFormed SeasonEntry.take
  cases season.episodes with
  | none => exact h
  | some episodes => exact nodup_mergeEpisodes h

theorem SeasonEntry.read_of_ne (season : SeasonEntry) (h : season.number ≠ number) :
    season.read name number episode = none := if_neg h

theorem SeasonEntry.read_take {target : SeasonEntry} (season : SeasonEntry)
    (htarget : target.WellFormed) (h : target.number = season.number) :
    (target.take season).read name number episode =
      (season.read name number episode).or (target.read name number episode) := by
  unfold SeasonEntry.read
  rw [← h, show (target.take season).number = target.number from rfl]
  split_ifs
  · cases episode with
    | none => exact look_setAll _ _
    | some episode =>
      unfold SeasonEntry.take
      cases season.episodes with
      | none => exact Option.none_or.symm
      | some episodes => exact read_mergeEpisodes htarget
  · rfl

theorem SeasonEntry.read_blank_take (season : SeasonEntry) :
    ((SeasonEntry.blank season.number).take season).read name number episode =
      season.read name number episode := by
  unfold SeasonEntry.read
  rw [show ((SeasonEntry.blank season.number).take season).number = season.number from rfl]
  split_ifs
  · cases episode with
    | none => exact look_empty_setAll _
    | some episode =>
      unfold SeasonEntry.take
      cases season.episodes with
      | none => rfl
      | some episodes =>
        have hread : lastValue (EpisodeEntry.read name episode) (mergeEpisodes [] episodes) =
            (lastValue (EpisodeEntry.read name episode) episodes).or none :=
          read_mergeEpisodes List.nodup_nil
        rw [Option.or_none] at hread
        exact hread
  · rfl

theorem nodup_mergeSeasons (h : (existing.map SeasonEntry.number).Nodup) :
    ((mergeSeasons existing seasons).map SeasonEntry.number).Nodup :=
  nodup_foldl_insertWith (fun _ _ ↦ rfl) h

theorem wellFormed_mergeSeasons (h : ∀ season ∈ existing, season.WellFormed) :
    ∀ season ∈ mergeSeasons existing seasons, season.WellFormed :=
  forall_foldl_insertWith (fun season _ ↦ (SeasonEntry.wellFormed_blank season.number).take season)
    (fun _ season hold ↦ hold.take season) h

theorem read_mergeSeasons (h : (existing.map SeasonEntry.number).Nodup)
    (hexisting : ∀ season ∈ existing, season.WellFormed) :
    lastValue (SeasonEntry.read name number episode) (mergeSeasons existing seasons) =
      (lastValue (SeasonEntry.read name number episode) seasons).or
        (lastValue (SeasonEntry.read name number episode) existing) :=
  lastValue_foldl_insertWith (fun season ↦ season.read_of_ne) (fun _ _ ↦ rfl)
    SeasonEntry.read_blank_take (fun _ season hold ↦ SeasonEntry.read_take season hold) h hexisting
    (fun season ↦ (SeasonEntry.wellFormed_blank season.number).take season)
    fun _ season hold ↦ hold.take season

theorem SeasonEntry.WellFormed.blank_take {season : SeasonEntry} (h : season.WellFormed) :
    (SeasonEntry.blank season.number).take season = season := by
  obtain ⟨number, marks, episodes⟩ := season
  have hmarks : (Dict.empty : Marks).setAll marks.entries = marks :=
    Dict.ext (Dict.entries_setAll_empty marks.nodup)
  unfold SeasonEntry.take SeasonEntry.blank
  cases episodes with
  | none => simp only [hmarks]
  | some episodes =>
    have hepisodes : mergeEpisodes [] episodes = episodes := mergeEpisodes_eq_self h
    simp only [hmarks, Option.getD_none, hepisodes]

theorem mergeSeasons_eq_self (h : (seasons.map SeasonEntry.number).Nodup)
    (hseasons : ∀ season ∈ seasons, season.WellFormed) : mergeSeasons [] seasons = seasons := by
  have hmake : seasons.map (fun season ↦ (SeasonEntry.blank season.number).take season) =
      seasons :=
    (List.map_congr_left fun season hseason ↦ (hseasons season hseason).blank_take).trans
      (List.map_id' seasons)
  rw [mergeSeasons, foldl_insertWith_of_nodup (by rwa [List.nil_append, hmake]), hmake,
    List.nil_append]

end seasons

section shows

/-- A show that has one entry for each season, and each of them one for each episode. -/
structure ShowEntry.WellFormed (item : ShowEntry) : Prop where
  seasons : ((item.seasons.getD []).map SeasonEntry.number).Nodup
  episodes : ∀ season ∈ item.seasons.getD [], season.WellFormed

variable {shows : List ShowEntry} {address : Address}

theorem ShowEntry.wellFormed_blank (tmdb : Option Int) : (ShowEntry.blank tmdb).WellFormed :=
  ⟨List.nodup_nil, fun _ h ↦ absurd h List.not_mem_nil⟩

theorem ShowEntry.WellFormed.take {target : ShowEntry} (h : target.WellFormed)
    (item : ShowEntry) : (target.take item).WellFormed := by
  unfold ShowEntry.take
  cases item.seasons with
  | none => exact ⟨h.seasons, h.episodes⟩
  | some seasons => exact ⟨nodup_mergeSeasons h.seasons, wellFormed_mergeSeasons h.episodes⟩

/-- The show that an address is of. -/
def Address.tmdb : Address → Int
  | .ofShow tmdb => tmdb
  | .ofSeason tmdb _ => tmdb
  | .ofEpisode tmdb _ _ => tmdb

theorem ShowEntry.read_of_ne (item : ShowEntry) (h : item.tmdb ≠ some address.tmdb) :
    item.read name address = none := by
  cases address <;> exact if_neg h

theorem read_seasons_take {target : ShowEntry} (item : ShowEntry) (htarget : target.WellFormed)
    (number : Int) (episode : Option Int) :
    lastValue (SeasonEntry.read name number episode) ((target.take item).seasons.getD []) =
      (lastValue (SeasonEntry.read name number episode) (item.seasons.getD [])).or
        (lastValue (SeasonEntry.read name number episode) (target.seasons.getD [])) := by
  unfold ShowEntry.take
  cases item.seasons with
  | none => exact Option.none_or.symm
  | some seasons => exact read_mergeSeasons htarget.seasons htarget.episodes

theorem ShowEntry.read_take {target : ShowEntry} (item : ShowEntry) (htarget : target.WellFormed)
    (h : target.tmdb = item.tmdb) :
    (target.take item).read name address =
      (item.read name address).or (target.read name address) := by
  have htmdb : (target.take item).tmdb = target.tmdb := rfl
  cases address with
  | ofShow tmdb =>
    simp only [ShowEntry.read, htmdb, ← h]
    split_ifs
    · exact look_setAll _ _
    · rfl
  | ofSeason tmdb number =>
    simp only [ShowEntry.read, htmdb, ← h]
    split_ifs
    · exact read_seasons_take item htarget number none
    · rfl
  | ofEpisode tmdb season number =>
    simp only [ShowEntry.read, htmdb, ← h]
    split_ifs
    · exact read_seasons_take item htarget season (some number)
    · rfl

theorem ShowEntry.read_blank_take (item : ShowEntry) :
    ((ShowEntry.blank item.tmdb).take item).read name address = item.read name address := by
  have hblank (number : Int) (episode : Option Int) : lastValue (SeasonEntry.read name number episode)
      (((ShowEntry.blank item.tmdb).take item).seasons.getD []) =
        lastValue (SeasonEntry.read name number episode) (item.seasons.getD []) :=
    (read_seasons_take item (ShowEntry.wellFormed_blank item.tmdb) number episode).trans
      Option.or_none
  have htmdb : ((ShowEntry.blank item.tmdb).take item).tmdb = item.tmdb := rfl
  cases address with
  | ofShow tmdb =>
    simp only [ShowEntry.read, htmdb]
    split_ifs
    · exact look_empty_setAll _
    · rfl
  | ofSeason tmdb number => simp only [ShowEntry.read, htmdb, hblank]
  | ofEpisode tmdb season number => simp only [ShowEntry.read, htmdb, hblank]

theorem ShowEntry.WellFormed.blank_take {item : ShowEntry} (h : item.WellFormed) :
    (ShowEntry.blank item.tmdb).take item = item := by
  obtain ⟨tmdb, marks, seasons⟩ := item
  have hmarks : (Dict.empty : Marks).setAll marks.entries = marks :=
    Dict.ext (Dict.entries_setAll_empty marks.nodup)
  unfold ShowEntry.take ShowEntry.blank
  cases seasons with
  | none => simp only [hmarks]
  | some seasons =>
    have hseasons : mergeSeasons [] seasons = seasons := mergeSeasons_eq_self h.seasons h.episodes
    simp only [hmarks, Option.getD_none, hseasons]

/-- The merge of entries that all have a show id. -/
theorem mergeShowEntries_eq (h : ∀ item ∈ shows, item.tmdb ≠ none) :
    mergeShowEntries shows = shows.foldl (insertWith ShowEntry.tmdb
      (fun item ↦ (ShowEntry.blank item.tmdb).take item) ShowEntry.take) [] := by
  have hfold (result : List ShowEntry) : shows.foldl mergeShow result = shows.foldl
      (insertWith ShowEntry.tmdb (fun item ↦ (ShowEntry.blank item.tmdb).take item)
        ShowEntry.take) result := by
    induction shows generalizing result with
    | nil => rfl
    | cons item shows ih =>
      rw [List.foldl_cons, List.foldl_cons, mergeShow, if_neg (h item List.mem_cons_self)]
      exact ih (fun item hitem ↦ h item (List.mem_cons_of_mem _ hitem)) _
  exact hfold []

/-- What a merge of show entries keeps to: one entry for a show, a season and an episode, the same
addresses and the last value of every mark; and nothing is left to merge. -/
structure Merges (shows merged : List ShowEntry) : Prop where
  titles : (merged.map ShowEntry.tmdb).Nodup
  seasons : ∀ item ∈ merged, ((item.seasons.getD []).map SeasonEntry.number).Nodup
  episodes : ∀ item ∈ merged, ∀ season ∈ item.seasons.getD [],
    ((season.episodes.getD []).map EpisodeEntry.number).Nodup
  addresses : ∀ address, Listed merged address ↔ Listed shows address
  marks : ∀ address name, markAt merged address name = markAt shows address name
  stable : mergeShowEntries merged = merged

theorem read_mergeShowEntries (h : ∀ item ∈ shows, item.tmdb ≠ none) (name : Option String)
    (address : Address) : lastValue (ShowEntry.read name address) (mergeShowEntries shows) =
      lastValue (ShowEntry.read name address) shows := by
  have hread : lastValue (ShowEntry.read name address) (shows.foldl (insertWith ShowEntry.tmdb
      (fun item ↦ (ShowEntry.blank item.tmdb).take item) ShowEntry.take) []) =
        (lastValue (ShowEntry.read name address) shows).or
          (lastValue (ShowEntry.read name address) []) :=
    lastValue_foldl_insertWith (P := ShowEntry.WellFormed) (k := some address.tmdb)
      (fun item ↦ ShowEntry.read_of_ne item) (fun _ _ ↦ rfl) ShowEntry.read_blank_take
      (fun _ item hold ↦ ShowEntry.read_take item hold) List.nodup_nil
      (fun _ hitem ↦ absurd hitem List.not_mem_nil)
      (fun item ↦ (ShowEntry.wellFormed_blank item.tmdb).take item) fun _ item hold ↦ hold.take item
  rw [mergeShowEntries_eq h, hread, lastValue_nil, Option.or_none]

/-- Merging the entries of a payload loses and duplicates nothing. -/
theorem mergeShowEntries_merges {τ : Type*} {isoUtc : τ → String}
    (h : ∀ item ∈ shows, Produced isoUtc item) : Merges shows (mergeShowEntries shows) := by
  have hids : ∀ item ∈ shows, item.tmdb ≠ none := fun item hitem ↦ (h item hitem).tmdb_ne_none
  have hnodup : ((mergeShowEntries shows).map ShowEntry.tmdb).Nodup := by
    rw [mergeShowEntries_eq hids]
    exact nodup_foldl_insertWith (fun _ _ ↦ rfl) List.nodup_nil
  have hformed : ∀ item ∈ mergeShowEntries shows, item.WellFormed := by
    rw [mergeShowEntries_eq hids]
    exact forall_foldl_insertWith
      (fun item _ ↦ (ShowEntry.wellFormed_blank item.tmdb).take item)
      (fun _ item hold ↦ hold.take item) fun _ hitem ↦ absurd hitem List.not_mem_nil
  have hmerged : ∀ item ∈ mergeShowEntries shows, item.tmdb ≠ none := by
    rw [mergeShowEntries_eq hids]
    exact forall_foldl_insertWith hids (fun _ _ hold ↦ hold)
      fun _ hitem ↦ absurd hitem List.not_mem_nil
  refine ⟨hnodup, fun item hitem ↦ (hformed item hitem).seasons,
    fun item hitem ↦ (hformed item hitem).episodes, fun address ↦ ?_, fun address name ↦ ?_, ?_⟩
  · rw [Listed, Listed, ← isSome_lastValue, ← isSome_lastValue, read_mergeShowEntries hids]
  · rw [markAt, markAt, read_mergeShowEntries hids]
  · have hmake : (mergeShowEntries shows).map
        (fun item ↦ (ShowEntry.blank item.tmdb).take item) = mergeShowEntries shows :=
      (List.map_congr_left fun item hitem ↦ (hformed item hitem).blank_take).trans
        (List.map_id' _)
    rw [mergeShowEntries_eq hmerged, foldl_insertWith_of_nodup (by rwa [List.nil_append, hmake]),
      hmake, List.nil_append]

end shows

end take

/-- A season rating, then an episode of that season twice, the second time rated. -/
theorem mergeShowEntries_merges_ratings : Merges
    [⟨some 7, .empty, some [⟨1, Dict.empty.setAll [("rating", .number 8),
      ("rated_at", .text "2024-05-02T00:00:00Z")], none⟩]⟩,
    ⟨some 7, .empty, some [⟨1, .empty, some [⟨3, Dict.empty.setAll
      [("watched_at", .text "2024-05-01T00:00:00Z")]⟩]⟩]⟩]
    (mergeShowEntries
      [⟨some 7, .empty, some [⟨1, Dict.empty.setAll [("rating", .number 8),
        ("rated_at", .text "2024-05-02T00:00:00Z")], none⟩]⟩,
      ⟨some 7, .empty, some [⟨1, .empty, some [⟨3, Dict.empty.setAll
        [("watched_at", .text "2024-05-01T00:00:00Z")]⟩]⟩]⟩]) := by
  refine @mergeShowEntries_merges _ String (fun written ↦ written) fun item hitem ↦ ?_
  simp only [List.mem_cons, List.not_mem_nil, or_false] at hitem
  obtain rfl | rfl := hitem
  · exact ⟨"", ⟨.series, some 7, none, none, none⟩, none,
      ⟨none, some 8, some "2024-05-02T00:00:00Z", none⟩, some 1, rfl⟩
  · exact ⟨"", ⟨.episode, some 70, none, some 1, some 3⟩, some 7,
      ⟨some "2024-05-01T00:00:00Z", none, none, none⟩, none, rfl⟩

end AnyList.Delivery.ShowPayloads
