import AnyList.Library.LastValue
import Mathlib.Data.Rat.Defs

namespace AnyList.Delivery.ShowPayloads

open AnyList.Library AnyList.Library.KeyedInserts AnyList.Library.LastValue

/-- What a mark is set to. -/
inductive Mark
  | text (value : String)
  | number (value : ℚ)
  deriving DecidableEq

abbrev Marks := Dict String Mark

structure EpisodeEntry where
  number : Int
  marks : Marks

structure SeasonEntry where
  number : Int
  marks : Marks
  episodes : Option (List EpisodeEntry)

structure ShowEntry where
  tmdb : Option Int
  marks : Marks
  seasons : Option (List SeasonEntry)

section merge

def EpisodeEntry.update (target episode : EpisodeEntry) : EpisodeEntry :=
  { target with marks := target.marks.setAll episode.marks.entries }

def mergeEpisodes (existing episodes : List EpisodeEntry) : List EpisodeEntry :=
  episodes.foldl (insertWith EpisodeEntry.number id EpisodeEntry.update) existing

def SeasonEntry.blank (number : Int) : SeasonEntry := ⟨number, .empty, none⟩

/-- Takes the marks of a season into another one of its number, and its episodes by number. -/
def SeasonEntry.take (target season : SeasonEntry) : SeasonEntry :=
  { target with
    marks := target.marks.setAll season.marks.entries
    episodes := match season.episodes with
      | none => target.episodes
      | some episodes => some (mergeEpisodes (target.episodes.getD []) episodes) }

def mergeSeasons (existing seasons : List SeasonEntry) : List SeasonEntry :=
  seasons.foldl (insertWith SeasonEntry.number
    (fun season ↦ (SeasonEntry.blank season.number).take season) SeasonEntry.take) existing

def ShowEntry.blank (tmdb : Option Int) : ShowEntry := ⟨tmdb, .empty, none⟩

def ShowEntry.take (target item : ShowEntry) : ShowEntry :=
  { target with
    marks := target.marks.setAll item.marks.entries
    seasons := match item.seasons with
      | none => target.seasons
      | some seasons => some (mergeSeasons (target.seasons.getD []) seasons) }

/-- Adds an entry; one without a show id stands for itself. -/
def mergeShow (result : List ShowEntry) (item : ShowEntry) : List ShowEntry :=
  if item.tmdb = none then result ++ [item]
  else insertWith ShowEntry.tmdb (fun item ↦ (ShowEntry.blank item.tmdb).take item) ShowEntry.take
    result item

def mergeShowEntries (shows : List ShowEntry) : List ShowEntry := shows.foldl mergeShow []

end merge

section payloads

variable {τ : Type*}

inductive MediaType
  | movie
  | series
  | episode
  | person
  deriving DecidableEq

structure Media where
  mediaType : MediaType
  tmdbId : Option Int
  tvdbId : Option Int
  seasonNumber : Option Int
  episodeNumber : Option Int

inductive Kind
  | movies
  | shows
  deriving DecidableEq

/-- What a payload states of a title. -/
structure Stated (τ : Type*) where
  watchedAt : Option τ
  rating : Option ℚ
  ratedAt : Option τ
  collectedAt : Option τ

variable (isoUtc : τ → String) (now : τ)

def watchedMark (stated : Stated τ) : List (String × Mark) :=
  (stated.watchedAt.map fun at' ↦ ("watched_at", Mark.text (isoUtc at'))).toList

def ratingMarks (stated : Stated τ) : List (String × Mark) :=
  match stated.rating with
  | none => []
  | some rating =>
    [("rating", .number rating), ("rated_at", .text (isoUtc (stated.ratedAt.getD now)))]

def collectedMark (stated : Stated τ) : List (String × Mark) :=
  (stated.collectedAt.map fun at' ↦ ("collected_at", Mark.text (isoUtc at'))).toList

def isUnmappedTvdbEpisode (media : Media) : Bool :=
  decide (media.mediaType = .episode ∧ media.tmdbId = none ∧ media.tvdbId ≠ none)

/-- The id, unless it is missing or zero. -/
def known (id : Option Int) : Option Int := id.filter (· ≠ 0)

/-- An entry of a payload. An episode is addressed by its show and its numbers. -/
def payloadItem (media : Media) (showTmdbId : Option Int) (stated : Stated τ)
    (seasonNumber : Option Int) : Option (Kind × ShowEntry) :=
  let marks := Dict.empty.setAll (watchedMark isoUtc stated ++ ratingMarks isoUtc now stated ++
    collectedMark isoUtc stated)
  match media.mediaType with
  | .episode => do
    let tmdb ← known showTmdbId
    let season ← media.seasonNumber
    let number ← media.episodeNumber
    if isUnmappedTvdbEpisode media then none
    else some (.shows, ⟨some tmdb, .empty, some [⟨season, .empty, some [⟨number, marks⟩]⟩]⟩)
  | kind => do
    let tmdb ← known media.tmdbId
    match seasonNumber with
    | some season =>
      if kind = .series then
        let ratingOnly := Dict.empty.setAll (ratingMarks isoUtc now stated)
        some (.shows, ⟨some tmdb, .empty, some [⟨season, ratingOnly, none⟩]⟩)
      else none
    | none =>
      match kind with
      | .movie => some (.movies, ⟨some tmdb, marks, none⟩)
      | .series => some (.shows, ⟨some tmdb, marks, none⟩)
      | _ => none

/-- An entry of the shape that `payloadItem` gives a show. -/
def Produced (isoUtc : τ → String) (item : ShowEntry) : Prop :=
  ∃ now media showTmdbId stated seasonNumber,
    payloadItem isoUtc now media showTmdbId stated seasonNumber = some (.shows, item)

theorem Produced.tmdb_ne_none {item : ShowEntry} (h : Produced isoUtc item) : item.tmdb ≠ none := by
  obtain ⟨now, media, showTmdbId, stated, seasonNumber, h⟩ := h
  unfold payloadItem at h
  extract_lets marks at h
  split at h
  · simp only [Option.bind_eq_bind, Option.bind_eq_some_iff] at h
    obtain ⟨tmdb, -, season, -, number, -, h⟩ := h
    split_ifs at h
    obtain ⟨-, rfl⟩ := Prod.mk.inj (Option.some.inj h)
    simp
  · simp only [Option.bind_eq_bind, Option.bind_eq_some_iff] at h
    obtain ⟨tmdb, -, h⟩ := h
    split at h
    · split_ifs at h
      obtain ⟨-, rfl⟩ := Prod.mk.inj (Option.some.inj h)
      simp
    · split at h
      · cases h
      · obtain ⟨-, rfl⟩ := Prod.mk.inj (Option.some.inj h)
        simp
      · cases h

end payloads

end AnyList.Delivery.ShowPayloads
