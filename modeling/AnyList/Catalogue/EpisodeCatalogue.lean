import AnyList.Library.Dict
import AnyList.Library.Table
import Mathlib.Data.Int.Notation
import Mathlib.Data.List.Sort

namespace AnyList.Catalogue.EpisodeCatalogue

open AnyList.Library

inductive Provider
  | tmdb
  | tvdb
  deriving DecidableEq

/-- What a provider tells of an episode beside its identity. -/
structure Details where
  name : Option String
  airDate : Option String
  image : Option String
  overview : Option String
  runtime : Option ℤ
  deriving DecidableEq

/-- An episode of a series in the media table. -/
structure EpisodeRow where
  showId : Option ℕ
  tmdbId : Option ℤ
  tvdbId : Option ℤ
  season : Option ℤ
  number : Option ℤ
  importReleased : Bool
  title : String
  releaseDate : Option String
  posterPath : Option String
  overview : Option String
  runtime : Option ℤ
  deriving DecidableEq

structure ShowRow where
  tmdbId : Option ℤ
  tvdbId : Option ℤ
  canonicalSource : Provider
  deriving DecidableEq

/-- The series, with the keys of its metadata that describe its catalogue. -/
structure Root where
  tmdbId : Option ℤ
  tvdbId : Option ℤ
  catalogueIds : Option (List ℤ)
  catalogueProvider : Option Provider
  importedIds : List ℕ
  deriving DecidableEq

structure Store where
  root : Root
  shows : Table ShowRow
  episodes : Table EpisodeRow

def EpisodeRow.identity (provider : Provider) (row : EpisodeRow) : Option ℤ :=
  match provider with
  | .tmdb => row.tmdbId
  | .tvdb => row.tvdbId

/-- A missing identifier and the identifier 0 are both false. -/
def truthy (value : Option ℤ) : Option ℤ := value.filter (· ≠ 0)

def text (value : Option String) : Option String := value.filter (· ≠ "")

def Root.matches (root : Root) (row : ShowRow) : Bool :=
  (truthy root.tmdbId).any (fun id ↦ decide (row.tmdbId = some id)) ||
    (truthy root.tvdbId).any (fun id ↦ decide (row.tvdbId = some id))

def Store.show? (s : Store) : Option (ℕ × ShowRow) :=
  s.shows.rows.find? fun entry ↦ s.root.matches entry.2

/-- The provider whose identifiers the reader takes the catalogue's for. -/
def Root.readAs (root : Root) : Provider := root.catalogueProvider.getD .tmdb

def isRegular (showId : ℕ) (row : EpisodeRow) : Bool :=
  decide (row.showId = some showId) && row.season.any fun season ↦ decide (0 < season)

def Root.isImported (root : Root) (entry : ℕ × EpisodeRow) : Bool :=
  decide (entry.1 ∈ root.importedIds) || entry.2.importReleased

def Root.inCatalogue (root : Root) (entry : ℕ × EpisodeRow) : Bool :=
  match root.catalogueIds with
  | none => true
  | some ids => (entry.2.identity root.readAs).any (· ∈ ids) || root.isImported entry

/-- Missing numbers come last. -/
def positionLe (row row' : EpisodeRow) : Prop :=
  match row.season, row'.season with
  | some season, some season' => season < season' ∨ season = season' ∧
      match row.number, row'.number with
      | some number, some number' => number ≤ number'
      | some _, none => True
      | none, some _ => False
      | none, none => True
  | some _, none => True
  | none, some _ => False
  | none, none => True

instance decidablePositionLe (row row' : EpisodeRow) : Decidable (positionLe row row') := by
  unfold positionLe
  split
  · refine @instDecidableOr _ _ inferInstance (@instDecidableAnd _ _ inferInstance ?_)
    split <;> infer_instance
  all_goals infer_instance

def releasedEpisodes (s : Store) (includeUnreleased : Bool) (today : String) :
    List (ℕ × EpisodeRow) :=
  match s.show? with
  | none => []
  | some (showId, _) =>
    (s.episodes.rows.filter fun entry ↦
      isRegular showId entry.2 &&
        (includeUnreleased || entry.2.releaseDate.any (fun date ↦ decide (date ≤ today)) ||
          entry.2.importReleased) &&
        s.root.inCatalogue entry).insertionSort fun entry entry' ↦ positionLe entry.2 entry'.2

/-- A season as a provider lists it. -/
structure Season where
  number : Option ℤ
  episodeCount : Option ℤ
  deriving DecidableEq

structure ListedEpisode where
  id : Option ℤ
  season : Option ℤ
  number : Option ℤ
  details : Details
  deriving DecidableEq

/-- An episode that a provider returned with its identity and its place. -/
structure Returned where
  id : ℤ
  season : ℤ
  number : ℤ
  details : Details
  deriving DecidableEq

structure TvdbAnswer where
  seasons : List Season
  episodes : List ListedEpisode

/-- What the providers answer during one run: a missing answer is an error. -/
structure Answers where
  hasTmdbKey : Bool
  hasTvdbKey : Bool
  tvdb : Option TvdbAnswer
  tmdbSeasons : Option (List Season)
  tmdbSeason : ℤ → Option (List ListedEpisode)

/-- An incomplete response erases no duration. -/
def retainEpisodeRuntime (row : EpisodeRow) (details : Details) : Option ℤ :=
  (details.runtime.filter (0 < ·)).or row.runtime

def EpisodeRow.refresh (row : EpisodeRow) (details : Details) : EpisodeRow :=
  { row with
    releaseDate := details.airDate
    title := (text details.name).getD row.title
    posterPath := (text details.image).or row.posterPath
    overview := (text details.overview).or row.overview
    runtime := retainEpisodeRuntime row details }

def newEpisode (showId : ℕ) (provider : Provider) (item : Returned) : EpisodeRow where
  showId := some showId
  tmdbId := if provider = .tmdb then some item.id else none
  tvdbId := if provider = .tvdb then some item.id else none
  season := some item.season
  number := some item.number
  importReleased := false
  title := (text item.details.name).getD s!"Episode {item.number}"
  releaseDate := none
  posterPath := none
  overview := none
  runtime := none

def identified (season : ℤ) (item : ListedEpisode) : Option Returned := do
  let id ← truthy item.id
  let number ← truthy item.number
  return ⟨id, season, number, item.details⟩

section tvdb

/-- The regular episodes of an answer, or `none` where one lacks its identity. -/
def tvdbEpisodes (answer : TvdbAnswer) : Option (List Returned) :=
  (answer.episodes.filter fun item ↦ decide (0 < item.season.getD 0)).mapM fun item ↦
    identified (item.season.getD 0) item

def expectedCounts (seasons : List Season) : Dict ℤ ℤ :=
  seasons.foldl (fun counts season ↦
    match season.number, truthy season.episodeCount with
    | some number, some count => if 0 < number then counts.set number count else counts
    | _, _ => counts) Dict.empty

def isComplete (answer : TvdbAnswer) (fetched : List Returned) : Bool :=
  (expectedCounts answer.seasons).entries.all fun expected ↦
    decide (((fetched.countP fun item ↦ item.season = expected.1 : ℕ) : ℤ) = expected.2)

/-- The last of the show's stored episodes that has the identifier, else the last in its place. -/
def storedTvdb (existing : List (ℕ × EpisodeRow)) (item : Returned) : Option ℕ :=
  ((existing.filter fun entry ↦ decide (entry.2.tvdbId = some item.id)).getLast?.or
    (existing.filter fun entry ↦ decide (entry.2.season = some item.season) &&
      decide (entry.2.number = some item.number)).getLast?).map Prod.fst

def placeTvdb (showId : ℕ) (existing : List (ℕ × EpisodeRow)) (episodes : Table EpisodeRow)
    (item : Returned) : Option (Table EpisodeRow) :=
  match storedTvdb existing item with
  | none => some (episodes.insert ((newEpisode showId .tvdb item).refresh item.details))
  | some id => do
    let row ← episodes.get id
    if row.season ≠ some item.season ∨ row.number ≠ some item.number then none
    else if row.tvdbId ≠ none ∧ row.tvdbId ≠ some item.id then none
    else some (episodes.modifyAt id fun row ↦
      { row with tvdbId := row.tvdbId.or (some item.id) }.refresh item.details)

def hydrateTvdb (s : Store) (showId : ℕ) (row : ShowRow) (answers : Answers) :
    Option (Store × List Returned) := do
  if (truthy row.tvdbId).isNone || !answers.hasTvdbKey then none
  else
    let answer ← answers.tvdb
    let fetched ← tvdbEpisodes answer
    if ¬(fetched.map fun item ↦ (item.season, item.number)).Nodup then none
    else if !isComplete answer fetched then none
    else
      let existing := s.episodes.rows.filter fun entry ↦ decide (entry.2.showId = some showId)
      let episodes ← fetched.foldlM (placeTvdb showId existing) s.episodes
      let root := { s.root with
        catalogueIds := some (fetched.map Returned.id)
        catalogueProvider := some .tvdb }
      return (⟨root, s.shows, episodes⟩, fetched)

end tvdb

section tmdb

def tmdbSeasonEpisodes (answers : Answers) (season : Season) : Option (List Returned) :=
  match season.number with
  | none => some []
  | some number =>
    if number ≤ 0 then some []
    else do
      let episodes ← answers.tmdbSeason number
      if some (episodes.length : ℤ) ≠ season.episodeCount then none
      else episodes.mapM (identified number)

def tmdbEpisodes (answers : Answers) (seasons : List Season) : Option (List Returned) :=
  (seasons.mapM (tmdbSeasonEpisodes answers)).map List.flatten

/-- The row of an identifier, which a new row gets where there is none. -/
def createMediaSafely (showId : ℕ) (episodes : Table EpisodeRow) (item : Returned) :
    Table EpisodeRow × ℕ :=
  match episodes.rows.find? fun entry ↦ decide (entry.2.tmdbId = some item.id) with
  | some entry => (episodes, entry.1)
  | none => (episodes.insert (newEpisode showId .tmdb item), episodes.next)

def placeTmdb (showId : ℕ) (episodes : Table EpisodeRow) (item : Returned) :
    Option (Table EpisodeRow) := do
  let (created, id) := createMediaSafely showId episodes item
  let row ← created.get id
  if row.showId ≠ some showId ∨ row.season ≠ some item.season ∨ row.number ≠ some item.number then none
  else some (created.modifyAt id fun row ↦ row.refresh item.details)

def hydrateTmdb (s : Store) (answers : Answers) : Option (Store × List Returned) := do
  if (truthy s.root.tmdbId).isNone || !answers.hasTmdbKey then none
  else
    let seasons ← answers.tmdbSeasons
    let fetched ← tmdbEpisodes answers seasons
    let (shows, showId) := match s.show? with
      | some (id, _) => (s.shows, id)
      | none => (s.shows.insert ⟨s.root.tmdbId, none, .tmdb⟩, s.shows.next)
    let episodes ← fetched.foldlM (placeTmdb showId) s.episodes
    let root := { s.root with catalogueIds := some (fetched.map Returned.id) }
    return (⟨root, shows, episodes⟩, fetched)

end tmdb

/-- The provider whose catalogue a run asks for. -/
def Store.asks (s : Store) : Provider :=
  match s.show? with
  | some (_, row) => row.canonicalSource
  | none => .tmdb

def hydrateTrackingEpisodes (s : Store) (answers : Answers) : Option (Store × List Returned) :=
  if (truthy s.root.tmdbId).isNone && (truthy s.root.tvdbId).isNone then none
  else
    match s.show? with
    | some (id, row) =>
      if row.canonicalSource = .tvdb then hydrateTvdb s id row answers else hydrateTmdb s answers
    | none => hydrateTmdb s answers

end AnyList.Catalogue.EpisodeCatalogue
