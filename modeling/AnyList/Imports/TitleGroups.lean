import AnyList.Imports.EpisodeResolution
import Mathlib.Algebra.Order.Ring.Nat
import Mathlib.Algebra.Order.Ring.Rat

namespace AnyList.Imports.TitleGroups

open AnyList.Library.KeyedInserts AnyList.Imports.ViewingHistory AnyList.Imports.EpisodeResolution

inductive Kind
  | movie
  | show
  deriving DecidableEq

def Kind.value : Kind → Text
  | .movie => "movie".toList
  | .show => "show".toList

/-- One source title and date; an absent text is `none`. -/
structure Observation where
  sourceTitle : Text
  watchedAt : Text
  showTitle : Option Text
  seasonLabel : Option Text
  seasonNumber : Option Int
  episodeTitle : Option Text
  sourceRows : List ℕ
  deriving DecidableEq

/-- A search result, with how it compares to the title that was searched. -/
structure Candidate where
  kind : Kind
  tmdbId : Option Int
  title : Text
  year : Option Int
  posterPath : Option Text
  genreIds : List Int
  originalLanguage : Option Text
  originCountry : List Text
  exact : Bool
  similarity : ℚ
  voteCount : ℕ
  popularity : ℚ
  releaseDate : Text
  deriving DecidableEq

structure Suggestion where
  tmdbId : Option Int
  title : Text
  year : Option Int
  posterPath : Option Text
  mediaType : Kind
  confidence : String
  evidence : String
  deriving DecidableEq

/-- A group of the prepared import. Of the source rows the program keeps the number alone. -/
structure Item where
  id : Text
  kind : Kind
  sourceTitle : Text
  dates : List Text
  sourceRows : List ℕ
  tmdbId : Option Int
  title : Option Text
  year : Option Int
  posterPath : Option Text
  mediaType : Option Kind
  isAnime : Bool
  confidence : String
  reason : String
  status : String
  episodes : List Episode
  suggestions : List Suggestion
  unresolvedSourceRows : List ℕ
  deriving DecidableEq

/-- What the evaluation of a show's search results comes to. -/
structure ShowMatch where
  candidate : Candidate
  isAnime : Bool
  confidence : String
  reason : String
  episodes : List Episode
  suggestions : List Suggestion

structure Prepared where
  movies : List Item
  shows : List Item
  unmatched : List Item

def Prepared.all (prepared : Prepared) : List Item :=
  prepared.movies ++ prepared.shows ++ prepared.unmatched

/-- The search results by kind and title, the season number of a label of a show, the hexadecimal
digest of a title, and the classification of a show's observations. -/
structure Service where
  search : Kind → Text → List Candidate
  seasonNumber : Text → Text → Option Int
  digest : Text → Text
  evaluate : Text → List Observation → List Candidate → ShowMatch

def truthy (text : Option Text) : Bool := (orNone text).isSome

def visibleCandidate (confidence evidence : String) (candidate : Candidate) : Suggestion :=
  ⟨candidate.tmdbId, candidate.title, candidate.year, candidate.posterPath, candidate.kind,
    confidence, evidence⟩

def isAnimeCandidate (candidate : Candidate) : Bool :=
  decide (16 ∈ candidate.genreIds ∧
    (candidate.originalLanguage = some "ja".toList ∨ isAmong "JP".toList candidate.originCountry))

def sortedDates (dates : List Text) : List Text := dates.dedup.insertionSort (· ≤ ·)

def isEligible (firstWatch : Text) (candidate : Candidate) : Bool :=
  candidate.exact && (candidate.releaseDate.isEmpty || firstWatch.isEmpty ||
    decide (candidate.releaseDate.take 10 ≤ firstWatch))

/-- The one of several films of a title that most of the audience knows. -/
def dominantExactMovie (candidates : List Candidate) (watchedDates : List Text) : Option Candidate :=
  let firstWatch := ((sortedDates watchedDates).head?).getD []
  match ((candidates.filter (isEligible firstWatch)).insertionSort
      fun a b ↦ a.voteCount ≥ b.voteCount) with
  | leader :: runnerUp :: rest =>
    let otherVotes := runnerUp.voteCount + (rest.map Candidate.voteCount).sum
    if leader.releaseDate.isEmpty = true ∨ leader.voteCount < 1000 ∨
        leader.voteCount < 4 * max 1 otherVotes ∨
        leader.popularity < 3 / 2 * max 1 runnerUp.popularity then none
    else some leader
  | _ => none

variable (py : Python) (service : Service)

section grouping

def parts (title : Text) : List Text := ((title.splitOn ':').map py.strip).filter (· ≠ [])

def joined (parts : List Text) : Text := ": ".toList.intercalate parts

/-- A title of a show that may hold a colon, and the parts behind it. -/
def longTitle (row : Observation) : Option (Text × List Text) :=
  if truthy row.showTitle then
    match parts py row.sourceTitle with
    | first :: second :: last :: tail =>
      if service.seasonNumber second first = none then some (joined [first, second], last :: tail)
      else none
    | _ => none
  else none

def splitAt (row : Observation) (long : Text) : List Text → Observation
  | label :: title :: tail =>
    { row with
      showTitle := some long
      seasonLabel := some label
      seasonNumber := service.seasonNumber label long
      episodeTitle := some (joined (title :: tail)) }
  | tail =>
    { row with
      showTitle := some long
      seasonLabel := none
      seasonNumber := none
      episodeTitle := tail.head? }

/-- A show that is found under the longer title takes the row. -/
def resolveTitle (row : Observation) : Observation :=
  match longTitle py service row with
  | some (long, tail) =>
    if (service.search .show (py.normText long)).any Candidate.exact then splitAt service row long tail
    else row
  | none => row

def isShowRow (row : Observation) : Bool :=
  truthy row.showTitle && (truthy row.episodeTitle || truthy row.seasonLabel)

abbrev Group := Text × List Observation

def addTo (group : Group) (row : Observation) : Group := (group.1, group.2 ++ [row])

def groupBy (key : Observation → Text) (rows : List Observation) : List Group :=
  rows.foldl (insertWith Prod.fst (fun row ↦ (key row, [row])) addTo) []

def showKey (row : Observation) : Text := normOf py row.showTitle

def movieKey (row : Observation) : Text := py.normText row.sourceTitle

def showRows (rows : List Observation) : List Group := groupBy (showKey py) (rows.filter isShowRow)

def movieRows (rows : List Observation) : List Group :=
  groupBy (movieKey py) (rows.filter fun row ↦ !isShowRow row)

end grouping

section items

def stableId (kind : Kind) (normalizedTitle : Text) : Text :=
  kind.value ++ ':' :: (service.digest normalizedTitle).take 18

def rowsOf (observations : List Observation) : List ℕ := observations.flatMap Observation.sourceRows

def datesOf (observations : List Observation) : List Text :=
  sortedDates (observations.map Observation.watchedAt)

def titleOf (observations : List Observation) : Text :=
  (observations.head?.map Observation.sourceTitle).getD []

def showTitleOf (observations : List Observation) : Text :=
  ((observations.head?.bind fun row ↦ orNone row.showTitle)).getD (titleOf observations)

def isAnonymous (title : Text) : Bool := decide ((title.dropWhile py.isSpace).head? = some ':')

def bareTitle (title : Text) : Text := py.strip (title.dropWhile fun c ↦ c == ':' || c == ' ')

/-- An unmatched episode that is kept for review. -/
def reviewEpisode (row : Observation) (season : Option Int) (label title : Option Text)
    (reason : String) : Episode where
  matched := false
  seasonNumber := season
  episodeNumber := none
  seasonLabel := label
  sourceEpisodeTitle := title
  sourceTitle := some row.sourceTitle
  title := title
  watchedDates := [row.watchedAt]
  dates := []
  sourceRows := some (row.sourceRows.map Int.ofNat)
  sourceRowNumbers := []
  tmdbEpisodeId := none
  airDate := none
  confidence := some "low"
  resolution := none
  reason := some reason
  coveredBy := none

/-- A group without a match, for review under a kind of title. -/
def reviewItem (normalizedTitle sourceTitle : Text) (observations : List Observation)
    (reason : String) (episodes : List Episode) : Item where
  id := stableId service .show normalizedTitle
  kind := .show
  sourceTitle := sourceTitle
  dates := datesOf observations
  sourceRows := rowsOf observations
  tmdbId := none
  title := none
  year := none
  posterPath := none
  mediaType := none
  isAnime := false
  confidence := "low"
  reason := reason
  status := "review"
  episodes := episodes
  suggestions := []
  unresolvedSourceRows := []

def anonymousItem (group : Group) : Item :=
  reviewItem service group.1 (titleOf group.2) group.2
    "Netflix omitted this episode's show title. Choose the show and episode manually, or skip it."
    (group.2.map fun row ↦ reviewEpisode row none none (some (bareTitle py row.sourceTitle))
      "The show title is missing from this Netflix row.")

def unresolvedItem (group : Group) : Item :=
  reviewItem service group.1 (showTitleOf group.2) group.2 "No matching show was found."
    (group.2.map fun row ↦ reviewEpisode row row.seasonNumber row.seasonLabel row.episodeTitle
      "No show metadata candidate was found.")

def unidentifiedItem (group : Group) : Item :=
  reviewItem service group.1 (showTitleOf group.2) group.2
    "Could not identify the source entry as a show or movie." []

/-- The one exact film of the search results, or the dominant one. -/
def certainMovie (candidates : List Candidate) (dates : List Text) : Option Candidate :=
  match candidates.filter Candidate.exact with
  | [candidate] => some candidate
  | exact => dominantExactMovie exact dates

def movieCandidate (candidates : List Candidate) (dates : List Text) : Option Candidate :=
  (certainMovie candidates dates).or candidates.head?

def movieConfidence (candidates : List Candidate) (dates : List Text) : String :=
  if (certainMovie candidates dates).isSome then "high"
  else if (movieCandidate candidates dates).any fun c ↦ decide (3 / 5 ≤ c.similarity) then "medium"
  else "low"

def movieReason (candidates : List Candidate) (dates : List Text) : String :=
  if (candidates.filter Candidate.exact).length = 1 then "Exact movie title match."
  else if (certainMovie candidates dates).isSome then
    "Exact title with a clearly dominant TMDB audience match."
  else if (movieCandidate candidates dates).isSome then "Possible movie match; confirm the title."
  else "No matching movie was found."

def movieItem (group : Group) : Item :=
  let candidates := service.search .movie group.1
  let dates := group.2.map Observation.watchedAt
  let candidate := movieCandidate candidates dates
  { id := stableId service .movie group.1
    kind := .movie
    sourceTitle := titleOf group.2
    dates := datesOf group.2
    sourceRows := rowsOf group.2
    tmdbId := candidate.bind Candidate.tmdbId
    title := candidate.map Candidate.title
    year := candidate.bind Candidate.year
    posterPath := candidate.bind Candidate.posterPath
    mediaType := candidate.map fun _ ↦ .movie
    isAnime := candidate.any isAnimeCandidate
    confidence := movieConfidence candidates dates
    reason := movieReason candidates dates
    status := if movieConfidence candidates dates = "high" then "matched" else "review"
    episodes := []
    suggestions := (candidates.take 5).map fun c ↦
      visibleCandidate (if c.exact then "high" else "medium") "Movie title search candidate" c
    unresolvedSourceRows := [] }

def hasCandidate (group : Group) : Bool :=
  (movieCandidate (service.search .movie group.1) (group.2.map Observation.watchedAt)).isSome

def promotedItem (row : Observation) (candidate : Candidate) : Item where
  id := stableId service .movie (movieKey py row)
  kind := .movie
  sourceTitle := row.sourceTitle
  dates := [row.watchedAt]
  sourceRows := row.sourceRows
  tmdbId := candidate.tmdbId
  title := some candidate.title
  year := candidate.year
  posterPath := candidate.posterPath
  mediaType := some .movie
  isAnime := isAnimeCandidate candidate
  confidence := "high"
  reason := "Exact movie title match; the possible episode candidate did not match."
  status := "matched"
  episodes := []
  suggestions := [visibleCandidate "high" "Exact movie title match" candidate]
  unresolvedSourceRows := []

def showItem (group : Group) : Item :=
  let found := service.evaluate group.1 group.2 (service.search .show group.1)
  { id := stableId service .show group.1
    kind := .show
    sourceTitle := showTitleOf group.2
    dates := datesOf group.2
    sourceRows := rowsOf group.2
    tmdbId := found.candidate.tmdbId
    title := some found.candidate.title
    year := found.candidate.year
    posterPath := found.candidate.posterPath
    mediaType := some .show
    isAnime := found.isAnime
    confidence := found.confidence
    reason := found.reason
    status := if found.confidence = "high" then "matched" else "review"
    episodes := found.episodes
    suggestions := found.suggestions
    unresolvedSourceRows := [] }

end items

section finalize

/-- The films so far, the source rows that were promoted to films, and the shows. -/
structure Promotion where
  movies : List Item
  rows : List ℕ
  shows : List Item

/-- The show might be a film after all. -/
def Item.reviewed (item : Item) (row : Observation) : Item :=
  { item with
    confidence := match item.tmdbId with
      | some id => if id ≠ 0 then "medium" else "low"
      | none => "low"
    status := "review"
    reason := "The colon-form entry could be a movie or an episode; confirm the correct match."
    unresolvedSourceRows := item.unresolvedSourceRows ++ row.sourceRows }

def reviewShow (id : Text) (row : Observation) : List Item → List Item
  | [] => []
  | item :: rest => if item.id = id then item.reviewed row :: rest else item :: reviewShow id row rest

def promotedMovie (row : Observation) : Option Candidate :=
  certainMovie (service.search .movie (movieKey py row)) [row.watchedAt]

def promoteRow (id : Text) (st : Promotion) (row : Observation) : Promotion :=
  match promotedMovie py service row with
  | some candidate =>
    { st with
      movies := st.movies ++ [promotedItem py service row candidate]
      rows := st.rows ++ row.sourceRows }
  | none => { st with shows := reviewShow id row st.shows }

def hasExactEpisode (item : Item) : Bool :=
  item.episodes.any fun ep ↦ decide (ep.resolution = some "exact")

/-- Season labels and exact episodes keep a group from being taken for films. -/
def mayBeMovies (shows : List Item) (group : Group) : Bool :=
  !group.2.any (fun row ↦ truthy row.seasonLabel) &&
    !(shows.find? fun item ↦ decide (item.id = stableId service .show group.1)).any hasExactEpisode

def promoteGroup (st : Promotion) (group : Group) : Promotion :=
  if mayBeMovies service st.shows group then
    group.2.foldl (promoteRow py service (stableId service .show group.1)) st
  else st

def fullyPromoted (promotedRows : List ℕ) (observations : List Observation) : Bool :=
  decide (rowsOf observations ≠ [] ∧ ∀ row ∈ rowsOf observations, row ∈ promotedRows)

def observationsOf (groups : List Group) (key : Text) : List Observation :=
  ((groups.find? fun group ↦ decide (group.1 = key)).map Prod.snd).getD []

def mergeMovie (current item : Item) : Item :=
  { current with
    dates := sortedDates (current.dates ++ item.dates)
    sourceRows := current.sourceRows ++ item.sourceRows }

def mergeMovies (movies : List Item) : List Item :=
  movies.foldl (insertWith Item.id id mergeMovie) []

/-- A group of plain titles is a film if there is a candidate for it. -/
def plainMovie (group : Group) : Bool :=
  !isAnonymous py (titleOf group.2) && hasCandidate service group

def plainUnmatched (group : Group) : Option Item :=
  if isAnonymous py (titleOf group.2) then some (anonymousItem py service group)
  else if hasCandidate service group then none
  else some (movieItem service group)

def finalizeTitleMatches (movieRows showRows : List Group) (shows : List Item)
    (unresolved : List Text) : Prepared :=
  let promotion := showRows.foldl (promoteGroup py service)
    ⟨(movieRows.filter (plainMovie py service)).map (movieItem service), [], shows⟩
  let isFull := fullyPromoted promotion.rows
  let shows := promotion.shows.filter fun item ↦
    !isFull (observationsOf showRows (py.normText item.sourceTitle))
  let left := (unresolved.insertionSort (· ≤ ·)).filter fun key ↦ !isFull (observationsOf showRows key)
  let unmatched := movieRows.filterMap (plainUnmatched py service) ++
    left.map fun key ↦ unresolvedItem service (key, observationsOf showRows key)
  let knownIds := (promotion.movies ++ shows ++ unmatched).map Item.id
  let unknown := showRows.filter fun group ↦
    decide (stableId service .show group.1 ∉ knownIds) && !isFull group.2
  ⟨mergeMovies promotion.movies, shows, unmatched ++ unknown.map (unidentifiedItem service)⟩

def isResolved (group : Group) : Bool := !(service.search .show group.1).isEmpty

/-- The matching draft of the observations, once every title is searched. -/
def prepareNetflixImport (observations : List Observation) : Prepared :=
  let rows := observations.map (resolveTitle py service)
  finalizeTitleMatches py service (movieRows py rows) (showRows py rows)
    (((showRows py rows).filter (isResolved service)).map (showItem service))
    (((showRows py rows).filter fun group ↦ !isResolved service group).map Prod.fst)

end finalize

end AnyList.Imports.TitleGroups
