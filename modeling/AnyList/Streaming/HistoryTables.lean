import AnyList.Streaming.Imported

namespace AnyList.Streaming

open AnyList.Library

/-- What a row of the catalogue is; only an episode has a show and a place in it. -/
inductive RowKind
  | movie
  | series
  | episode (showId : Option ℕ) (season number : Option Int)
  deriving DecidableEq

structure MediaRow where
  id : ℕ
  tmdbId : Option Int
  tvdbId : Option Int
  kind : RowKind
  releaseDate : Option String
  catalogueRefreshed : Bool

structure ShowRow where
  id : ℕ
  tmdbId : Option Int
  tvdbId : Option Int

namespace MediaRow

def isSeries (row : MediaRow) : Bool := decide (row.kind = .series)

/-- The place of a regular episode in its show, if its season and number are known. -/
def position (row : MediaRow) : ℕ ×ₗ ℕ ×ₗ Int :=
  match row.kind with
  | .episode _ season number =>
    -- a missing number sorts last
    toLex (season.getD 0 |>.toNat, toLex (if number = none then 1 else 0, number.getD 0))
  | _ => toLex (0, toLex (0, 0))

def isReleasedRegular (today : String) (row : MediaRow) : Bool :=
  match row.kind with
  | .episode _ season _ =>
    decide (0 < season.getD 0) && row.releaseDate.any fun date ↦ decide (date ≤ today)
  | _ => false

def showId (row : MediaRow) : Option ℕ :=
  match row.kind with
  | .episode showId _ _ => showId
  | _ => none

def toEpisode (row : MediaRow) : Episode :=
  match row.kind with
  | .episode _ season number => ⟨row.id, season.getD 0, number.getD 0⟩
  | _ => ⟨row.id, 0, 0⟩

end MediaRow

section parents

variable (media : List MediaRow) (shows : List ShowRow)

/-- The series of an identifier; of two the later one is taken. -/
def seriesBy (identifier : MediaRow → Option Int) (id : Option Int) : Option ℕ := do
  let id ← id
  let row ← (media.filter fun row ↦
    row.isSeries && decide (identifier row = some id ∧ id ≠ 0)).getLast?
  return row.id

/-- The series of a show, by its TMDB identifier or else by its TVDB one. -/
def seriesOfShow (show' : ShowRow) : Option ℕ :=
  (seriesBy media MediaRow.tmdbId show'.tmdbId).or (seriesBy media MediaRow.tvdbId show'.tvdbId)

/-- The title that the viewing of a row counts for. -/
def parent (row : MediaRow) : Option ℕ :=
  match row.kind with
  | .episode showId _ _ => do
    let id ← showId
    let show' ← shows.find? fun show' ↦ decide (show'.id = id)
    seriesOfShow media show'
  | _ => some row.id

end parents

/-- The tables of the catalogue, where each series has one show at most. -/
structure Tables where
  media : List MediaRow
  shows : List ShowRow
  nodup : (media.map MediaRow.id).Nodup
  oneShow : ∀ s ∈ shows, ∀ s' ∈ shows, ∀ title, seriesOfShow media s = some title →
    seriesOfShow media s' = some title → s.id = s'.id

namespace Tables

variable (tables : Tables) (today : String)

def row (id : ℕ) : Option MediaRow := tables.media.find? fun row ↦ decide (row.id = id)

def ordered (rows : List MediaRow) : List Episode :=
  (rows.insertionSort fun a b ↦ a.position ≤ b.position).map MediaRow.toEpisode

/-- The released regular episodes of a show, in order. -/
def episodesOf (showId : ℕ) : List Episode :=
  ordered (tables.media.filter fun row ↦
    row.isReleasedRegular today && decide (row.showId = some showId))

/-- The released regular episodes that are filed under a series, in order. -/
def releasedOf (title : ℕ) : List Episode :=
  ordered (tables.media.filter fun row ↦
    row.isReleasedRegular today && decide (parent tables.media tables.shows row = some title))

/-- What an import reads of the tables. -/
def catalogue : Catalogue where
  media := tables.media.filterMap fun row ↦
    match row.kind with
    | .movie => some ⟨row.id, .movie, row.tmdbId.getD 0, none⟩
    | .series => some ⟨row.id, .series, row.tmdbId.getD 0, none⟩
    | .episode _ _ _ => none
  released title := some (tables.releasedOf today title)
  refreshed id := (tables.row id).any MediaRow.catalogueRefreshed
  watchedMedia _ _ _ _ := none
  seriesOf _ := none
  titleOf id := (tables.row id).bind (parent tables.media tables.shows)
  siblings id := ((tables.row id).bind MediaRow.showId).map (tables.episodesOf today)
  regular _ := []

end Tables

end AnyList.Streaming
