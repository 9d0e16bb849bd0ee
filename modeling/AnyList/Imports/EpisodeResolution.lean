import AnyList.Imports.ViewingHistory
import AnyList.Library.Dict
import AnyList.Library.FirstByKey
import Mathlib.Data.Char
import Mathlib.Data.List.Lex
import Mathlib.Data.List.Sort
import Mathlib.Data.Prod.Lex

namespace AnyList.Imports.EpisodeResolution

open AnyList.Library AnyList.Library.FirstByKey AnyList.Imports.ViewingHistory

/-- A season and an episode number, in aired order. -/
abbrev Position := Int ×ₗ Int

/-- The normalized season label and title of a source record. -/
abbrev Key := Text × Text

/-- A source record of a show; a value that is absent is `none`. -/
structure Episode where
  matched : Bool
  seasonNumber : Option Int
  episodeNumber : Option Int
  seasonLabel : Option Text
  sourceEpisodeTitle : Option Text
  sourceTitle : Option Text
  title : Option Text
  watchedDates : List Text
  dates : List Text
  /-- Without a list of source rows the row numbers count. -/
  sourceRows : Option (List Int)
  sourceRowNumbers : List Int
  tmdbEpisodeId : Option Int
  airDate : Option Text
  confidence : Option String
  resolution : Option String
  reason : Option String
  coveredBy : Option Position
  deriving DecidableEq

structure CatalogEpisode where
  seasonNumber : Option Int
  episodeNumber : Option Int
  title : Option Text
  tmdbEpisodeId : Option Int
  airDate : Option Text
  releaseDate : Option Text
  deriving DecidableEq

/-- A viewing of the record with an index; a later row of the file is an older viewing. -/
structure Event where
  date : Text
  row : Int
  index : ℕ
  deriving DecidableEq

/-- Viewings of unknown episodes between two exact ones. -/
structure Run where
  left : Option Position
  events : List Event
  right : Option Position
  deriving DecidableEq

inductive Guess
  | guessed (position : Position)
  | covered (position : Position)
  | discarded
  deriving DecidableEq

/-- The guesses by title, in the order they were made, and the positions that are taken. -/
structure State where
  outcomes : List (Key × Guess)
  reserved : List Position

variable (py : Python) (today : Int)

/-- Numbers other than zero give a position. -/
def positionFrom : Option Int → Option Int → Option Position
  | some season, some episode =>
    if season ≠ 0 ∧ episode ≠ 0 then some (toLex (season, episode)) else none
  | _, _ => none

def CatalogEpisode.position (ep : CatalogEpisode) : Option Position :=
  positionFrom ep.seasonNumber ep.episodeNumber

def orNone (text : Option Text) : Option Text := text.filter (· ≠ [])

def CatalogEpisode.released (ep : CatalogEpisode) : Option Text :=
  (orNone ep.airDate).or ep.releaseDate

/-- Malformed or missing dates speak for no viewing before the release. -/
def episodeReleasedBy (ep : CatalogEpisode) (watchedAt : Text) : Bool :=
  match (orNone ep.airDate).or (orNone ep.releaseDate) with
  | none => true
  | some raw =>
    match py.fromIsoFormat (raw.take 10), py.fromIsoFormat watchedAt with
    | some air, some watched => decide (air ≤ today ∧ air ≤ watched)
    | _, _ => true

variable (records : List Episode) (catalogue : List CatalogEpisode)

/-- The last of the episodes at a position. -/
def catalog (position : Position) : Option CatalogEpisode :=
  (catalogue.filter fun ep ↦ decide (ep.position = some position)).getLast?

def positions : List Position :=
  (catalogue.filterMap CatalogEpisode.position).dedup.insertionSort (· ≤ ·)

section events

def datesOf (record : Episode) : List Text :=
  (if record.watchedDates ≠ [] then record.watchedDates else record.dates).dedup.insertionSort
    (· ≤ ·)

def rowsOf (record : Episode) : List Int :=
  (record.sourceRows.getD record.sourceRowNumbers).insertionSort (· ≥ ·)

/-- A record without dates counts as one viewing. -/
def viewingDates (record : Episode) : List Text :=
  if datesOf record = [] then [[]] else datesOf record

def viewings (index : ℕ) (record : Episode) : List Event :=
  (viewingDates record).mapIdx fun i date ↦
    ⟨date, -((rowsOf record)[min i ((rowsOf record).length - 1)]?.getD 0), index⟩

def Event.order (event : Event) : Text ×ₗ Int ×ₗ ℕ :=
  toLex (event.date, toLex (event.row, event.index))

def events : List Event :=
  (records.mapIdx viewings).flatten.insertionSort fun a b ↦ a.order ≤ b.order

def Episode.positionOf (record : Episode) : Option Position :=
  if record.matched then positionFrom record.seasonNumber record.episodeNumber else none

def anchorOf (event : Event) : Option Position := records[event.index]?.bind Episode.positionOf

def groups : List (List Event) := (events records).splitOnP fun event ↦ (anchorOf records event).isSome

def anchors : List Position := (events records).filterMap (anchorOf records)

def runs : List Run :=
  (groups records).mapIdx fun i group ↦
    ⟨if i = 0 then none else (anchors records)[i - 1]?, group, (anchors records)[i]?⟩

end events

section titles

def normOf (text : Option Text) : Text := py.normText (text.getD [])

def Episode.key (record : Episode) : Key :=
  (normOf py record.seasonLabel,
    normOf py ((orNone record.sourceEpisodeTitle).or ((orNone record.sourceTitle).or record.title)))

def keyOf (event : Event) : Key := (records[event.index]?.map (Episode.key py)).getD ([], [])

/-- The seasons of the exact matches with a label. -/
def labelSeasons (label : Text) : List Int :=
  (records.filterMap fun record ↦
    if record.matched ∧ record.seasonNumber ≠ some 0 ∧ (orNone record.seasonLabel).isSome ∧
        normOf py record.seasonLabel = label then record.seasonNumber
    else none).dedup

def mappedSeason (record : Episode) : Option Int :=
  match labelSeasons py records (normOf py record.seasonLabel) with
  | [season] => some season
  | _ => none

def startSeason (record : Episode) : Int :=
  (mappedSeason py records record).getD
    (match record.seasonNumber with
      | some season => if season ≠ 0 then season else 1
      | none => 1)

def hintedSeason (record : Episode) : Option Int :=
  (mappedSeason py records record).or record.seasonNumber

end titles

section assignment

def Run.Between (run : Run) (position : Position) : Prop :=
  (∀ left, run.left = some left → left < position) ∧
    ∀ right, run.right = some right → position < right

instance Run.decidableBetween (run : Run) (position : Position) :
    Decidable (run.Between position) :=
  inferInstanceAs (Decidable (_ ∧ _))

/-- A run without an exact match starts in its season, one before the first exact match ends
right before it. -/
def trimmed (run : Run) (unique : List Event) (available : List Position) : List Position :=
  match run.left, run.right, unique with
  | none, none, first :: _ => available.filter fun position ↦
      decide ((records[first.index]?.map (startSeason py records)).getD 1 ≤ (ofLex position).1)
  | none, some _, _ :: _ => available.drop (available.length - unique.length)
  | _, _, _ => available

def available (run : Run) (unique : List Event) (reserved : List Position) : List Position :=
  trimmed py records run unique
    ((positions catalogue).filter fun position ↦ decide (position ∉ reserved ∧ run.Between position))

/-- Whether a position can be given to a viewing behind the last one that was. -/
def Fits (last : Option Position) (used : List Position) (event : Event) (position : Position) : Prop :=
  position ∉ used ∧ (∀ l, last = some l → l < position) ∧
    (∀ season, records[event.index]?.bind (hintedSeason py records) = some season →
      season ≤ (ofLex position).1) ∧
    (catalog catalogue position).any (episodeReleasedBy py today · event.date) = true

instance decidableFits (last : Option Position) (used : List Position) (event : Event)
    (position : Position) : Decidable (Fits py today records catalogue last used event position) :=
  inferInstanceAs (Decidable (_ ∧ _ ∧ _ ∧ _))

def assignRun (run : Run) (available : List Position) :
    Option Position → List Position → List Event → List (Event × Guess)
  | _, _, [] => []
  | last, used, event :: rest =>
    match available.find? fun position ↦
        decide (Fits py today records catalogue last used event position) with
    | some chosen =>
      (event, .guessed chosen) :: assignRun run available (some chosen) (chosen :: used) rest
    | none => (event, run.right.elim .discarded .covered) :: assignRun run available last used rest

def Guess.position : Guess → Option Position
  | .guessed position => some position
  | _ => none

def uniqueViewings (known : List Key) (run : Run) : List Event :=
  firsts (keyOf py records) known run.events

def resolveRun (st : State) (run : Run) : State :=
  let unique := uniqueViewings py records (st.outcomes.map Prod.fst) run
  let assigned := assignRun py today records catalogue run
    (available py records catalogue run unique st.reserved) run.left [] unique
  ⟨st.outcomes ++ assigned.map fun entry ↦ (keyOf py records entry.1, entry.2),
    st.reserved ++ assigned.filterMap fun entry ↦ entry.2.position⟩

def resolveRuns : State :=
  (runs records).foldl (resolveRun py today records catalogue) ⟨[], anchors records⟩

end assignment

section outcomes

def unmatchedReason : String := "No unique exact episode title match was found."

/-- A review reason of its own stays. -/
def reasonOr (record : Episode) (reason : String) : Option String :=
  match record.reason with
  | none => some reason
  | some own => if own = "" ∨ own = unmatchedReason then some reason else some own

def guessedEpisode (record : Episode) (position : Position) (ep : CatalogEpisode) : Episode :=
  { record with
    seasonNumber := some (ofLex position).1
    episodeNumber := some (ofLex position).2
    title := ep.title
    tmdbEpisodeId := ep.tmdbEpisodeId
    airDate := ep.released
    matched := true
    confidence := some "medium"
    resolution := some "guessed"
    reason := some "Position inferred from CSV viewing order and nearby exact episode matches." }

def finish (st : State) (record : Episode) : Episode :=
  if record.matched then { record with resolution := some (record.resolution.getD "exact") }
  else match Dict.getEntry (record.key py) st.outcomes with
  | some (.guessed position) => match catalog catalogue position with
    | some ep => guessedEpisode record position ep
    | none => record
  | some (.covered right) =>
    { record with
      resolution := some "covered"
      coveredBy := some right
      matched := false
      reason := reasonOr record "Covered by confirmed progress." }
  | _ =>
    { record with
      resolution := some "discarded"
      matched := false
      reason := reasonOr record "No released catalogue position could be assigned." }

def resolveNetflixEpisodes : List Episode :=
  records.map (finish py catalogue (resolveRuns py today records catalogue))

end outcomes

end AnyList.Imports.EpisodeResolution
