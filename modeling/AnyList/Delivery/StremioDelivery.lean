import AnyList.Delivery.StremioPayloads
import AnyList.Library.Dict
import Mathlib.Order.Basic

namespace AnyList.Delivery.StremioDelivery

open AnyList.Library AnyList.Delivery.WatchedBitfield AnyList.Delivery.StremioPayloads

inductive MediaType
  | movie
  | series
  | episode
  | person
  deriving DecidableEq

/-- A title as the delivery reads it, its IMDb id looked up where it was missing. -/
structure Media where
  id : ℕ
  mediaType : MediaType
  title : String
  tmdbId : Option ℕ
  tvdbId : Option ℕ
  imdbId : Option String
  showId : Option ℕ
  seasonNumber : Option Int
  episodeNumber : Option Int
  deriving DecidableEq

structure Show where
  id : ℕ
  title : String
  tmdbId : Option ℕ
  tvdbId : Option ℕ
  imdbId : Option String
  deriving DecidableEq

structure WatchEvent where
  mediaId : ℕ
  completed : Bool
  watchedAt : Option Int
  createdAt : Int
  deriving DecidableEq

structure Database where
  media : List Media
  shows : List Show
  events : List WatchEvent
  tracked : List ℕ

namespace Database

variable (db : Database)

def findMedia (mediaId : ℕ) : Option Media := db.media.find? fun media ↦ decide (media.id = mediaId)

def findShow (media : Media) : Option Show :=
  media.showId.bind fun showId ↦ db.shows.find? fun show' ↦ decide (show'.id = showId)

def plays (mediaId : ℕ) : List WatchEvent :=
  db.events.filter fun event ↦ decide (event.mediaId = mediaId) && event.completed

/-- An unknown-dated play never masks an actual known date. -/
def latestWatchedAt (mediaId : ℕ) : Option Int :=
  ((db.plays mediaId).filterMap WatchEvent.watchedAt).max?

def isTracked (media : Media) : Bool :=
  decide (media.id ∈ db.tracked) ||
    decide (media.mediaType = .episode) && (db.findShow media).any fun show' ↦
      db.media.any fun series ↦
        decide (series.id ∈ db.tracked ∧ series.mediaType = .series) &&
          ((show'.tmdbId.any fun id ↦ decide (series.tmdbId = some id)) ||
            (show'.tvdbId.any fun id ↦ decide (series.tvdbId = some id)))

def contentId (media : Media) : Option String :=
  match db.findShow media with
  | some show' => show'.imdbId
  | none => media.imdbId

/-- The record a title is written under; none without an identifier. -/
def mediaRecord (mediaId : ℕ) : Option WatchRecord := do
  let media ← db.findMedia mediaId
  let contentId ← db.contentId media
  match media.mediaType, db.findShow media, media.seasonNumber, media.episodeNumber with
  | .episode, some show', some season, some episode =>
    some ⟨contentId, .series, show'.title, some season, some episode, true, none⟩
  | .movie, _, _, _ => some ⟨contentId, .movie, media.title, none, none, true, none⟩
  | .series, _, _, _ => some ⟨contentId, .series, media.title, none, none, true, none⟩
  | _, _, _, _ => none

def watchedItem (media : Media) (watchedAt : Option Int) : Option WatchRecord :=
  match media.mediaType, media.seasonNumber, media.episodeNumber with
  | .movie, _, _ => media.imdbId.map fun contentId ↦
    ⟨contentId, .movie, media.title, none, none, true, watchedAt⟩
  | .episode, some season, some episode =>
    ((db.findShow media).bind Show.imdbId).map fun contentId ↦
      ⟨contentId, .series, media.title, some season, some episode, true, watchedAt⟩
  | .series, _, _ => media.imdbId.map fun contentId ↦
    ⟨contentId, .series, media.title, none, none, true, watchedAt⟩
  | _, _, _ => none

def epochMs (t : Int) : Int := t.tdiv 1000

/-- The tracked titles among the given ones that have a completed play. -/
def buildWatchedItems (mediaIds : List ℕ) : List WatchRecord :=
  (db.media.filter fun media ↦ decide (media.id ∈ mediaIds) && decide (db.plays media.id ≠ []) &&
      db.isTracked media).filterMap fun media ↦
    db.watchedItem media (((db.latestWatchedAt media.id).or
      ((db.plays media.id).head?.map WatchEvent.createdAt)).map epochMs)

end Database

def watchKey (record : WatchRecord) : String × Option Int × Option Int :=
  (record.contentId, record.season, record.episode)

def byKey (records : List WatchRecord) : List ((String × Option Int × Option Int) × WatchRecord) :=
  records.map fun record ↦ (watchKey record, record)

def overrideRecords (db : Database) (overrides : List (ℕ × Bool)) : List WatchRecord :=
  overrides.filterMap fun (mediaId, watched) ↦
    (db.mediaRecord mediaId).map fun record ↦
      { record with
        watched := watched
        watchedAt := if watched then (db.latestWatchedAt mediaId).map Database.epochMs else none }

def changedContentIds (db : Database) (mediaIds : List ℕ) : List String :=
  mediaIds.filterMap fun mediaId ↦ (db.mediaRecord mediaId).map WatchRecord.contentId

/-- The watch records of a watch-only push: the projected plays of the changed titles,
with the overrides written over them. -/
def watchedRecords (db : Database) (overrides : List (ℕ × Bool)) : List WatchRecord :=
  let mediaIds := overrides.map Prod.fst
  let watchedByKey := (Dict.empty.setAll (byKey (db.buildWatchedItems mediaIds))).setAll
    (byKey (overrideRecords db overrides))
  watchedByKey.values.filter fun record ↦
    decide (record.contentId ∈ changedContentIds db mediaIds)

abbrev Library := Dict String Item

/-- The catalogue entries are fetched for the series among the records. -/
def seriesMeta (catalogue : String → Option (List Video)) (records : List WatchRecord)
    (contentId : String) : List Video :=
  if records.any fun record ↦ decide (record.contentType = .series ∧ record.contentId = contentId)
  then (catalogue contentId).getD []
  else []

section push

variable (texts : Texts) (now : String) (meta' : String → List Video) (remote : Library)

def writeRecord (candidates : Library) (record : WatchRecord) : Library :=
  let contentId := record.contentId
  match (candidates.get contentId).or (remote.get contentId) with
  | some baseItem =>
    candidates.set contentId (withWatchState texts baseItem record (meta' contentId))
  | none =>
    if record.watched then
      candidates.set contentId
        (withWatchState texts (newLibraryItem record now false) record (meta' contentId))
    else candidates

def changes (candidates : Library) : List (String × Item) :=
  candidates.entries.filterMap fun (contentId, candidate) ↦
    let candidate := { candidate with mtime := now }
    if (remote.get contentId).any fun existing ↦ sameItem existing candidate then none
    else some (contentId, candidate)

def batchSize : ℕ := 500

/-- One write of the provider; a failed one ends the push. -/
def putBatch (putError : ℕ → Option String) (changes : List (String × Item))
    (acc : Library × Option String) (n : ℕ) : Library × Option String :=
  match acc.2, putError n with
  | some error, _ => (acc.1, some error)
  | none, some error => (acc.1, some error)
  | none, none => (acc.1.setAll ((changes.drop (n * batchSize)).take batchSize), none)

def putChanges (putError : ℕ → Option String) (changes : List (String × Item)) :
    Library × Option String :=
  (List.range ((changes.length + batchSize - 1) / batchSize)).foldl (putBatch putError changes)
    (remote, none)

end push

/-- What the outside answers during one push: the error that ends its reads, if any,
the error of each write, the catalogue and the clock. -/
structure Answers where
  readError : Option String
  putError : ℕ → Option String
  catalogue : String → Option (List Video)
  now : String

/-- A watch-only push: the library it leaves and the error it raises, if any. -/
def pushConnection (texts : Texts) (db : Database) (answers : Answers) (remote : Library)
    (overrides : List (ℕ × Bool)) : Library × Option String :=
  match answers.readError with
  | some error => (remote, some error)
  | none =>
    let records := watchedRecords db overrides
    let meta' := seriesMeta answers.catalogue records
    let candidates := records.foldl (writeRecord texts answers.now meta' remote) Dict.empty
    putChanges remote answers.putError (changes answers.now remote candidates)

end AnyList.Delivery.StremioDelivery
