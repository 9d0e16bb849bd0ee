import AnyList.Library.UniqueRows
import AnyList.Persistence.Values
import Mathlib.Data.List.MinMax
import Mathlib.Data.Prod.Lex

namespace AnyList.Migrations

open AnyList.Library.UniqueRows
open AnyList.Persistence (CollectionSource)

inductive MediaType
  | movie | series | episode | person
  deriving DecidableEq

variable {κ δ π : Type*} [DecidableEq κ]

/-- A row of `media`; `rest` stands for the columns that the migration does not read. -/
structure Media (π : Type*) where
  id : ℕ
  tmdbId : Option ℤ
  mediaType : MediaType
  seasonNumber : Option ℤ
  episodeNumber : Option ℤ
  rest : π

/-- A row of a table that refers to `media`, by the columns of its unique key and the others. -/
structure Dependent (δ π : Type*) where
  id : ℕ
  mediaId : ℕ
  columns : δ
  rest : π

structure ItemColumns where
  listId : ℕ
  seasonNumber : Option ℤ

structure RatingColumns where
  userId : ℕ
  seasonNumber : Option ℤ
  episodeOrder : Option String

structure CollectionFile (π : Type*) where
  id : ℕ
  collectionId : ℕ
  source : CollectionSource
  sourceId : Option String
  rest : π

/-- The tables; the columns of a translation are its language, those of a rewatch's progress its
rewatch, those of a playback's progress and of a collection their user. -/
structure Tables (π : Type*) where
  media : List (Media π)
  watchEvents : List (Dependent Unit π)
  playbackSessions : List (Dependent Unit π)
  mediaTranslations : List (Dependent String π)
  listItems : List (Dependent ItemColumns π)
  ratings : List (Dependent RatingColumns π)
  rewatchProgress : List (Dependent ℕ π)
  playbackProgress : List (Dependent ℕ π)
  collections : List (Dependent ℕ π)
  collectionFiles : List (CollectionFile π)

def ItemColumns.key (columns : ItemColumns) : ℕ × ℤ :=
  (columns.listId, columns.seasonNumber.getD (-1))

def RatingColumns.key (columns : RatingColumns) : ℕ × ℤ × String :=
  (columns.userId, columns.seasonNumber.getD (-1), columns.episodeOrder.getD "tmdb")

def Dependent.key (key : δ → κ) (r : Dependent δ π) : Option (κ × ℕ) := some (key r.columns, r.mediaId)

def CollectionFile.key (f : CollectionFile π) : Option (ℕ × CollectionSource × String) :=
  f.sourceId.map fun sourceId ↦ (f.collectionId, f.source, sourceId)

def Media.key (m : Media π) : Option (ℤ × MediaType) :=
  m.tmdbId.map fun tmdbId ↦ (tmdbId, m.mediaType)

section dedup

variable (media : List (Media π))

/-- The first of the rows that share the id and the type of a row. -/
def firstValue (m : Media π) : Media π :=
  ((media.filter fun n ↦ decide (n.tmdbId = m.tmdbId ∧ n.mediaType = m.mediaType)).argmin
    Media.id).getD m

/-- The losers with their winners. -/
def mediaDedup : List (ℕ × ℕ) :=
  (media.filter fun m ↦ decide (m.tmdbId.isSome ∧ m.id ≠ (firstValue media m).id ∧
    m.seasonNumber = (firstValue media m).seasonNumber ∧
    m.episodeNumber = (firstValue media m).episodeNumber)).map fun m ↦
      (m.id, (firstValue media m).id)

def isLoser (dedup : List (ℕ × ℕ)) (id : ℕ) : Bool := dedup.any fun d ↦ decide (d.1 = id)

def mediaTmdbUnlink (dedup : List (ℕ × ℕ)) : List ℕ :=
  (media.filter fun m ↦ decide (m.tmdbId.isSome ∧ m.id ≠ (firstValue media m).id) &&
    !isLoser dedup m.id).map Media.id

end dedup

section dependents

variable (dedup : List (ℕ × ℕ))

def winnerOf (id : ℕ) : Option ℕ := (dedup.find? fun d ↦ decide (d.1 = id)).map Prod.snd

def repoint (r : Dependent δ π) : Dependent δ π :=
  { r with mediaId := (winnerOf dedup r.mediaId).getD r.mediaId }

/-- Whether the winner or an earlier row of another loser covers a loser's row. -/
def covered (key : δ → κ) (rows : List (Dependent δ π)) (r : Dependent δ π) : Bool :=
  (winnerOf dedup r.mediaId).any fun winner ↦
    (rows.any fun s ↦ decide (s.mediaId = winner ∧ key s.columns = key r.columns)) ||
      rows.any fun s ↦ decide (winnerOf dedup s.mediaId = some winner ∧
        key s.columns = key r.columns ∧ s.id < r.id)

def mergeInto (key : δ → κ) (rows : List (Dependent δ π)) : Option (List (Dependent δ π)) :=
  updateEach (Dependent.key key) (repoint dedup) []
    (rows.filter fun r ↦ !covered dedup key rows r)

def mergeTranslations (rows : List (Dependent String π)) : Option (List (Dependent String π)) :=
  mergeInto dedup id rows

def mergeItems (rows : List (Dependent ItemColumns π)) :
    Option (List (Dependent ItemColumns π)) :=
  mergeInto dedup ItemColumns.key rows

def mergeRatings (rows : List (Dependent RatingColumns π)) :
    Option (List (Dependent RatingColumns π)) :=
  mergeInto dedup RatingColumns.key rows

def mergeRewatchProgress (rows : List (Dependent ℕ π)) : Option (List (Dependent ℕ π)) :=
  mergeInto dedup id rows

def mergePlaybackProgress (rows : List (Dependent ℕ π)) : Option (List (Dependent ℕ π)) :=
  mergeInto dedup id rows

end dependents

section collections

variable (dedup : List (ℕ × ℕ)) (collections : List (Dependent ℕ π))

/-- The winner of the group that a media row is a member of. -/
def groupOf (id : ℕ) : Option ℕ :=
  (winnerOf dedup id).or (if dedup.any fun d ↦ decide (d.2 = id) then some id else none)

/-- A user's collection in a group that the others are merged into. -/
def collectionTarget (winner userId : ℕ) : Option ℕ :=
  ((collections.filter fun c ↦
      decide (groupOf dedup c.mediaId = some winner ∧ c.columns = userId)).argmin fun c ↦
    toLex (decide (c.mediaId ≠ winner), c.id)).map Dependent.id

/-- The target of a collection; `collections` are those that the targets were chosen from. -/
def targetOf (c : Dependent ℕ π) : Option ℕ :=
  (groupOf dedup c.mediaId).bind fun winner ↦ collectionTarget dedup collections winner c.columns

/-- Where a file has to move to. -/
def destination (f : CollectionFile π) : Option ℕ :=
  ((collections.find? fun c ↦ decide (c.id = f.collectionId)).bind fun c ↦
    (targetOf dedup collections c).filter (· ≠ c.id))

def hasFile (files : List (CollectionFile π)) (target : ℕ) (f : CollectionFile π) : Bool :=
  files.any fun g ↦
    decide (g.collectionId = target ∧ g.source = f.source ∧ g.sourceId = f.sourceId)

def moveFile (files : List (CollectionFile π)) (f : CollectionFile π) : CollectionFile π :=
  match destination dedup collections f with
  | some target => if hasFile files target f then f else { f with collectionId := target }
  | none => f

def mergeFiles (files : List (CollectionFile π)) : Option (List (CollectionFile π)) :=
  (updateEach CollectionFile.key (moveFile dedup collections files) [] files).map fun moved ↦
    moved.filter fun f ↦ (destination dedup collections f).isNone

def repointTarget (c : Dependent ℕ π) : Dependent ℕ π :=
  if targetOf dedup collections c = some c.id then
    { c with mediaId := (groupOf dedup c.mediaId).getD c.mediaId }
  else c

def mergeCollections : Option (List (Dependent ℕ π)) :=
  (updateEach (Dependent.key id) (repointTarget dedup collections) [] collections).map fun moved ↦
    moved.filter fun c ↦ (targetOf dedup collections c).all (· = c.id)

end collections

section cascade

variable (dedup : List (ℕ × ℕ))

/-- The rows that a deletion of the losers leaves. -/
def spared (rows : List (Dependent δ π)) : List (Dependent δ π) :=
  rows.filter fun r ↦ !isLoser dedup r.mediaId

def hasCollection (collections : List (Dependent ℕ π)) (f : CollectionFile π) : Bool :=
  collections.any fun c ↦ decide (c.id = f.collectionId)

/-- The files that are left when collections are deleted. -/
def sparedFiles (before after : List (Dependent ℕ π)) (files : List (CollectionFile π)) :
    List (CollectionFile π) :=
  files.filter fun f ↦ !hasCollection before f || hasCollection after f

/-- The losers are deleted, with all that still refers to them, and the rows that are not merged
lose their id. -/
def deleteLosers (unlinked : List ℕ) (db : Tables π) : Tables π where
  media := (db.media.filter fun m ↦ !isLoser dedup m.id).map fun m ↦
    if m.id ∈ unlinked then { m with tmdbId := none } else m
  watchEvents := spared dedup db.watchEvents
  playbackSessions := spared dedup db.playbackSessions
  mediaTranslations := spared dedup db.mediaTranslations
  listItems := spared dedup db.listItems
  ratings := spared dedup db.ratings
  rewatchProgress := spared dedup db.rewatchProgress
  playbackProgress := spared dedup db.playbackProgress
  collections := spared dedup db.collections
  collectionFiles :=
    sparedFiles db.collections (spared dedup db.collections) db.collectionFiles

end cascade

/-- The upgrade; a statement that violates a unique key aborts it. -/
def upgrade (db : Tables π) : Option (Tables π) := do
  let dedup := mediaDedup db.media
  let unlinked := mediaTmdbUnlink db.media dedup
  let mediaTranslations ← mergeTranslations dedup db.mediaTranslations
  let listItems ← mergeItems dedup db.listItems
  let ratings ← mergeRatings dedup db.ratings
  let rewatchProgress ← mergeRewatchProgress dedup db.rewatchProgress
  let playbackProgress ← mergePlaybackProgress dedup db.playbackProgress
  let collectionFiles ← mergeFiles dedup db.collections db.collectionFiles
  let collections ← mergeCollections dedup db.collections
  let merged := deleteLosers dedup unlinked
    { media := db.media
      watchEvents := db.watchEvents.map (repoint dedup)
      playbackSessions := db.playbackSessions.map (repoint dedup)
      mediaTranslations := mediaTranslations
      listItems := listItems
      ratings := ratings
      rewatchProgress := rewatchProgress
      playbackProgress := playbackProgress
      collections := collections
      collectionFiles := sparedFiles db.collections collections collectionFiles }
  if UniqueOn Media.key merged.media then some merged else none

end AnyList.Migrations
