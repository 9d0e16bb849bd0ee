import AnyList.Backup.AccountExport
import AnyList.Library.KeyedInserts

namespace AnyList.Backup

open AnyList.Library AnyList.Library.KeyedInserts

structure ScrobImportData where
  ratings : ByKind RatingEntry
  collectionMovies : List CollectionEntry
  collectionEpisodes : List CollectionEntry
  watchlist : List ListEntry
  lists : List ListMeta
  listItems : Dict (List Char) (List ListEntry)
  comments : ByKind CommentEntry

section parse

/-- The number in the name of a file of list items. -/
def listItemsId (name : List Char) : Option ℕ :=
  if listItemsPrefix.isPrefixOf name then
    let rest := name.drop listItemsPrefix.length
    match rest.takeWhile Char.isDigit, rest.dropWhile Char.isDigit with
    | digit :: digits, '-' :: _ :: tail =>
      if jsonSuffix.isSuffixOf tail then some (Nat.ofDigitChars 10 (digit :: digits) 0) else none
    | _, _ => none
  else none

def fileOfList (files : List (List Char × List ListEntry)) (id : ℕ) :
    Option (List Char × List ListEntry) :=
  files.find? fun file ↦ decide (listItemsId file.1 = some id)

def readListItems (lists : List ListMeta) (files : List (List Char × List ListEntry)) :
    Dict (List Char) (List ListEntry) :=
  Dict.empty.setAll (lists.filterMap fun m ↦
    (fileOfList files m.id).map fun file ↦ (m.slug, file.2))

def maxEntrySize : ℕ := 100 * 1024 * 1024

def maxTotalSize : ℕ := 500 * 1024 * 1024

/-- Nothing is read of an archive whose files are too large. -/
def parseScrobExport (entrySizes : Archive → List ℕ) (archive : Archive) : Option ScrobImportData :=
  if (entrySizes archive).all (fun size ↦ decide (size ≤ maxEntrySize)) &&
      decide ((entrySizes archive).sum ≤ maxTotalSize) then
    some
      { ratings := archive.ratings
        collectionMovies := archive.collectionMovies.flatten
        collectionEpisodes := archive.collectionEpisodes.flatten
        watchlist := archive.watchlist
        lists := archive.lists
        listItems := readListItems archive.lists archive.listFiles
        comments := archive.comments }
  else none

end parse

/-- The rows that an import leaves in an account that had none. -/
structure Restored where
  ratings : List Rating
  collection : List Collected
  lists : List MediaList
  comments : List Comment

def Media.title (media : Media) : Option Identity :=
  match media.mediaType, media.seasonNumber, media.episodeNumber with
  | .movie, _, _ => (present media.tmdbId).map .movie
  | .series, _, _ => (present media.tmdbId).map .series
  | .episode, some season, some number =>
    (present media.showTmdbId).map fun id ↦ .episode id season number
  | _, _, _ => none

/-- The row of a title, whose own id the catalogue gives to an episode. -/
def Identity.media : Identity → Media
  | movie tmdbId => ⟨.movie, some tmdbId, none, none, none⟩
  | series tmdbId => ⟨.series, some tmdbId, none, none, none⟩
  | episode showTmdbId season number => ⟨.episode, none, some showTmdbId, some season, some number⟩

section apply

variable (found : Identity → Bool)

section ratings

def projectScore (value : ℚ) : Int := max 0 (min 10 (value + 1 / 2).floor)

def integerProviderScore (value : ℚ) : Int := max 1 (min 10 (projectScore value))

def isProjectedEcho (current : Option ℚ) (value : ℚ) : Bool :=
  match current with
  | none => false
  | some current => decide (integerProviderScore current = value.floor)

def Subject.title : Subject → Option (Identity × Option Int)
  | movie tmdbId => (present tmdbId).map fun id ↦ (.movie id, none)
  | series tmdbId => (present tmdbId).map fun id ↦ (.series id, none)
  | season tmdbId number => (present tmdbId).map fun id ↦ (.series id, some number)
  | episode tmdbId inSeason number =>
    (present tmdbId).map fun id ↦ (.episode id inSeason number, none)

def RatingEntry.resolve (entry : RatingEntry) : Option Rating := do
  let title ← entry.subject.title.filter fun title ↦ found title.1
  let value ← entry.rating
  return ⟨title.1.media, title.2, none, some value, entry.ratedAt⟩

def Rating.key (rating : Rating) : Option Identity × Option Int :=
  (rating.media.title, rating.seasonNumber)

def applyImportedRating (current rating : Rating) : Rating :=
  if current.rating = rating.rating ∨ isProjectedEcho current.rating (rating.rating.getD 0) then
    current
  else { current with rating := rating.rating, ratedAt := rating.ratedAt }

def importRatings (existing : List Rating) (ratings : ByKind RatingEntry) : List Rating :=
  (ratings.entries.filterMap (RatingEntry.resolve found)).foldl
    (insertWith Rating.key id applyImportedRating) existing

end ratings

section collection

def CollectionEntry.resolve (entry : CollectionEntry) : Option Collected :=
  (entry.target.identity.filter found).map fun i ↦ ⟨i.media, entry.collectedAt⟩

def addToCollection (existing : List Collected) (entries : List CollectionEntry) :
    List Collected :=
  (entries.filterMap (CollectionEntry.resolve found)).foldl
    (insertWith (fun row ↦ row.media.title) id fun row _ ↦ row) existing

end collection

section lists

def ListTarget.identity : ListTarget → Option Identity
  | movie tmdbId => (present tmdbId).map .movie
  | series tmdbId => (present tmdbId).map .series

def ListEntry.resolve (now : Int) (entry : ListEntry) : Option ListItem :=
  (entry.target.identity.filter found).map fun i ↦ ⟨i.media, none, now, 0, none⟩

variable (now : Int)

def addItems (items : List ListItem) (entries : List ListEntry) : List ListItem :=
  (entries.filterMap (ListEntry.resolve found now)).foldl
    (insertWith (fun item ↦ item.media.title) id fun item _ ↦ item) items

def watchlistSlug : String := "__watchlist__"

def newWatchlist : MediaList := ⟨"Watchlist", none, .privateLevel, some watchlistSlug, none, []⟩

def importWatchlist (lists : List MediaList) (entries : List ListEntry) : List MediaList :=
  if lists.any fun lst ↦ lst.traktSlug = some watchlistSlug then
    lists.map fun lst ↦
      if lst.traktSlug = some watchlistSlug then
        { lst with items := addItems found now lst.items entries }
      else lst
  else if entries.isEmpty then lists
  else lists ++ [{ newWatchlist with items := addItems found now [] entries }]

variable (items : Dict (List Char) (List ListEntry))

def entriesOf (m : ListMeta) : List ListEntry := (items.get m.slug).getD []

def newList (m : ListMeta) : MediaList where
  name := m.name
  description := if m.description = "" then none else some m.description
  privacyLevel := m.privacy
  traktSlug := none
  mdblistSlug := none
  items := addItems found now [] (entriesOf items m)

def extendList (lst : MediaList) (m : ListMeta) : MediaList :=
  { lst with items := addItems found now lst.items (entriesOf items m) }

/-- A list is matched by its name, and one without a name is left out. -/
def importLists (lists : List MediaList) (metas : List ListMeta) : List MediaList :=
  (metas.filter fun m ↦ m.name ≠ "").foldl
    (insertWith MediaList.name (newList found now items) (extendList found now items)) lists

end lists

section comments

def CommentEntry.resolve (entry : CommentEntry) : Option Comment :=
  match entry.subject with
  | .movie id => if id = 0 then none
    else some ⟨"movie", id, none, none, entry.comment, entry.spoiler, entry.createdAt⟩
  | .series id => if id = 0 then none
    else some ⟨"series", id, none, none, entry.comment, entry.spoiler, entry.createdAt⟩
  | .season id number => if id = 0 then none
    else some ⟨"series", id, some number, none, entry.comment, entry.spoiler, entry.createdAt⟩
  | .episode id season number => if id = 0 then none
    else some ⟨"episode", id, season, number, entry.comment, entry.spoiler, entry.createdAt⟩

structure CommentKey where
  mediaType : String
  tmdbId : Int
  seasonNumber : Option Int
  episodeNumber : Option Int
  content : String
  deriving DecidableEq

def Comment.key (c : Comment) : CommentKey :=
  ⟨c.mediaType, c.tmdbId, c.seasonNumber, c.episodeNumber, c.content⟩

def importComments (existing : List Comment) (comments : ByKind CommentEntry) : List Comment :=
  (comments.entries.filterMap CommentEntry.resolve).foldl
    (insertWith Comment.key id fun c _ ↦ c) existing

end comments

def applyScrobImport (now : Int) (data : ScrobImportData) : Restored where
  ratings := importRatings found [] data.ratings
  collection := addToCollection found (addToCollection found [] data.collectionMovies)
    data.collectionEpisodes
  lists := importLists found now data.listItems (importWatchlist found now [] data.watchlist)
    data.lists
  comments := importComments [] data.comments

end apply

end AnyList.Backup
