import AnyList.Backup.HistoryFiles
import AnyList.Library.Dict

namespace AnyList.Backup

open AnyList.Library

structure Rating where
  media : Media
  seasonNumber : Option Int
  episodeOrder : Option String
  rating : Option ℚ
  ratedAt : Int

structure Collected where
  media : Media
  addedAt : Int

structure ListItem where
  media : Media
  seasonNumber : Option Int
  addedAt : Int
  sortOrder : Int
  notes : Option String

inductive PrivacyLevel
  | publicLevel
  | friendsOnly
  | privateLevel

structure MediaList where
  name : String
  description : Option String
  privacyLevel : PrivacyLevel
  traktSlug : Option String
  mdblistSlug : Option String
  items : List ListItem

structure Comment where
  mediaType : String
  tmdbId : Int
  seasonNumber : Option Int
  episodeNumber : Option Int
  content : String
  isSpoiler : Bool
  createdAt : Int

/-- The rows of an account, with the ids of its lists. -/
structure Account where
  ratings : List Rating
  collection : List Collected
  lists : List (ℕ × MediaList)
  comments : List Comment
  nodup : (lists.map Prod.fst).Nodup

inductive Kind
  | movies
  | shows
  | seasons
  | episodes
  deriving DecidableEq

structure ByKind (α : Type) where
  movies : List α
  shows : List α
  seasons : List α
  episodes : List α

namespace ByKind

variable {α : Type}

def of (kind : α → Kind) (entries : List α) : ByKind α where
  movies := entries.filter fun a ↦ kind a = .movies
  shows := entries.filter fun a ↦ kind a = .shows
  seasons := entries.filter fun a ↦ kind a = .seasons
  episodes := entries.filter fun a ↦ kind a = .episodes

def entries (b : ByKind α) : List α := b.movies ++ b.shows ++ b.seasons ++ b.episodes

end ByKind

section ratings

inductive Subject
  | movie (tmdbId : Option Int)
  | series (tmdbId : Option Int)
  | season (showTmdbId : Option Int) (number : Int)
  | episode (showTmdbId : Option Int) (season number : Int)

def Subject.kind : Subject → Kind
  | movie _ => .movies
  | series _ => .shows
  | season _ _ => .seasons
  | episode _ _ _ => .episodes

structure RatingEntry where
  ratedAt : Int
  rating : Option Int
  subject : Subject

/-- To the nearest integer, and to the even one of two. -/
def round (q : ℚ) : Int :=
  if q - q.floor < 1 / 2 then q.floor
  else if 1 / 2 < q - q.floor then q.floor + 1
  else if q.floor % 2 = 0 then q.floor
  else q.floor + 1

def Rating.subject (rating : Rating) : Option Subject :=
  match rating.media.mediaType, rating.seasonNumber, rating.media.seasonNumber,
    rating.media.episodeNumber with
  | .movie, _, _, _ => some (.movie rating.media.tmdbId)
  | .series, none, _, _ => some (.series rating.media.tmdbId)
  | .series, some number, _, _ => some (.season rating.media.tmdbId number)
  | .episode, _, some season, some number =>
    some (.episode rating.media.showTmdbId season number)
  | _, _, _, _ => none

def ratingEntry (rating : Rating) : Option RatingEntry :=
  rating.subject.map fun subject ↦ ⟨toSecond rating.ratedAt, rating.rating.map round, subject⟩

def buildRatings (rows : List Rating) : ByKind RatingEntry :=
  .of (fun entry ↦ entry.subject.kind) (rows.filterMap ratingEntry)

end ratings

section collection

structure CollectionEntry where
  collectedAt : Int
  target : Target

def CollectionEntry.isMovie (entry : CollectionEntry) : Bool :=
  match entry.target with
  | .movie _ => true
  | .episode _ _ _ => false

def collectionEntry (row : Collected) : Option CollectionEntry :=
  row.media.target.map fun target ↦ ⟨toSecond row.addedAt, target⟩

/-- The movies and the episodes of a collection. -/
def buildCollection (rows : List Collected) : List CollectionEntry × List CollectionEntry :=
  ((rows.filterMap collectionEntry).filter CollectionEntry.isMovie,
    (rows.filterMap collectionEntry).filter fun entry ↦ !entry.isMovie)

end collection

section lists

inductive ListTarget
  | movie (tmdbId : Option Int)
  | series (tmdbId : Option Int)

structure ListEntry where
  rank : ℕ
  listedAt : Int
  notes : Option String
  target : ListTarget

structure ListMeta where
  id : ℕ
  name : String
  description : String
  privacy : PrivacyLevel
  itemCount : ℕ
  slug : List Char

/-- What lower case makes of a character, as far as it yields letters from a to z: only two
characters from elsewhere do. -/
def lower (c : Char) : List Char :=
  if c = Char.ofNat 0x212A then ['k']
  else if c = Char.ofNat 0x0130 then ['i', Char.ofNat 0x0307]
  else [c.toLower]

def isSlugChar (c : Char) : Bool := ('a' ≤ c && c ≤ 'z') || ('0' ≤ c && c ≤ '9')

/-- Every run of other characters as one dash. -/
def dashed (afterDash : Bool) : List Char → List Char
  | [] => []
  | c :: cs =>
    if isSlugChar c then c :: dashed false cs
    else if afterDash then dashed true cs
    else '-' :: dashed true cs

def stripDashes (cs : List Char) : List Char :=
  ((cs.dropWhile fun c ↦ c = '-').reverse.dropWhile fun c ↦ c = '-').reverse

def slugify (name : String) : List Char :=
  match stripDashes (dashed false (name.toList.flatMap lower)) with
  | [] => "list".toList
  | slug => slug

def listTarget (media : Media) : Option ListTarget :=
  match media.mediaType with
  | .movie => some (.movie media.tmdbId)
  | .series => some (.series media.tmdbId)
  | _ => none

def inOrder (items : List ListItem) : List ListItem :=
  items.mergeSort fun a b ↦ decide (a.sortOrder ≤ b.sortOrder)

def listEntries (items : List ListItem) : List ListEntry :=
  ((inOrder items).zipIdx 1).filterMap fun row ↦
    (listTarget row.1.media).map fun target ↦
      ⟨row.2, toSecond row.1.addedAt, row.1.notes, target⟩

def watchlistSlugs : List String :=
  ["__watchlist__", "__watchlist_movies__", "__watchlist_shows__", "__plex_watchlist__"]

namespace MediaList

def isWatchlist (lst : MediaList) : Bool :=
  watchlistSlugs.any fun slug ↦ lst.traktSlug = some slug || lst.mdblistSlug = some slug

def slug (lst : MediaList) : List Char := slugify lst.name

def entries (lst : MediaList) : List ListEntry := listEntries lst.items

end MediaList

def listMeta (row : ℕ × MediaList) : ListMeta where
  id := row.1
  name := row.2.name
  description := row.2.description.getD ""
  privacy := row.2.privacyLevel
  itemCount := row.2.entries.length
  slug := row.2.slug

def watchlistItems (lists : List (ℕ × MediaList)) : List ListEntry :=
  (lists.filter fun row ↦ row.2.isWatchlist).flatMap fun row ↦ row.2.entries

def customLists (lists : List (ℕ × MediaList)) : List (ℕ × MediaList) :=
  lists.filter fun row ↦ !row.2.isWatchlist

def listItemsBySlug (lists : List (ℕ × MediaList)) : Dict (List Char) (List ListEntry) :=
  Dict.empty.setAll ((customLists lists).map fun row ↦ (row.2.slug, row.2.entries))

def listItemsPrefix : List Char := "lists-list-".toList

def jsonSuffix : List Char := ".json".toList

def listItemsName (id : ℕ) (slug : List Char) : List Char :=
  listItemsPrefix ++ (Nat.toDigits 10 id ++ '-' :: (slug ++ jsonSuffix))

/-- The id of the first list of a slug. -/
def ownerId (lists : List (ℕ × MediaList)) (slug : List Char) : ℕ :=
  (((customLists lists).map listMeta).find? fun m ↦ decide (m.slug = slug)).elim 0 ListMeta.id

def listFiles (lists : List (ℕ × MediaList)) : List (List Char × List ListEntry) :=
  (listItemsBySlug lists).entries.map fun entry ↦
    (listItemsName (ownerId lists entry.1) entry.1, entry.2)

end lists

section comments

inductive CommentSubject
  | movie (tmdbId : Int)
  | series (tmdbId : Int)
  | season (showTmdbId number : Int)
  | episode (tmdbId : Int) (season number : Option Int)

def CommentSubject.kind : CommentSubject → Kind
  | movie _ => .movies
  | series _ => .shows
  | season _ _ => .seasons
  | episode _ _ _ => .episodes

structure CommentEntry where
  createdAt : Int
  comment : String
  spoiler : Bool
  subject : CommentSubject

def Comment.subject (c : Comment) : Option CommentSubject :=
  if c.mediaType = "movie" then some (.movie c.tmdbId)
  else if c.mediaType = "series" then
    match c.seasonNumber with
    | none => some (.series c.tmdbId)
    | some number => some (.season c.tmdbId number)
  else if c.mediaType = "episode" then some (.episode c.tmdbId c.seasonNumber c.episodeNumber)
  else none

def commentEntry (c : Comment) : Option CommentEntry :=
  c.subject.map fun subject ↦ ⟨toSecond c.createdAt, c.content, c.isSpoiler, subject⟩

def buildComments (rows : List Comment) : ByKind CommentEntry :=
  .of (fun entry ↦ entry.subject.kind) (rows.filterMap commentEntry)

end comments

section archive

/-- The files of an archive, those in parts by their numbers. -/
structure Archive where
  ratings : ByKind RatingEntry
  collectionMovies : List (List CollectionEntry)
  collectionEpisodes : List (List CollectionEntry)
  watchlist : List ListEntry
  lists : List ListMeta
  listFiles : List (List Char × List ListEntry)
  comments : ByKind CommentEntry

def collectionChunkSize : ℕ := 2000

def chunked {α : Type} (items : List α) (size : ℕ) : List (List α) :=
  (List.range ((items.length + size - 1) / size)).map fun i ↦ (items.drop (i * size)).take size

/-- An empty category still has one file. -/
def collectionChunks (items : List CollectionEntry) : List (List CollectionEntry) :=
  if items.isEmpty then [[]] else chunked items collectionChunkSize

def buildExportZip (account : Account) : Archive where
  ratings := buildRatings account.ratings
  collectionMovies := collectionChunks (buildCollection account.collection).1
  collectionEpisodes := collectionChunks (buildCollection account.collection).2
  watchlist := watchlistItems account.lists
  lists := (customLists account.lists).map listMeta
  listFiles := listFiles account.lists
  comments := buildComments account.comments

end archive

end AnyList.Backup
