import AnyList.Imports.Plays
import AnyList.Library.LocalFold

namespace AnyList.Backup

open AnyList.Imports

inductive MediaType
  | movie
  | series
  | episode
  | person
  deriving DecidableEq

structure Media where
  mediaType : MediaType
  tmdbId : Option Int
  /-- The catalogue id of the show that an episode belongs to. -/
  showTmdbId : Option Int
  seasonNumber : Option Int
  episodeNumber : Option Int

inductive Target
  | movie (tmdbId : Option Int)
  | episode (showTmdbId : Option Int) (season number : Int)

/-- An entry of the exported history, whose date has the precision of a second. -/
structure HistoryEntry where
  watchedAt : Option Int
  dateInferred : Bool
  target : Target

def toSecond (t : Int) : Int := t - t % 1000000

/-- The oldest first, and what has no date last. -/
def dateLe : Option Int → Option Int → Bool
  | _, none => true
  | none, some _ => false
  | some s, some t => decide (s ≤ t)

def Media.target (media : Media) : Option Target :=
  match media.mediaType, media.seasonNumber, media.episodeNumber with
  | .movie, _, _ => some (.movie media.tmdbId)
  | .episode, some season, some number => some (.episode media.showTmdbId season number)
  | _, _, _ => none

def historyEntry (row : Play × Media) : Option HistoryEntry :=
  row.2.target.map fun target ↦ ⟨row.1.watchedAt.map toSecond, row.1.dateInferred, target⟩

/-- The completed plays of an account in the order in which they are exported. -/
def chronological (rows : List (Play × Media)) : List (Play × Media) :=
  (rows.filter fun row ↦ row.1.completed).mergeSort fun a b ↦ dateLe a.1.watchedAt b.1.watchedAt

def buildHistory (rows : List (Play × Media)) : List HistoryEntry :=
  (chronological rows).filterMap historyEntry

open AnyList.Timestamps AnyList.Imports AnyList.Library
open AnyList.Reconciliation.Watches (isDuplicateWatchTime dedupWindowMinutes)

/-- A title as the catalogue names it. -/
inductive Identity
  | movie (tmdbId : Int)
  | series (tmdbId : Int)
  | episode (showTmdbId season number : Int)
  deriving DecidableEq

/-- An id of zero counts as none. -/
def present (id : Option Int) : Option Int := id.filter fun id ↦ id ≠ 0

def Target.identity : Target → Option Identity
  | movie tmdbId => (present tmdbId).map .movie
  | episode showTmdbId season number => (present showTmdbId).map fun id ↦ .episode id season number

def HistoryEntry.isMovie (entry : HistoryEntry) : Bool :=
  match entry.target with
  | .movie _ => true
  | .episode _ _ _ => false

/-- The plays of a title during an import, with the times that count against duplicates. -/
structure TitleState where
  plays : List Play
  times : List Int

def TitleState.load (plays : List Play) : TitleState := ⟨plays, plays.map Play.effectiveTime⟩

section restore

variable (window : ℕ) (now : Int)

def isDuplicatePlay (times : List Int) (watchedAt : Option Int) : Bool :=
  match watchedAt with
  | none => !times.isEmpty
  | some t => isDuplicateWatchTime times t window

def restoredPlay (watchedAt : Option Int) (sourceInferred : Bool) : Play where
  watchedAt := some (watchedAt.getD (milliseconds now))
  createdAt := now
  completed := true
  dateInferred := sourceInferred || watchedAt.isNone
  dateShared := false
  provisional := false

def addPlay (s : TitleState) (watchedAt : Option Int) (sourceInferred : Bool) : TitleState :=
  if isDuplicatePlay window s.times watchedAt then s
  else
    { plays := s.plays ++ [restoredPlay now watchedAt sourceInferred]
      times := s.times ++ [watchedAt.getD (milliseconds now)] }

/-- An exact date may turn out to be the one of an estimate; any other play is added unless it is a
duplicate. -/
def importPlay (s : TitleState) (watchedAt : Option Int) (sourceInferred : Bool) : TitleState :=
  match watchedAt, sourceInferred with
  | some t, false =>
    match reconcileInferredWatchDate s.plays t false with
    | some plays => ⟨plays, s.times ++ [t]⟩
    | none => addPlay window now s (some t) false
  | watchedAt, inferred => addPlay window now s watchedAt inferred

variable (found : Identity → Bool)

/-- The title of an entry, if it has one that the catalogue finds. -/
def HistoryEntry.title (entry : HistoryEntry) : Option Identity :=
  entry.target.identity.filter found

def importEntries (titles : Identity → TitleState) (entries : List (Identity × HistoryEntry)) :
    Identity → TitleState :=
  entries.foldl (fun titles entry ↦
    Function.update titles entry.1
      (importPlay window now (titles entry.1) entry.2.watchedAt entry.2.dateInferred)) titles

/-- The movies of a history are imported before its episodes. -/
def importHistory (history : List HistoryEntry) (plays : Identity → List Play) :
    Identity → List Play :=
  let entries := history.filter HistoryEntry.isMovie ++ history.filter fun entry ↦ !entry.isMovie
  fun i ↦ (importEntries window now (fun i ↦ .load (plays i)) (entries.filterMap fun entry ↦
    (entry.title found).map fun i ↦ (i, entry)) i).plays

end restore

end AnyList.Backup
