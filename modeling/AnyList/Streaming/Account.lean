import AnyList.Streaming.Rows
import AnyList.Reconciliation.Watches

namespace AnyList.Streaming

open AnyList.Library AnyList.Timestamps
open AnyList.Reconciliation.Watches (Status)

inductive ConnectionType
  | nuvio
  | stremio
  | mediaServer
  deriving DecidableEq

structure Connection where
  id : ℕ
  name : String
  type : ConnectionType
  pushPlayback : Bool
  pushWatched : Bool
  deriving DecidableEq

inductive StatusSource
  | owner
  | connection (type : ConnectionType) (id : ℕ)
  | other (name : String)
  deriving DecidableEq

def Connection.source (conn : Connection) : StatusSource := .connection conn.type conn.id

structure TrackedEntry where
  status : Status
  progress : ℕ
  startDate : Option Int
  finishDate : Option Int
  statusSource : StatusSource
  statusChangedAt : Option Int
  updatedAt : Int
  deriving DecidableEq

namespace TrackedEntry

/-- The dedicated status time, or the row's own for rows that predate it. -/
def changedAt (entry : TrackedEntry) : Int :=
  milliseconds (entry.statusChangedAt.getD entry.updatedAt)

def markStatusChange (entry : TrackedEntry) (source : StatusSource) (changedAt : Int) :
    TrackedEntry :=
  { entry with statusSource := source, statusChangedAt := some (milliseconds changedAt) }

end TrackedEntry

def observedStatus (previous : Option Status) (completed playing : Bool) : Status :=
  if previous = some .completed ∨ completed = true then .completed
  else if playing then .watching
  else previous.getD .planning

def defaultDates (previous : Option Status) (status : Status) (start finish : Option Int)
    (today : Int) : Option Int × Option Int :=
  if some status = previous then (start, finish)
  else (if status = .watching ∧ start = none then some today else start,
    if status = .completed ∧ finish = none then some today else finish)

inductive ReviewKind
  | initialImport
  | conflict
  | playbackRemoved
  | outboundPending
  | other (name : String)
  deriving DecidableEq

inductive ReviewState
  | pending
  | confirmed
  | corrected
  | dismissed
  deriving DecidableEq

structure FieldChange where
  field : String
  previous : Option ℚ
  proposed : Option ℚ
  deriving DecidableEq

structure ReviewPayload where
  changes : List FieldChange
  localChangedAt : Option Int
  providerChangedAt : Option Int
  previousObservedAt : Option Int
  deriving DecidableEq

structure SyncReview where
  connectionId : ℕ
  mediaId : Option ℕ
  kind : ReviewKind
  state : ReviewState
  previousStatus : Option Status
  proposedStatus : Option Status
  message : String
  payload : Option ReviewPayload
  dismissedAt : Option Int
  deriving DecidableEq

/-- Whose reset a tombstone waits for: a streaming connection or a cloud tracker. -/
inductive Target
  | connection (id : ℕ)
  | provider (name : String)
  deriving DecidableEq

structure TrackingDeletion where
  mediaId : ℕ
  deletedAt : Int
  pendingConnections : List Target
  deriving DecidableEq

structure Play where
  mediaId : ℕ
  completed : Bool
  watchedAt : Option Int
  dateInferred : Bool
  dateShared : Bool
  createdAt : Int
  deriving DecidableEq

/-- A call to the queues and activity cards of other modules, with its arguments. -/
inductive Call
  | dismissals (mediaId : ℕ)
  | progressUpdate (mediaId : ℕ) (row : Row)
  | dailyActivity (mediaId : ℕ) (status : Status) (statusChanged : Bool)
      (previousStatus : Option Status) (firstWatching : Bool)
  | progressActivity (mediaId : ℕ) (previousProgress progress : ℕ) (status : Status)
      (statusChanged : Bool) (previousStatus : Option Status) (firstWatching : Bool)
  | completionRating (mediaId : ℕ)
  deriving DecidableEq

/-- What an observation may change of an account beside its tombstones and baselines. `playing`
and `rated` are the films and episodes with a resume position and the titles with a rating. -/
structure Tracking where
  entries : Dict ℕ TrackedEntry
  reviews : List SyncReview
  plays : List Play
  playing : List ℕ
  rated : List ℕ
  calls : List Call

namespace Tracking

def addReview (t : Tracking) (review : SyncReview) : Tracking :=
  { t with reviews := t.reviews ++ [review] }

def setEntry (t : Tracking) (mediaId : ℕ) (entry : TrackedEntry) : Tracking :=
  { t with entries := t.entries.set mediaId entry }

def call (t : Tracking) (call : Call) : Tracking := { t with calls := t.calls ++ [call] }

/-- A title with an open card about its playback. -/
def hasPending (t : Tracking) (mediaId : ℕ) : Bool :=
  t.reviews.any fun review ↦ decide (review.mediaId = some mediaId ∧ review.state = .pending ∧
    (review.kind = .playbackRemoved ∨ review.kind = .conflict))

def isWatched (t : Tracking) (mediaId : ℕ) : Bool :=
  t.plays.any fun play ↦ decide (play.mediaId = mediaId) && play.completed

end Tracking

structure Episode where
  mediaId : ℕ
  season : Int
  number : Int
  deriving DecidableEq

structure Media where
  id : ℕ
  kind : Kind
  tmdbId : Int
  imdbId : Option String
  deriving DecidableEq

/-- The shared catalogue: its films and series, the released regular episodes of a series in
order, whether these are verified, the film or episode a watch row names, the show of an
episode by its TMDB identifier, the title a film or an episode belongs to, the released regular
episodes beside an episode, and all the regular episodes of a show. -/
structure Catalogue where
  media : List Media
  released : ℕ → Option (List Episode)
  refreshed : ℕ → Bool
  watchedMedia : Kind → Int → Option Int → Option Int → Option ℕ
  seriesOf : ℕ → Option Int
  titleOf : ℕ → Option ℕ
  siblings : ℕ → Option (List Episode)
  regular : Int → List ℕ

def Catalogue.byId (cat : Catalogue) (mediaId : ℕ) : Option Media :=
  cat.media.find? fun media ↦ decide (media.id = mediaId)

def Catalogue.find (cat : Catalogue) (tmdbId : Int) (kind : Kind) : Option Media :=
  (cat.media.filter fun media ↦ decide (media.tmdbId = tmdbId ∧ media.kind = kind)).getLast?

inductive Surface
  | tv
  | mobile
  deriving DecidableEq

/-- The stored snapshot of one connection. -/
structure Stored where
  library : Finset String
  progress : Dict String Row
  mappings : Dict String Int
  resume : Dict String Row
  outbound : Dict String Row
  nuvioVisibility : Surface → Option (List String)
  visibilityEcho : Surface → Option (Dict String Bool)
  watched : Finset (String × Option Int × Option Int)
  progressCompleted : Finset (String × Option Int × Option Int)
  recordsLibrary : List Row
  recordsWatched : List Row
  recordsProgress : List Row
  clearGuard : Option (Option Int)
  others : List (String × String)

def Stored.empty : Stored where
  library := ∅
  progress := .empty
  mappings := .empty
  resume := .empty
  outbound := .empty
  nuvioVisibility _ := none
  visibilityEcho _ := none
  watched := ∅
  progressCompleted := ∅
  recordsLibrary := []
  recordsWatched := []
  recordsProgress := []
  clearGuard := none
  others := []

structure StreamBaseline where
  snapshot : Stored
  approved : Bool
  observedAt : Option Int

/-- One normalised pull. `tmdbIds` holds `none` for an identifier that did not resolve;
a surface of `cwVisibility` is `none` when it was unavailable. -/
structure Snapshot where
  library : List Row
  watched : List Row
  progress : List Row
  tmdbIds : Dict String (Option Int)
  syncPlayback : Bool
  syncWatched : Bool
  cwVisibility : Surface → Option (List String)

/-- The decisions of a combined cycle that replays its snapshots. -/
structure Replay where
  playbackAllowed : ℕ → Option Row → Option Bool
  protectsStart : ℕ → Bool
  protectsFinish : ℕ → Bool

/-- What one observation reads beside the snapshot: the clock, the owner's preference,
the queues of the connection, the other baselines and a combined cycle's decisions. -/
structure Pull where
  now : Int
  today : Int
  freshImport : Bool
  sourceStartedAt : Option Int
  autoConfirm : Bool
  pendingWriteKeys : Finset String
  pendingWatchIntents : Finset ℕ
  removesWatched : Bool
  baselines : ℕ → Option Stored
  replay : Option Replay

def Pull.playbackAllowed (pull : Pull) (mediaId : ℕ) (row : Option Row) : Option Bool :=
  pull.replay.bind fun replay ↦ replay.playbackAllowed mediaId row

end AnyList.Streaming
