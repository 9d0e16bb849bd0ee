import AnyList.Delivery.StremioDelivery

namespace AnyList.Delivery.WatchIntents

open AnyList.Library AnyList.Delivery.WatchedBitfield AnyList.Delivery.StremioPayloads
open AnyList.Delivery.StremioDelivery

inductive IntentState
  | pending
  | applied
  | cancelled
  deriving DecidableEq

/-- The latest watched state waiting for delivery to one connection. -/
structure WatchIntent where
  id : ℕ
  connectionId : ℕ
  mediaId : ℕ
  desiredWatched : Bool
  state : IntentState
  attempts : ℕ
  lastError : Option String
  updatedAt : Int
  deriving DecidableEq

def WatchIntent.cancel (intent : WatchIntent) : WatchIntent :=
  { intent with state := .cancelled, lastError := none }

/-- Never-attempted and freshly queued intents come first. -/
def selectKey (intent : WatchIntent) : ℕ ×ₗ Int ×ₗ Int :=
  toLex (intent.attempts, toLex (-intent.updatedAt, -(intent.id : Int)))

def selectLimit : ℕ := 100

def selectIntents (intents : List WatchIntent) : List WatchIntent :=
  ((intents.filter fun intent ↦ decide (intent.state = .pending)).insertionSort
    fun intent intent' ↦ selectKey intent ≤ selectKey intent').take selectLimit

def isWatched (db : Database) (mediaId : ℕ) : Bool := decide (db.plays mediaId ≠ [])

def overrides (db : Database) (batch : List WatchIntent) : List (ℕ × Bool) :=
  (Dict.empty.setAll ((batch.filter fun row ↦ (db.findMedia row.mediaId).isSome).map
    fun row ↦ (row.mediaId, isWatched db row.mediaId))).entries

def deliver (db : Database) (error : Option String) (row : WatchIntent) : WatchIntent :=
  match db.findMedia row.mediaId, error with
  | none, _ => row.cancel
  | some _, some error =>
    { row with
      desiredWatched := isWatched db row.mediaId
      attempts := row.attempts + 1
      lastError := some error }
  | some _, none =>
    { row with
      desiredWatched := isWatched db row.mediaId
      attempts := row.attempts + 1
      state := .applied
      lastError := none }

/-- An intent that waits for its connection's first merge. -/
def defer (db : Database) (row : WatchIntent) : WatchIntent :=
  match db.findMedia row.mediaId with
  | none => row.cancel
  | some _ => { row with desiredWatched := isWatched db row.mediaId }

/-- Whether a pull cycle is running, the connection still takes watch writes, and its
first merge is settled. -/
structure Standing where
  cycleActive : Bool
  pushWatched : Bool
  reconciled : Bool
  deriving DecidableEq

structure Outcome where
  batch : List WatchIntent
  library : Library

def batchOf (intents : List WatchIntent) (connectionId : ℕ) : List WatchIntent :=
  (selectIntents intents).filter fun row ↦ decide (row.connectionId = connectionId)

/-- One dispatch, for a Stremio connection: its selected intents and its library
afterwards. -/
def dispatchWatchIntents (texts : Texts) (db : Database) (answers : Answers) (standing : Standing)
    (connectionId : ℕ) (intents : List WatchIntent) (remote : Library) : Outcome :=
  let batch := batchOf intents connectionId
  if standing.cycleActive then ⟨batch, remote⟩
  else if ¬standing.pushWatched then ⟨batch.map WatchIntent.cancel, remote⟩
  else if batch.all fun row ↦ (db.findMedia row.mediaId).isNone then
    ⟨batch.map WatchIntent.cancel, remote⟩
  else if ¬standing.reconciled then ⟨batch.map (defer db), remote⟩
  else
    let pushed := pushConnection texts db answers remote (overrides db batch)
    ⟨batch.map (deliver db pushed.2), pushed.1⟩

end AnyList.Delivery.WatchIntents
