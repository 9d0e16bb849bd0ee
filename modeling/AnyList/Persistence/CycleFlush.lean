import AnyList.Persistence.CycleDelivery
import AnyList.Persistence.DeferredChanges
import Mathlib.Data.Finset.Dedup

namespace AnyList.Persistence.CycleFlush

open AnyList.Library AnyList.Library.Runs CycleDelivery PullCycleState
open AnyList.Timestamps (DateTime)

/-- What the database holds of the user when the flush reads it. -/
structure Database where
  ratings : Dict (RatingKey × Option String) (Option ℚ)
  collection : List Int
  watchEvents : List (Int × Bool)
  connections : Dict Int (Int × Int)
  effectiveTmdbKey : Option String

namespace Database

/-- The rating of a title or season outside an alternative episode order. -/
def rating (db : Database) (key : RatingKey) : Option (Option ℚ) := db.ratings.get (key, none)

def collected (db : Database) (mediaId : Int) : Bool := decide (mediaId ∈ db.collection)

def hasCompletedPlay (db : Database) (mediaId : Int) : Bool :=
  decide ((mediaId, true) ∈ db.watchEvents)

end Database

structure Exclusions where
  connections : Finset Int
  cloudSources : Finset CollectionSource
  deriving DecidableEq

structure Changes where
  watched : List Int
  ratings : List (RatingKey × ℚ)
  removedRatings : List RatingKey
  collected : List Int
  uncollected : List Int

/-- The calls of a flush that reach beyond it. -/
inductive Effect
  | queueWatchIntents (mediaIds : List Int) (exclude : Finset Int)
  | fanOutChanges (changes : Changes) (exclude : Exclusions)
  | pushWatchState (mediaIds : List Int) (watched : Bool) (exclude : Finset Int)
  | fanOutStreamingLibrary (newIds removedIds : List Int) (apiKey : Option String)
      (observedAt : Dict Int DateTime) (sources : Dict Int (PySet Int)) (desired : Dict Int Bool)
  | dispatchWatchIntents
  | dispatchPendingLibraryDeliveries
  | dispatchStreamActions
  | dispatchCloudActions
  | pushWatchedBack (connectionId : Int) (items : Dict Int String)

section flush

variable (int : String → Option Int) (target : Option Target) (db : Database)
variable (state : PullCycleState)

def connectionMatches (id : Int) : Bool := target.all fun t ↦ decide (t = .connection id)

def cloudMatches (source : CollectionSource) : Bool :=
  target.all fun t ↦ decide (t.name = source.value)

def dispatchQueues : Bool := target.all fun t ↦ decide (t = .queues)

/-- A retry must never replay a rating over a newer edit. -/
def currentRatings : List (RatingKey × ℚ) :=
  state.newRatings.entries.filter fun entry ↦ decide (db.rating entry.1 = some (some entry.2))

def unratedRemovals : List RatingKey :=
  state.removedRatings.items.filter fun key ↦ decide (db.rating key = none)

def changedCollectionIds : List Int :=
  (state.newCollectedIds.update state.removedCollectedIds.items).items

def finalWatchedIds : List Int := state.newWatchedIds.items.filter db.hasCompletedPlay

def watchedExclusionsOf (mediaId : Int) : Exclusions :=
  let found := (state.watchedExclusions.get mediaId).getD (.empty, .empty)
  ⟨found.1.items.toFinset, found.2.items.toFinset⟩

def watchedGroups : List (Exclusions × List Int) :=
  (Dict.groupBy (watchedExclusionsOf state) (finalWatchedIds db state)).entries

def removedExclusionsOf (mediaId : Int) : Finset Int :=
  ((state.removedWatchExclusions.get mediaId).getD .empty).items.toFinset

def finalRemovedWatchIds : List Int :=
  (state.removedWatchExclusions.entries.map Prod.fst).filter fun id ↦ !db.hasCompletedPlay id

def removalGroups : List (Finset Int × List Int) :=
  (Dict.groupBy (removedExclusionsOf state) (finalRemovedWatchIds db state)).entries

def cycleExclusions : Exclusions :=
  ⟨state.excludedConnectionIds.items.toFinset, state.excludedCloudSources.items.toFinset⟩

/-- The sources of one rating, where `int` reads the id after the colon. -/
def parseSources (sources : List String) : Option Exclusions := do
  let connections ← (sources.filter (·.startsWith "connection:")).mapM fun value ↦
    (value.splitOn ":")[1]?.bind int
  let clouds ← (sources.filter fun value ↦ !value.startsWith "connection:").mapM
    CollectionSource.ofValue
  pure ⟨connections.toFinset, clouds.toFinset⟩

def ratingExclusions (key : RatingKey) : Option Exclusions :=
  match state.ratingSources.get key with
  | none => some (cycleExclusions state)
  | some sources => parseSources int sources.items

/-- Rating sources are scoped to a title and season, not to the whole cycle. -/
def ratingGroups : Option (List (Exclusions × List (RatingKey × ℚ))) := do
  let ratings ← (currentRatings db state).mapM fun entry ↦
    (ratingExclusions int state entry.1).map fun exclude ↦ (exclude, entry)
  pure ((Dict.groupBy Prod.fst ratings).entries.map fun group ↦ (group.1, group.2.map Prod.snd))

def watchEffects : List Effect :=
  let groups := watchedGroups db state
  groups.map (fun group ↦ .queueWatchIntents group.2 group.1.connections) ++
    (if groups ≠ [] ∧ dispatchQueues target then [.dispatchWatchIntents] else []) ++
    groups.map fun group ↦ .fanOutChanges ⟨group.2, [], [], [], []⟩ group.1

def removalEffects : List Effect :=
  let groups := removalGroups db state
  groups.map (fun group ↦ .queueWatchIntents group.2 group.1) ++
    (if groups ≠ [] ∧ dispatchQueues target then [.dispatchWatchIntents] else []) ++
    groups.map fun group ↦ .pushWatchState (group.2.mergeSort fun a b ↦ decide (a ≤ b)) false group.1

def libraryEffects : List Effect :=
  if state.libraryNewIds.items ≠ [] ∨ state.libraryRemovedIds.items ≠ [] then
    [.fanOutStreamingLibrary state.libraryNewIds.items state.libraryRemovedIds.items
      db.effectiveTmdbKey state.libraryObservedAtByMedia state.librarySourceIdsByMedia
      state.libraryDesired]
  else []

def remainingChanges : Changes where
  watched := []
  ratings := []
  removedRatings := unratedRemovals db state
  collected := (changedCollectionIds state).filter db.collected
  uncollected := (changedCollectionIds state).filter fun id ↦ !db.collected id

def isOwnSource (id : Int) : Bool :=
  connectionMatches target id && (db.connections.get id).any fun conn ↦
    decide (conn.1 = state.userId ∧ state.connectionVersions.get id = some conn.2)

def pushBackEffects : List Effect :=
  (state.pushBack.entries.filter fun entry ↦ isOwnSource target db state entry.1).map fun entry ↦
    .pushWatchedBack entry.1 entry.2

/-- The calls of a flush in their order, or `none` where it raises on a malformed rating source. -/
def flushPullCycle : Option (List Effect) :=
  if target = some .queues then
    some [.dispatchWatchIntents, .dispatchPendingLibraryDeliveries, .dispatchStreamActions,
      .dispatchCloudActions]
  else
    (ratingGroups int db state).map fun groups ↦
      watchEffects target db state ++ removalEffects target db state ++ libraryEffects db state ++
        groups.map (fun group ↦ .fanOutChanges ⟨[], group.2, [], [], []⟩ group.1) ++
        [.fanOutChanges (remainingChanges db state) (cycleExclusions state)] ++
        (if dispatchQueues target then [.dispatchStreamActions, .dispatchCloudActions] else []) ++
        pushBackEffects target db state

end flush

end AnyList.Persistence.CycleFlush
