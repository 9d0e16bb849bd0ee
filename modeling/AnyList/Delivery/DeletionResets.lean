import AnyList.Library.Dict
import AnyList.Library.Table
import AnyList.Streaming.Account

namespace AnyList.Delivery.DeletionResets

open AnyList.Library
open AnyList.Reconciliation.Watches (Status)
open AnyList.Streaming (Connection ReviewState Target TrackingDeletion)

inductive MediaType
  | movie
  | series
  | episode
  | person
  deriving DecidableEq

structure Media where
  id : ℕ
  mediaType : MediaType
  tmdbId : Option Int
  tvdbId : Option Int
  imdbId : Option String
  showId : Option ℕ
  deriving DecidableEq

structure Show where
  id : ℕ
  tmdbId : Option Int
  tvdbId : Option Int
  deriving DecidableEq

/-- The rows of the shared catalogue, of which only episodes belong to a show. -/
structure Catalogue where
  media : List Media
  shows : List Show
  ids : (media.map (·.id)).Nodup
  episodes : ∀ m ∈ media, m.showId ≠ none → m.mediaType = .episode

namespace Catalogue

def find (cat : Catalogue) (mediaId : ℕ) : Option Media :=
  cat.media.find? fun m ↦ decide (m.id = mediaId)

def sameIdentity (identity identity' : Option Int) : Bool :=
  decide (identity ≠ none ∧ identity ≠ some 0 ∧ identity' = identity)

def showIds (cat : Catalogue) (m : Media) : List ℕ :=
  if m.mediaType = .series then
    (cat.shows.filter fun show_ ↦
      sameIdentity m.tmdbId show_.tmdbId || sameIdentity m.tvdbId show_.tvdbId).map (·.id)
  else []

/-- A title and the episodes of its shows. -/
def titleIds (cat : Catalogue) (m : Media) : List ℕ :=
  m.id :: (cat.media.filter fun row ↦
    (row.showId.map fun showId ↦ decide (showId ∈ cat.showIds m)).getD false).map (·.id)

/-- Later rows of a catalogue keep what the earlier ones are. -/
def Grows (cat cat' : Catalogue) : Prop :=
  ∀ m ∈ cat.media, ∃ m' ∈ cat'.media, m'.id = m.id ∧ m'.mediaType = m.mediaType

instance (cat cat' : Catalogue) : Decidable (cat.Grows cat') :=
  inferInstanceAs (Decidable (∀ m ∈ cat.media, ∃ m' ∈ cat'.media, _))

end Catalogue

inductive ActionKind
  | dismiss
  | restore
  | reset
  | upsert
  deriving DecidableEq

inductive ActionState
  | pending
  | conflict
  | applied
  | cancelled
  | cleared
  deriving DecidableEq

structure Payload where
  contentId : Option String
  contentType : Option MediaType
  deletedAt : Option Int
  visibilityOnly : Bool
  nextUpOnly : Bool
  deriving DecidableEq

def Payload.empty : Payload := ⟨none, none, none, false, false⟩

structure StreamAction where
  connectionId : ℕ
  mediaId : ℕ
  action : ActionKind
  payload : Payload
  state : ActionState
  attempts : ℕ
  lastError : Option String
  deriving DecidableEq

namespace StreamAction

/-- Work that may still be delivered. -/
def live (row : StreamAction) : Bool := decide (row.state = .pending ∨ row.state = .conflict)

def isReset (row : StreamAction) (mediaId connectionId : ℕ) : Bool :=
  decide (row.action = .reset ∧ row.mediaId = mediaId ∧ row.connectionId = connectionId)

def cancel (row : StreamAction) : StreamAction :=
  { row with state := .cancelled, payload := .empty, lastError := none }

end StreamAction

inductive ReviewKind
  | outboundPending
  | deletionConflict
  | conflict
  | other (name : String)
  deriving DecidableEq

structure SyncReview where
  connectionId : Option ℕ
  mediaId : ℕ
  kind : ReviewKind
  state : ReviewState
  deriving DecidableEq

structure State where
  catalogue : Catalogue
  connections : List Connection
  mappings : ℕ → Dict String Int
  entries : Dict ℕ Status
  deletions : List TrackingDeletion
  actions : Table StreamAction
  reviews : Table SyncReview

namespace State

def initial : State where
  catalogue := ⟨[], [], by simp, by simp⟩
  connections := []
  mappings _ := .empty
  entries := .empty
  deletions := []
  actions := .empty
  reviews := .empty

def findConnection (s : State) (id : ℕ) : Option Connection :=
  s.connections.find? fun conn ↦ decide (conn.id = id)

/-- The connection of an identifier, if it is a Stremio or Nuvio connection. -/
def streamConnection (s : State) (id : ℕ) : Option Connection :=
  (s.findConnection id).filter fun conn ↦ decide (conn.type ≠ .mediaServer)

def deletion (s : State) (mediaId : ℕ) : Option TrackingDeletion :=
  s.deletions.find? fun marker ↦ decide (marker.mediaId = mediaId)

def modifyAction (s : State) (id : ℕ) (f : StreamAction → StreamAction) : State :=
  { s with actions := s.actions.modifyAt id f }

/-- Move the reviews of a title that satisfy a condition to another state. -/
def closeReviews (s : State) (mediaId : ℕ) (p : SyncReview → Bool) (state : ReviewState) : State :=
  { s with reviews := s.reviews.modify fun _ review ↦
      if review.mediaId = mediaId ∧ p review then { review with state } else review }

def removeTarget (s : State) (mediaId connectionId : ℕ) : State :=
  { s with deletions := s.deletions.map fun marker ↦
      if marker.mediaId = mediaId then
        { marker with pendingConnections :=
            marker.pendingConnections.filter fun target ↦ decide (target ≠ .connection connectionId) }
      else marker }

/-- A tombstone that waits for nothing. -/
def settled (s : State) (mediaId : ℕ) : Bool :=
  ((s.deletion mediaId).map fun marker ↦ decide (marker.pendingConnections = [])).getD false

def hasLiveReset (s : State) (mediaId connectionId : ℕ) : Bool :=
  s.actions.rows.any fun row ↦ row.2.isReset mediaId connectionId && row.2.live

end State

/-- Remove a target once it has no live reset row; retain the tombstone. -/
def settleMarkerTarget (s : State) (mediaId connectionId : ℕ) : State :=
  if s.hasLiveReset mediaId connectionId then s
  else
    let s := s.removeTarget mediaId connectionId
    if s.settled mediaId then
      s.closeReviews mediaId
        (fun review ↦ decide (review.kind = .outboundPending ∧ review.state = .pending)) .corrected
    else s

def streamActionEnabled (conn : Connection) (row : StreamAction) : Bool :=
  if row.action = .reset then conn.pushWatched || conn.pushPlayback
  else
    let visibilityOnly := decide (conn.type = .nuvio ∧
      (row.action = .dismiss ∧ (row.payload.visibilityOnly = true ∨ conn.pushPlayback = false) ∨
        row.action = .upsert ∧ row.payload.nextUpOnly = true))
    if visibilityOnly then conn.pushWatched || conn.pushPlayback else conn.pushPlayback

section remove

/-- The provider keys under which a connection knows a title. -/
def resetKeys (s : State) (conn : Connection) (m : Media) : List String :=
  let mapped := ((s.mappings conn.id).entries.filter fun mapping ↦
    decide (some mapping.2 = m.tmdbId)).map Prod.fst
  if mapped = [] then (m.imdbId.filter fun id ↦ decide (id ≠ "")).toList else mapped

def resetTargets (s : State) : List Connection :=
  s.connections.filter fun conn ↦
    decide (conn.type ≠ .mediaServer) && (conn.pushWatched || conn.pushPlayback)

def resetAction (conn : Connection) (m : Media) (deletedAt : Int) (key : String) : StreamAction where
  connectionId := conn.id
  mediaId := m.id
  action := .reset
  payload := ⟨some key, some m.mediaType, some deletedAt, false, false⟩
  state := .pending
  attempts := 0
  lastError := none

def queueResets (s : State) (m : Media) (deletedAt : Int) : State × List Target :=
  let targets := (resetTargets s).filter fun conn ↦ decide (resetKeys s conn m ≠ [])
  ({ s with actions := s.actions.insertAll (targets.flatMap fun conn ↦
      (resetKeys s conn m).map (resetAction conn m deletedAt)) },
    targets.map fun conn ↦ .connection conn.id)

def wipe (s : State) (ids : List ℕ) : State :=
  { s with
    entries := s.entries.filterKeys fun id ↦ decide (id ∉ ids)
    actions := s.actions.erase fun row ↦ decide (row.mediaId ∈ ids)
    reviews := s.reviews.erase fun review ↦ decide (review.mediaId ∈ ids) }

def mark (s : State) (marker : TrackingDeletion) : State :=
  { s with deletions :=
      if (s.deletion marker.mediaId).isSome then
        s.deletions.map fun old ↦ if old.mediaId = marker.mediaId then marker else old
      else s.deletions ++ [marker] }

/-- Delete a title's tracking data. `cloud` are the trackers whose own resets are queued. -/
def removeTitle (s : State) (m : Media) (now : Int) (cloud : List String) : State :=
  let (s, targets) := queueResets (wipe s (s.catalogue.titleIds m)) m now
  let pending := targets ++ cloud.map Target.provider
  let s := mark s ⟨m.id, now, pending⟩
  if pending = [] then s
  else { s with reviews := s.reviews.insert ⟨none, m.id, .outboundPending, .pending⟩ }

def removeEntry (s : State) (confirmed : Bool) (mediaId : ℕ) (now : Int) (cloud : List String) :
    Except (ℕ × String) State :=
  if !confirmed then
    .error (409, "Confirm deletion of all personal tracking data for this title")
  else match s.catalogue.find mediaId with
  | none => .error (404, "Title not found")
  | some m =>
    if m.mediaType ≠ .movie ∧ m.mediaType ≠ .series then .error (404, "Title not found")
    else .ok (removeTitle s m now cloud)

end remove

section restore

def forget (s : State) (p : ℕ → Bool) : State :=
  { s with
    deletions := s.deletions.filter fun marker ↦ !p marker.mediaId
    reviews := s.reviews.erase fun review ↦ p review.mediaId && decide (review.kind = .outboundPending) }

/-- An edit by the owner re-adds a title: the tombstone goes. -/
def saveEntry (s : State) (mediaId : ℕ) (status : Status) : State :=
  let s := if s.entries.get mediaId = none then forget s fun id ↦ decide (id = mediaId) else s
  { s with entries := s.entries.set mediaId status }

/-- An import honours the tombstone. -/
def importEntry (s : State) (mediaId : ℕ) (status : Status) : State :=
  if (s.deletion mediaId).isSome then s
  else { s with entries := s.entries.set mediaId status }

/-- The tombstones of titles seen again since, and whose resets were all acknowledged. -/
def released (s : State) (seenAt : ℕ → List Int) (mediaId : ℕ) : Bool :=
  s.deletions.any fun marker ↦ decide (marker.mediaId = mediaId) &&
    decide (marker.pendingConnections = []) &&
      (seenAt marker.mediaId).any fun seen ↦ decide (marker.deletedAt < seen)

def releaseRewatchedDeletions (s : State) (seenAt : ℕ → List Int) : State :=
  forget s (released s seenAt)

end restore

section cleanup

/-- Retire a conflict review after its disabled outbound action is cancelled. -/
def correctDisabledActionReview (s : State) (row : StreamAction) : State :=
  if s.actions.rows.any fun other ↦ decide (other.2.connectionId = row.connectionId ∧
      other.2.mediaId = row.mediaId ∧ other.2.action = row.action) && other.2.live then s
  else
    let kind : ReviewKind := if row.action = .reset then .deletionConflict else .conflict
    s.closeReviews row.mediaId (fun review ↦ decide (review.connectionId = some row.connectionId ∧
      review.kind = kind ∧ review.state = .pending)) .corrected

def cleanupAction (s : State) (id : ℕ) : State :=
  match s.actions.get id with
  | none => s
  | some row => match s.streamConnection row.connectionId with
    | none => s
    | some conn =>
      if streamActionEnabled conn row then s
      else
        let s := s.modifyAction id StreamAction.cancel
        let s := if row.action = .reset then settleMarkerTarget s row.mediaId conn.id else s
        correctDisabledActionReview s row

def cleanupTarget (mediaId : ℕ) (s : State) : Target → State
  | .provider _ => s
  | .connection connectionId => match s.streamConnection connectionId with
    | none => settleMarkerTarget s mediaId connectionId
    | some conn =>
      if conn.pushWatched || conn.pushPlayback then s
      else settleMarkerTarget s mediaId connectionId

def cleanupMarker (s : State) (marker : TrackingDeletion) : State :=
  marker.pendingConnections.foldl (cleanupTarget marker.mediaId) s

/-- Cancel pending stream work that is no longer enabled, including legacy rows. -/
def cleanupDisabledStreamActions (s : State) : State :=
  let actions := s.actions.rows.filter fun row ↦
    (s.streamConnection row.2.connectionId).isSome && row.2.live
  let s := (actions.map Prod.fst).foldl cleanupAction s
  s.deletions.foldl cleanupMarker s

/-- The owner sets what a connection pushes. -/
def updateConnection (s : State) (id : ℕ) (pushWatched pushPlayback : Bool) : State :=
  let s : State := { s with connections := s.connections.map fun conn ↦
    if conn.id = id then { conn with pushWatched, pushPlayback } else conn }
  if (s.streamConnection id).isSome then cleanupDisabledStreamActions s else s

end cleanup

section dispatch

/-- How the provider answers one delivery attempt. -/
inductive Outcome
  | delivered
  | playbackChanged
  | failed (error : String)
  deriving DecidableEq

/-- What a dispatch finds: the rows that others hold, the connections whose import is approved
and not under a clear, and the provider's answers. -/
structure Dispatch where
  pullActive : Bool
  locked : ℕ → Bool
  reconciled : ℕ → Bool
  outcome : ℕ → Outcome

variable (env : Dispatch)

def requireStreamReconciliation (s : State) (conn : Connection) : Bool :=
  env.reconciled conn.id && !s.reviews.rows.any fun review ↦
    decide (review.2.connectionId = some conn.id ∧ review.2.state = .pending ∧
      (review.2.kind = .conflict ∨ review.2.kind = .deletionConflict))

def validStatus : ActionKind → Status → Bool
  | .restore, status | .upsert, status => decide (status = .watching)
  | .dismiss, status | .reset, status => decide (status ≠ .watching)

/-- A queued action that a later change of the owner's library has overtaken. -/
def invalid (s : State) (row : StreamAction) : Bool :=
  if row.action = .reset then
    (s.deletion row.mediaId).isNone || (s.entries.get row.mediaId).isSome
  else
    (s.deletion row.mediaId).isSome ||
      !((s.entries.get row.mediaId).map (validStatus row.action)).getD false

/-- Drop the connection from the tombstone when its last reset was applied. -/
def acknowledge (s : State) (row : StreamAction) : State :=
  let remaining := s.actions.rows.any fun other ↦
    other.2.isReset row.mediaId row.connectionId && decide (other.2.state ≠ .applied)
  let s := if remaining then s else s.removeTarget row.mediaId row.connectionId
  if s.settled row.mediaId then
    s.closeReviews row.mediaId (fun review ↦ decide (review.kind = .outboundPending)) .confirmed
  else s

def conflictReview (row : StreamAction) : SyncReview where
  connectionId := some row.connectionId
  mediaId := row.mediaId
  kind := if row.action = .reset then .deletionConflict else .conflict
  state := .pending

def attempt (s : State) (id : ℕ) (row : StreamAction) : State :=
  let s := s.modifyAction id fun row ↦ { row with attempts := row.attempts + 1 }
  match env.outcome id with
  | .delivered =>
    let s := s.modifyAction id fun row ↦
      { row with state := .applied, payload := .empty, lastError := none }
    if row.action = .reset ∧ (s.deletion row.mediaId).isSome then acknowledge s row else s
  | .playbackChanged =>
    let s := s.modifyAction id fun row ↦
      { row with state := .conflict, lastError := some "Playback changed since the last import" }
    { s with reviews := s.reviews.insert (conflictReview row) }
  | .failed error => s.modifyAction id fun row ↦ { row with lastError := some error }

def dispatchAction (s : State) (id : ℕ) : State :=
  match s.actions.get id with
  | none => s
  | some row =>
    if row.action = .restore then s.modifyAction id StreamAction.cancel
    else match s.findConnection row.connectionId with
    | none => s
    | some conn =>
      if !streamActionEnabled conn row then
        let s := s.modifyAction id StreamAction.cancel
        if row.action = .reset then settleMarkerTarget s row.mediaId conn.id else s
      else if invalid s row then
        s.modifyAction id fun row ↦ { row with state := .cancelled, payload := .empty }
      else if (s.catalogue.find row.mediaId).isNone ∧ row.action ≠ .reset then
        s.modifyAction id StreamAction.cancel
      else if !requireStreamReconciliation env s conn then s
      else if conn.type = .mediaServer then
        s.modifyAction id fun row ↦ { row with attempts := row.attempts + 1 }
      else attempt env s id row

/-- The rows one dispatch takes, oldest first. -/
def batch (s : State) : List ℕ :=
  ((s.actions.rows.filter fun row ↦
    decide (row.2.state = .pending) && !env.locked row.1).map Prod.fst).take 100

def dispatchStreamActions (s : State) : State :=
  if env.pullActive then s
  else
    let s := cleanupDisabledStreamActions s
    (batch env s).foldl (dispatchAction env) s

end dispatch

section clear

structure Scope where
  collection : Bool
  watched : Bool
  playback : Bool

/-- Stop the stream actions of a connection whose data is being cleared. -/
def freezeOutboundWork (s : State) (connectionId : ℕ) (scope : Scope) : State :=
  if scope.watched || scope.playback then
    { s with actions := s.actions.modify fun _ row ↦
        if row.connectionId = connectionId ∧ row.state = .pending ∧
            (scope.playback = true ∨ row.action = .reset) then
          { row with state := .cleared }
        else row }
  else s

end clear

section resolve

inductive Choice
  | confirm
  | keep
  | change
  | matchTitle
  | ignore
  | addWatching
  | addPlanning
  deriving DecidableEq

/-- What a decision does with a reset that met newer remote viewing. -/
def resolveReset (choice : Choice) (now : Int) (row : StreamAction) : StreamAction :=
  if choice = .confirm then
    { row with
      lastError := none, state := .pending, payload := { row.payload with deletedAt := some now } }
  else { row with lastError := none, state := .cancelled, payload := .empty }

def resolveResets (s : State) (choice : Choice) (now : Int) (event : SyncReview) : State :=
  let actions := s.actions.modify fun _ row ↦
    if row.action = .reset ∧ row.mediaId = event.mediaId ∧ some row.connectionId = event.connectionId ∧
        row.state = .conflict then
      resolveReset choice now row
    else row
  { s with actions }

def resolveDeletionConflict (s : State) (choice : Choice) (now : Int) (event : SyncReview) : State :=
  let s := resolveResets s choice now event
  match choice, event.connectionId with
  | .keep, some connectionId =>
    let s := s.removeTarget event.mediaId connectionId
    if s.settled event.mediaId then
      s.closeReviews event.mediaId (fun review ↦ decide (review.kind = .outboundPending)) .corrected
    else s
  | _, _ => s

/-- Resolve an event. Kinds other than those of queued actions leave resets and tombstones alone,
and so does the choice of a status for a title that is still tracked. -/
def resolveEvent (s : State) (eventId : ℕ) (choice : Choice) (now : Int) :
    Except (ℕ × String) State :=
  match s.reviews.get eventId with
  | none => .error (404, "Event not found")
  | some event =>
    let reviews := s.reviews.modifyAt eventId fun review ↦
      { review with state := if choice = .confirm then .confirmed else .corrected }
    if event.state ≠ .pending then .error (409, "This event has already been resolved")
    else match event.kind with
    | .other _ => .ok { s with reviews }
    | .outboundPending =>
      if choice = .addWatching ∨ choice = .addPlanning then
        .error (422, "Release actions are only available on a new season notice")
      else .error (409, "This operation requires the connection dispatcher; it cannot be marked successful manually")
    | .deletionConflict =>
      if choice = .addWatching ∨ choice = .addPlanning then
        .error (422, "Release actions are only available on a new season notice")
      else if choice = .change then .error (422, "Retry deletion or keep the remote history")
      else .ok (resolveDeletionConflict { s with reviews } choice now event)
    | .conflict =>
      if choice = .addWatching ∨ choice = .addPlanning then
        .error (422, "Release actions are only available on a new season notice")
      else if (s.entries.get event.mediaId).isNone then
        .error (409, "The tracked entry no longer exists")
      else .ok { s with reviews }

end resolve

inductive Step
  | extend (cat : Catalogue)
  | connect (conn : Connection)
  | remember (connectionId : ℕ) (mappings : Dict String Int)
  | saveEntry (mediaId : ℕ) (status : Status)
  | importEntry (mediaId : ℕ) (status : Status)
  | removeEntry (confirmed : Bool) (mediaId : ℕ) (now : Int) (cloud : List String)
  | release (seenAt : ℕ → List Int)
  | queue (row : StreamAction) (progress : row.action ≠ .reset)
  | dispatch (env : Dispatch)
  | updateConnection (id : ℕ) (pushWatched pushPlayback : Bool)
  | clear (connectionId : ℕ) (scope : Scope)
  | resolve (eventId : ℕ) (choice : Choice) (now : Int)

/-- A request that is refused changes nothing. -/
def accepted (s : State) : Except (ℕ × String) State → State
  | .ok s' => s'
  | .error _ => s

def step (s : State) : Step → State
  | .extend cat => if s.catalogue.Grows cat then { s with catalogue := cat } else s
  | .connect conn => { s with connections := s.connections ++ [conn] }
  | .remember connectionId mappings =>
    { s with mappings := Function.update s.mappings connectionId mappings }
  | .saveEntry mediaId status => saveEntry s mediaId status
  | .importEntry mediaId status => importEntry s mediaId status
  | .removeEntry confirmed mediaId now cloud => accepted s (removeEntry s confirmed mediaId now cloud)
  | .release seenAt => releaseRewatchedDeletions s seenAt
  | .queue row _ => { s with actions := s.actions.insert row }
  | .dispatch env => dispatchStreamActions env s
  | .updateConnection id pushWatched pushPlayback => updateConnection s id pushWatched pushPlayback
  | .clear connectionId scope => freezeOutboundWork s connectionId scope
  | .resolve eventId choice now => accepted s (resolveEvent s eventId choice now)

def run (s : State) (steps : List Step) : State := steps.foldl step s

end AnyList.Delivery.DeletionResets
