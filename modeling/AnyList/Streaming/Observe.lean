import AnyList.Streaming.Processing
import AnyList.Streaming.Visibility
import AnyList.Streaming.Import

namespace AnyList.Streaming

open AnyList.Library AnyList.Library.Members AnyList.Timestamps
open AnyList.Reconciliation.Watches (Status)

/-- A complete pull of one connection against its baseline. -/
structure Observation where
  reading : Reading
  cat : Catalogue
  conn : Connection
  pull : Pull
  snap : Snapshot
  prior : Option StreamBaseline

/-- The account while a pull is observed, with the watches that decided a status, the episodes
counted as watched, the watches removed and the titles changed. -/
structure Observed where
  tracking : Tracking
  accepted : List Row
  inferred : List ℕ
  removedWatched : List ℕ
  changedMedia : List ℕ

namespace Observation

variable (o : Observation)

section views

def first : Bool := o.pull.freshImport || o.prior.isNone

/-- A full resync is a new import gate: it compares with nothing. -/
def previous : Stored :=
  if o.pull.freshImport then .empty else (o.prior.map StreamBaseline.snapshot).getD .empty

def observedAt : Option Int := o.prior.bind StreamBaseline.observedAt

def priorObservedAt : Option Int := if o.pull.freshImport then none else o.observedAt

def approved : Bool := !o.first && (o.prior.map StreamBaseline.approved).getD false

/-- A combined cycle that replays its snapshots decides on a first one too. -/
def decides : Bool := !o.first || o.pull.replay.isSome

def active : Dict String Row :=
  if o.snap.syncPlayback then activeRows o.snap.progress else o.previous.progress

def watchedRows : List Row := if o.snap.syncWatched then o.snap.watched else []

def progressCompletedRows : List Row :=
  if o.snap.syncPlayback then completedRows o.snap.progress else []

def completed : List Row := o.watchedRows ++ o.progressCompletedRows

def resolved : List (String × Int) :=
  o.snap.tmdbIds.entries.filterMap fun (key, tmdbId) ↦ tmdbId.map fun id ↦ (key, id)

/-- Prior mappings stay for a title that is absent from the pull. -/
def mappings : Dict String Int := o.previous.mappings.setAll o.resolved

/-- The rows in progress that the provider no longer reports. -/
def removed : List String :=
  if !o.first && o.snap.syncPlayback &&
      (o.conn.pushPlayback || decide (o.conn.type ≠ .mediaServer)) then
    o.previous.progress.keys.filter fun key ↦ (o.active.get key).isNone
  else []

def dismissedIds : List Int := visibilityTmdbIds o.reading o.conn o.previous o.snap

/-- The catalogue as far as the pull loads it. -/
def lookup (tmdbId : Int) (kind : Kind) : Option Media :=
  if tmdbId ∈ o.resolved.map Prod.snd ∨ tmdbId ∈ o.removed.filterMap o.mappings.get ∨
      tmdbId ∈ o.dismissedIds then
    o.cat.find tmdbId kind
  else none

def media (row : Row) : Option Media := optionMedia o.mappings o.lookup row

def allowed (mediaId : ℕ) : Option Bool := o.pull.playbackAllowed mediaId none

end views

section release

/-- The viewing time of a row: a change of its metadata is no new watch. -/
def seenAt (row : Row) : Option Int :=
  Row.changedAt o.reading none none row.watchedAt row.lastWatched

def earlyMedia (row : Row) : Option Media :=
  (earlyMapping o.previous o.snap row.contentId).bind fun tmdbId ↦
    row.contentType.bind fun kind ↦ o.cat.find tmdbId kind

/-- A tombstone goes once every reset is acknowledged and its title is watched again. -/
def isReleased (deletion : TrackingDeletion) : Bool :=
  decide (deletion.pendingConnections = []) && (o.snap.watched ++ o.snap.progress).any fun row ↦
    (o.earlyMedia row).any (fun media ↦ decide (media.id = deletion.mediaId)) &&
      (o.seenAt row).any fun seen ↦ decide (deletion.deletedAt < seen)

def releaseRewatchedDeletions (deletions : List TrackingDeletion) (t : Tracking) :
    List TrackingDeletion × Tracking :=
  let released := (deletions.filter o.isReleased).map TrackingDeletion.mediaId
  (deletions.filter fun deletion ↦ decide (deletion.mediaId ∉ released),
    { t with reviews := t.reviews.filter fun review ↦
        !(decide (review.kind = .outboundPending) && review.mediaId.any (· ∈ released)) })

end release

section start

def importReview (imported : ℕ) : SyncReview where
  connectionId := o.conn.id
  mediaId := none
  kind := .initialImport
  state := .pending
  previousStatus := none
  proposedStatus := none
  message := o.conn.name ++ ": imported " ++ toString imported ++ " tracked entries, observed " ++
    toString o.snap.library.length ++ " library items and " ++ toString o.snap.watched.length ++
    " watch records. Review your lists and any conflicts before approving outbound " ++
    "synchronization. An empty first snapshot removes nothing."
  payload := none
  dismissedAt := none

def openImport (imported : ℕ) (t : Tracking) : Tracking :=
  let kept := if o.pull.freshImport then t.reviews.filter fun review ↦
      !decide (review.connectionId = o.conn.id ∧ review.kind = .initialImport ∧
        review.state = .pending)
    else t.reviews
  { t with reviews := kept }.addReview (o.importReview imported)

/-- Only active playback can disagree with the status of a title on a new connection. -/
def importConflict (existing : ℕ → Bool) (t : Tracking) (row : Row) : Tracking :=
  match o.media row with
  | none => t
  | some media =>
    if !existing media.id ∨ (o.allowed media.id).isSome then t
    else match t.entries.get media.id with
      | none => t
      | some entry =>
        let proposed := observedStatus (some entry.status) false true
        if proposed = entry.status ∨ t.reviews.any fun review ↦
            decide (review.connectionId = o.conn.id ∧ review.mediaId = some media.id ∧
              review.kind = .conflict ∧ review.state = .pending) then t
        else t.addReview
          { connectionId := o.conn.id, mediaId := some media.id, kind := .conflict
            state := .pending, previousStatus := some entry.status, proposedStatus := some proposed
            message := o.conn.name ++ ": imported playback disagrees with your existing status. " ++
              "Your local value was kept; choose the correct status before exporting."
            payload := none, dismissedAt := none }

def start (existing : ℕ → Bool) (imported : ℕ) (t : Tracking) : Tracking :=
  if o.first then o.active.values.foldl (o.importConflict existing) (o.openImport imported t)
  else t

end start

section dismissals

def dismissedStatus (media : Media) : Status :=
  match media.kind with
  | .movie => .dropped
  | .series => .paused

/-- A title leaves Continue Watching: its status follows unless the owner edited it since. -/
def dismiss (acc : Observed) (media : Media) (entry : TrackedEntry) (conflict : Bool)
    (message : String) : Observed :=
  let proposed := dismissedStatus media
  let confirmed := o.pull.autoConfirm && !conflict && o.approved
  let reviewed := acc.tracking.addReview
    { connectionId := o.conn.id, mediaId := some media.id
      kind := if conflict then .conflict else .playbackRemoved
      state := if confirmed then .confirmed else .pending
      previousStatus := some entry.status, proposedStatus := some proposed
      message, payload := none, dismissedAt := none }
  if conflict then { acc with tracking := reviewed }
  else
    let dismissed : TrackedEntry :=
      { entry with
        status := proposed
        progress := match media.kind with
          | .movie => 0
          | .series => entry.progress }
    let marked := dismissed.markStatusChange o.conn.source o.pull.now
    let queued := (reviewed.setEntry media.id marked).call (.dismissals media.id)
    { acc with
      tracking := if confirmed then
          queued.call (.dailyActivity media.id proposed true (some entry.status) false)
        else queued
      changedMedia := acc.changedMedia ++ [media.id] }

def removalMessage (media : Media) (conflict : Bool) : String :=
  o.conn.name ++ ": playback disappeared without a matching completion. " ++
    if conflict then "A newer local edit was preserved; choose the correct status."
    else "Marked " ++ Context.statusText (dismissedStatus media) ++
      ". Review the change or add a rating."

/-- Whether an edit since the last observation makes the order uncertain. -/
def editedSince (seen : Option Int) (changedAt : Int) (media : Media) : Bool :=
  seen.any (fun at' ↦ decide (at' < changedAt)) && decide (o.allowed media.id ≠ some true)

def waits (acc : Observed) (media : Media) : Bool :=
  acc.tracking.hasPending media.id && decide (o.allowed media.id ≠ some true)

/-- Until the provider shows a written row, its absence is no removal. -/
def removePlayback (acc : Observed) (key : String) : Observed :=
  match o.previous.progress.get key with
  | none => acc
  | some old =>
    if completedProgress old o.completed ∨ (o.previous.outbound.get key).isSome ∨
        key ∈ o.pull.pendingWriteKeys then acc
    else match (o.mappings.get key).bind fun tmdbId ↦ old.contentType.bind (o.lookup tmdbId) with
      | none => acc
      | some media =>
        match acc.tracking.entries.get media.id with
        | none => acc
        | some entry =>
          if o.allowed media.id = some false ∨ entry.status = .completed ∨
              o.conn.type ≠ .mediaServer ∧ entry.status ≠ .watching ∨ o.waits acc media then acc
          else
            let conflict := o.editedSince o.observedAt entry.changedAt media
            o.dismiss acc media entry conflict (o.removalMessage media conflict)

def dismissalMessage (media : Media) (conflict : Bool) : String :=
  if conflict then o.conn.name ++ ": Continue Watching dismissal disagrees with a newer local " ++
    "edit; the local value was kept for review."
  else o.conn.name ++ ": Continue Watching item was dismissed. Marked " ++
    Context.statusText (dismissedStatus media) ++ "; review the change."

/-- A dismissal is compared with the clock its title had before the pull. -/
def dismissTitle (clocks : ℕ → Option Int) (acc : Observed) (tmdbId : Int) : Observed :=
  match (o.lookup tmdbId .series).or (o.lookup tmdbId .movie) with
  | none => acc
  | some media =>
    match acc.tracking.entries.get media.id with
    | none => acc
    | some entry =>
      if o.allowed media.id = some false ∨ entry.status ≠ .watching ∨ o.waits acc media then acc
      else
        let changedAt := (clocks media.id).getD entry.changedAt
        let conflict := o.editedSince o.priorObservedAt changedAt media
        o.dismiss acc media entry conflict (o.dismissalMessage media conflict)

def dismissTitles (clocks : ℕ → Option Int) (acc : Observed) : Observed :=
  if !o.first && decide (o.conn.type = .nuvio) && (o.snap.syncPlayback || o.snap.syncWatched) then
    o.dismissedIds.foldl (o.dismissTitle clocks) acc
  else acc

end dismissals

section deltas

/-- A status review from before its offer was dropped, which leaves nothing to choose. -/
def isRedundant (t : Tracking) (review : SyncReview) : Bool :=
  decide (review.connectionId = o.conn.id ∧ review.state = .pending ∧ review.kind = .conflict ∧
    review.payload = none ∧ review.previousStatus = review.proposedStatus ∧
    "playback timing cannot be ordered".toList <:+: review.message.toList) &&
  (review.mediaId.bind t.entries.get).any fun entry ↦
    decide (review.proposedStatus = some entry.status)

def retireRedundant (t : Tracking) : Tracking :=
  { t with reviews := t.reviews.map fun review ↦
      if o.isRedundant t review then
        { review with state := .corrected, dismissedAt := some o.pull.now }
      else review }

/-- A new watch, or a known one under another date. -/
def isNewWatch (row : Row) : Bool :=
  decide (row.watchKey ∉ o.previous.watched) ||
    (o.previous.recordsWatched.any (fun old ↦ decide (old.watchKey = row.watchKey)) &&
      !o.previous.recordsWatched.any fun old ↦ decide (old.watchObservation = row.watchObservation))

def tracked (t : Tracking) : List (Media × TrackedEntry) :=
  t.entries.entries.filterMap fun (mediaId, entry) ↦
    (o.cat.byId mediaId).map fun media ↦ (media, entry)

def rowTmdbId (t : Tracking) (key : String) : Option Int :=
  (o.previous.mappings.get key).or
    ((((o.tracked t).find? fun (media, _) ↦ decide (media.imdbId = some key)).map
      fun (media, _) ↦ media.tmdbId).or (spelledTmdbId o.reading key))

/-- The status time of the title a row names, unless this pull has just imported it. -/
def rowClock (t : Tracking) (imported : List ℕ) (row : Row) : Option Int :=
  (o.rowTmdbId t row.contentId).bind fun tmdbId ↦
    ((o.tracked t).reverse.find? fun (media, _) ↦ decide (media.tmdbId = tmdbId ∧
      some media.kind = row.contentType ∧ media.id ∉ imported)).map fun (_, entry) ↦ entry.changedAt

/-- Late history must not undo a newer correction. -/
def currentWatchRows (t : Tracking) (imported : List ℕ) (rows : List Row) : List Row :=
  rows.filter fun row ↦ !(o.rowClock t imported row).any fun clock ↦
    (row.providerChangedAt o.reading).any fun observed ↦ decide (observed < clock)

def newWatchedRows (t : Tracking) (imported : List ℕ) : List Row :=
  o.currentWatchRows t imported (o.watchedRows.filter o.isNewWatch)

def newProgressCompletedRows : List Row :=
  o.progressCompletedRows.filter fun row ↦ decide (row.watchKey ∉ o.previous.progressCompleted)

/-- The new completions, one row for each key; a watch replaces a completed resume. -/
def newCompleted (newWatched : List Row) : List Row :=
  ((Dict.empty : Dict (String × Option Int × Option Int) Row).setAll
    ((o.newProgressCompletedRows ++ newWatched).map fun row ↦ (row.watchKey, row))).values

def isAcknowledgedWrite (key : String) (row : Row) : Bool :=
  (o.previous.outbound.get key).any row.samePlayback

def isUnchanged (key : String) (row : Row) : Bool :=
  (o.previous.progress.get key).any fun old ↦
    old.samePlayback row && decide (old.lastWatched = row.lastWatched)

def isChangedActive (key : String) (row : Row) : Bool :=
  o.snap.syncPlayback && !o.isAcknowledgedWrite key row && !o.isUnchanged key row

/-- An advancing history clock dates a changed resume of a provider that has no other. -/
def stamped (row : Row) : Row :=
  let seen (lastWatched : Option String) : Option Int :=
    Row.changedAt o.reading none none none lastWatched
  if o.conn.type = .nuvio ∧ Row.changedAt o.reading row.updatedAt row.modifiedAt none none = none then
    match seen row.lastWatched with
    | some current =>
      if (seen ((o.previous.progress.get row.contentId).bind Row.lastWatched)).all (· < current) then
        { row with updatedAt := some (o.reading.isoZ current) }
      else row
    | none => row
  else row

def changedActive : List Row :=
  (o.active.entries.filter fun (key, row) ↦ o.isChangedActive key row).map
    fun (_, row) ↦ o.stamped row

/-- The rows in progress as they are stored, under the dates the decision gave them. -/
def storedActive : Dict String Row :=
  if o.decides then o.active.mapKeyed fun key row ↦
    if o.isChangedActive key row then o.stamped row else row
  else o.active

end deltas

section rows

def context (deleted existing : ℕ → Bool) (newWatched : List Row) : Context where
  reading := o.reading
  cat := o.cat
  conn := o.conn
  pull := o.pull
  approved := o.approved
  observedAt := o.observedAt
  existingIds := existing
  deleted := deleted
  lookup := o.lookup
  mappings := o.mappings
  oldActive := o.previous.progress
  newWatched := newWatched
  newCompleted := o.newCompleted newWatched
  changedActive := o.changedActive
  syncWatched := o.snap.syncWatched

/-- Only changed observations advance an entry of the list. -/
def decideRows (deleted existing : ℕ → Bool) (imported : List ℕ) (acc : Observed) : Observed :=
  if o.decides then
    let retired := o.retireRedundant acc.tracking
    let newWatched := o.newWatchedRows retired imported
    let result := (o.context deleted existing newWatched).processRows
      ⟨retired, acc.accepted, acc.inferred, acc.changedMedia⟩
    { acc with
      tracking := result.tracking
      accepted := result.accepted
      inferred := result.inferred
      changedMedia := result.changedMedia }
  else acc

end rows

section stored

/-- Identities are kept for tombstones, deleted viewing data is not. -/
def isDeletedKey (deleted : ℕ → Bool) (key : String) : Bool :=
  (o.mappings.get key).any fun tmdbId ↦ [Kind.movie, Kind.series].any fun kind ↦
    (o.lookup tmdbId kind).any fun media ↦ deleted media.id

def outbound : Dict String Row :=
  let kept := o.previous.outbound.filterKeys fun key ↦
    !(decide (key ∈ o.removed) &&
      (o.previous.progress.get key).any fun old ↦ completedProgress old o.completed)
  if o.snap.syncPlayback then kept.filterKeys fun key ↦ (o.active.get key).isNone else kept

def resume : Dict String Row :=
  let gone := o.removed.filterMap fun key ↦ (o.previous.progress.get key).bind fun old ↦
    if completedProgress old o.completed then none else some (key, old)
  (o.previous.resume.setAll gone).filterKeys fun key ↦ (o.active.get key).isNone

def stored (deleted : ℕ → Bool) : Stored :=
  let kept (key : String) : Bool := !o.isDeletedKey deleted key
  { o.previous with
    library := (o.snap.library.map Row.contentId).toFinset
    progress := o.storedActive.filterKeys kept
    mappings := o.mappings
    resume := o.resume.filterKeys kept
    outbound := if o.first then .empty else o.outbound
    nuvioVisibility := nuvioVisibility o.reading o.conn o.previous o.snap
    visibilityEcho := visibilityEcho o.reading o.conn o.previous o.snap
    watched := if o.snap.syncWatched then (o.watchedRows.map Row.watchKey).toFinset
      else o.previous.watched
    progressCompleted := if o.snap.syncPlayback then
        (o.progressCompletedRows.map Row.watchKey).toFinset
      else o.previous.progressCompleted
    recordsLibrary := o.snap.library
    recordsWatched := if o.snap.syncWatched then
        o.snap.watched.filter fun row ↦ kept row.contentId
      else o.previous.recordsWatched
    recordsProgress := if o.snap.syncPlayback then
        o.snap.progress.filter fun row ↦ kept row.contentId
      else o.previous.recordsProgress }

end stored

section removals

def watchedMedia (row : Row) : Option ℕ :=
  (o.mappings.get row.contentId).bind fun tmdbId ↦ row.contentType.bind fun kind ↦
    o.cat.watchedMedia kind tmdbId row.season row.episode

/-- What the provider has reported before and reports no more. -/
def missingWatched : List ℕ :=
  let now := o.watchedRows.map Row.watchKey
  distinct (((o.previous.recordsWatched.filter fun row ↦ decide (row.watchKey ∉ now)).filterMap
    o.watchedMedia).filter (· ∉ o.pull.pendingWatchIntents))

/-- Whether the plays of a title are completed and older than the last observation. -/
def isRemovable (t : Tracking) (mediaId : ℕ) : Bool :=
  let plays := t.plays.filter fun play ↦ decide (play.mediaId = mediaId)
  o.priorObservedAt.any (fun seen ↦ plays.all fun play ↦ decide (play.createdAt ≤ seen)) &&
    plays.any Play.completed

def removeWatched (acc : Observed) (mediaId : ℕ) : Observed :=
  if o.isRemovable acc.tracking mediaId then
    { acc with
      tracking :=
        { acc.tracking with
          plays := acc.tracking.plays.filter fun play ↦ decide (play.mediaId ≠ mediaId) }
      removedWatched := acc.removedWatched ++ [mediaId]
      changedMedia := acc.changedMedia ++ [mediaId] }
  else acc

/-- A series whose episodes were removed counts the ones that are left. -/
def recountSeries (t : Tracking) (tmdbId : Int) : Tracking :=
  match o.lookup tmdbId .series with
  | none => t
  | some series =>
    match t.entries.get series.id with
    | none => t
    | some entry =>
      t.setEntry series.id
        { entry with progress := ((o.cat.regular tmdbId).filter t.isWatched).dedup.length }

def removesWatched : Bool :=
  o.approved && o.snap.syncWatched && o.conn.pushWatched && o.pull.removesWatched &&
    o.pull.replay.isNone

def removeMissing (acc : Observed) : Observed :=
  if o.removesWatched then
    let removed := o.missingWatched.foldl o.removeWatched acc
    let shows := distinct (removed.removedWatched.filterMap o.cat.seriesOf)
    { removed with tracking := shows.foldl o.recountSeries removed.tracking }
  else acc

end removals

/-- Why an observation refuses a snapshot. -/
inductive Refusal
  | clearIncomplete
  | stale
  deriving DecidableEq

def Refusal.message : Refusal → String
  | .clearIncomplete => "A provider clear is incomplete or this snapshot predates it; " ++
      "retry after the concurrent operation"
  | .stale => "This provider snapshot became stale during sync; retry after the concurrent operation"

def refusal : Option Refusal :=
  let guarded := ((o.prior.map StreamBaseline.snapshot).bind Stored.clearGuard).any fun startedAt ↦
    !o.pull.freshImport || startedAt.any fun clear ↦
      o.pull.sourceStartedAt.any fun source ↦ decide (source < clear)
  let late := o.observedAt.any fun seen ↦
    o.pull.sourceStartedAt.any fun source ↦ decide (source < seen)
  if guarded then some .clearIncomplete else if late then some .stale else none

/-- What one observation leaves: the account, its tombstones and the new baseline. -/
structure Result where
  observed : Observed
  deletions : List TrackingDeletion
  baseline : StreamBaseline

def isDeleted (deletions : List TrackingDeletion) (mediaId : ℕ) : Bool :=
  deletions.any fun deletion ↦ decide (deletion.mediaId = mediaId)

def observe (deletions : List TrackingDeletion) (t : Tracking) : Result :=
  let released := o.releaseRewatchedDeletions deletions t
  let deleted := isDeleted released.1
  let existing (mediaId : ℕ) : Bool := (released.2.entries.get mediaId).isSome
  let imported := importTrackingHistory o.cat o.pull.now deleted released.2
  let clocks (mediaId : ℕ) : Option Int := (imported.1.entries.get mediaId).map
    TrackedEntry.changedAt
  let started := o.start existing imported.2.length imported.1
  let removed := o.removed.foldl o.removePlayback ⟨started, [], [], [], imported.2⟩
  let decided := o.decideRows deleted existing imported.2 removed
  let dismissed := o.dismissTitles clocks decided
  { observed := o.removeMissing dismissed
    deletions := released.1
    baseline := ⟨o.stored deleted, o.approved, some o.pull.now⟩ }

def observeStreamSnapshot (deletions : List TrackingDeletion) (t : Tracking) :
    Except Refusal Result :=
  match o.refusal with
  | some refusal => .error refusal
  | none => .ok (o.observe deletions t)

end Observation

end AnyList.Streaming
