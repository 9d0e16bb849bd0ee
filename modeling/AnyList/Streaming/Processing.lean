import AnyList.Streaming.Account
import AnyList.Library.Members

namespace AnyList.Streaming

open AnyList.Library AnyList.Library.Members AnyList.Timestamps
open AnyList.Reconciliation.Watches (Status)

/-- What the rows of one observation are compared with. -/
structure Context where
  reading : Reading
  cat : Catalogue
  conn : Connection
  pull : Pull
  approved : Bool
  observedAt : Option Int
  existingIds : ℕ → Bool
  deleted : ℕ → Bool
  lookup : Int → Kind → Option Media
  mappings : Dict String Int
  oldActive : Dict String Row
  newWatched : List Row
  newCompleted : List Row
  changedActive : List Row
  syncWatched : Bool

/-- The account while rows are processed, with the accepted watches, the episodes their
series now count as watched and the titles that changed. -/
structure Progressing where
  tracking : Tracking
  accepted : List Row
  inferred : List ℕ
  changedMedia : List ℕ

inductive Ordering'
  | apply
  | stale
  | conflict
  deriving DecidableEq

def optionMedia (mappings : Dict String Int) (lookup : Int → Kind → Option Media) (row : Row) :
    Option Media :=
  (mappings.get row.contentId).bind fun tmdbId ↦ row.contentType.bind fun kind ↦ lookup tmdbId kind

namespace Context

variable (ctx : Context)

def media (row : Row) : Option Media := optionMedia ctx.mappings ctx.lookup row

def allowed (mediaId : ℕ) (row : Option Row) : Option Bool :=
  ctx.pull.playbackAllowed mediaId row

/-- The other connection's resume that last set the status. -/
def previousSourcePlayback (entry : TrackedEntry) (media : Media) : Option Row :=
  match entry.statusSource with
  | .connection .mediaServer _ => none
  | .connection _ id => (ctx.pull.baselines id).bind fun stored ↦
    firstMax Row.playbackRank ((stored.progress.entries.filter fun (key, _) ↦
      decide (stored.mappings.get key = some media.tmdbId)).map Prod.snd)
  | _ => none

def ordering (media : Media) (entry : TrackedEntry) (row : Row) :
    Ordering' :=
  let newlyTracked := !ctx.existingIds media.id
  let changedAt := entry.changedAt
  let providerAt := row.providerChangedAt ctx.reading
  let competing := ctx.existingIds media.id && ctx.observedAt.any fun seen ↦ seen < changedAt
  if ctx.allowed media.id none = some true then .apply
  else if !newlyTracked && providerAt.any fun at' ↦ at' < changedAt then .stale
  else if competing then
    match providerAt with
    | none => .conflict
    | some at' =>
      if changedAt < at' then .apply
      else if entry.statusSource = ctx.conn.source then .apply
      else if entry.statusSource ≠ .owner then
        match ctx.previousSourcePlayback entry media with
        | some previousRow =>
          if previousRow.playbackRank < row.playbackRank then .apply else .stale
        | none => .conflict
      else .conflict
  else .apply

/-- Advances the regular episodes of a series up to the observed one. -/
def applySeriesObservation (tracking : Tracking) (media : Media) (entry : TrackedEntry) (row : Row)
    (finished : Bool) : Tracking × TrackedEntry × Bool × List ℕ :=
  match ctx.cat.released media.id with
  | none => (tracking, entry, false, [])
  | some episodes =>
    match episodes.findIdx? fun e ↦ decide (some e.season = row.season ∧ some e.number = row.episode)
      with
    | none => (tracking, entry, false, [])
    | some index =>
      let through := if finished then index + 1 else index
      let sourceDate := (row.watchedAt.or row.lastWatched).bind ctx.reading.watchDate
      let evidence := sourceDate.getD (milliseconds (entry.finishDate.getD ctx.pull.now))
      let missing := (episodes.take through).filter fun e ↦ !tracking.isWatched e.mediaId
      let plays := missing.map fun e ↦
        { mediaId := e.mediaId, completed := true, watchedAt := some evidence
          dateInferred := sourceDate.isNone || row.dateShared ||
            !(finished && decide (episodes[index]? = some e))
          dateShared := row.dateShared, createdAt := ctx.pull.now : Play }
      let tracking' := { tracking with plays := tracking.plays ++ plays }
      let watched := (episodes.filter fun e ↦ tracking'.isWatched e.mediaId).length
      (tracking', { entry with progress := watched },
        ctx.cat.refreshed media.id && decide (episodes ≠ [] ∧ watched = episodes.length),
        missing.map Episode.mediaId)

def fieldChanges (oldRow : Option Row) (row : Row) : List FieldChange :=
  [⟨"season", (oldRow.bind Row.season).map (Int.cast : Int → ℚ), row.season.map Int.cast⟩,
    ⟨"episode", (oldRow.bind Row.episode).map Int.cast, row.episode.map Int.cast⟩,
    ⟨"position", oldRow.bind Row.position, row.position⟩,
    ⟨"duration", oldRow.bind Row.duration, row.duration⟩].filter
      fun change ↦ decide (change.previous ≠ change.proposed)

def clockText (clock : Option Int) : String := (clock.map ctx.reading.isoZ).getD "unknown"

def statusText : Status → String
  | .planning => "planning"
  | .watching => "watching"
  | .completed => "completed"
  | .paused => "paused"
  | .dropped => "dropped"

/-- An unordered observation leaves the entry alone and asks the owner. -/
def raiseUnordered (tracking : Tracking) (media : Media) (entry : TrackedEntry) (row : Row)
    (proposed : Status) : Tracking :=
  let oldRow := ctx.oldActive.get row.contentId
  let providerAt := row.providerChangedAt ctx.reading
  if proposed = entry.status ∧ (entry.statusSource = .owner ∨ oldRow.all (row.samePlayback ·)) then
    tracking
  else
    tracking.addReview
      { connectionId := ctx.conn.id, mediaId := some media.id, kind := .conflict
        state := .pending, previousStatus := some entry.status, proposedStatus := some proposed
        payload := some ⟨fieldChanges oldRow row, some entry.changedAt, providerAt, ctx.observedAt⟩
        message := ctx.conn.name ++ ": proposes " ++ statusText entry.status ++ " → " ++
          statusText proposed ++
          ". Playback timing cannot be ordered against another recent change. Current change: " ++
          ctx.clockText (some entry.changedAt) ++ "; provider change: " ++
          ctx.clockText providerAt ++ ". Your current value was preserved."
        dismissedAt := none }

/-- The dates that a status change fills in, unless the owner has just edited them. -/
def withDates (media : Media) (previous : TrackedEntry) (newlyTracked : Bool)
    (entry : TrackedEntry) : TrackedEntry :=
  let dates := defaultDates (some previous.status) entry.status entry.startDate entry.finishDate
    ctx.pull.today
  let start := if newlyTracked ∧ entry.status = .watching then dates.1.or (some ctx.pull.today)
    else dates.1
  let finish := if newlyTracked ∧ entry.status = .completed then dates.2.or (some ctx.pull.today)
    else dates.2
  { entry with
    startDate := if ctx.pull.replay.any (·.protectsStart media.id) then entry.startDate else start
    finishDate := if ctx.pull.replay.any (·.protectsFinish media.id) then entry.finishDate
      else finish }

def recordActivity (tracking : Tracking) (media : Media) (previous entry : TrackedEntry)
    (newlyTracked : Bool) : Tracking :=
  let statusChanged := decide (entry.status ≠ previous.status) || newlyTracked
  let progressChanged := decide (entry.progress ≠ previous.progress)
  let firstWatching := newlyTracked ||
    decide (previous.startDate = none ∧ previous.status ≠ .watching)
  let previousStatus := if newlyTracked then none else some previous.status
  if statusChanged || progressChanged then
    match media.kind with
    | .series => tracking.call (.progressActivity media.id
        (if newlyTracked then 0 else previous.progress) entry.progress entry.status
        (statusChanged && !(progressChanged || newlyTracked && decide (0 < entry.progress)))
        previousStatus firstWatching)
    | .movie => tracking.call (.dailyActivity media.id entry.status statusChanged previousStatus
        firstWatching)
  else tracking

/-- An observation that is neither stale nor unordered decides its title's status. -/
def accept (acc : Progressing) (media : Media) (entry previous : TrackedEntry) (row : Row)
    (rows : List Row) (proposed : Status) : Progressing :=
  let newlyTracked := !ctx.existingIds media.id
  let watches := if ctx.syncWatched then rows.filter (· ∈ ctx.newWatched) else []
  let status : TrackedEntry :=
    { entry with
      status := proposed
      progress := match media.kind with
        | .movie => if proposed = .completed then 1 else 0
        | .series => entry.progress }
  let marked := status.markStatusChange ctx.conn.source
    ((row.providerChangedAt ctx.reading).getD ctx.pull.now)
  let dated := ctx.withDates media previous newlyTracked marked
  let statusChanged := decide (proposed ≠ previous.status) || newlyTracked
  let dismissed := if proposed ≠ .watching ∧ statusChanged then
    acc.tracking.call (.dismissals media.id) else acc.tracking
  let recorded := recordActivity (dismissed.setEntry media.id dated) media previous dated newlyTracked
  let queued := if row ∈ ctx.changedActive ∧ ctx.approved then
    recorded.call (.progressUpdate media.id row) else recorded
  let rated := if proposed = .completed ∧ statusChanged then
    queued.call (.completionRating media.id) else queued
  { tracking := rated
    accepted := acc.accepted ++ watches
    inferred := acc.inferred
    changedMedia := if watches ≠ [] ∨ statusChanged ∨ dated.progress ≠ previous.progress then
      acc.changedMedia ++ [media.id] else acc.changedMedia }

def applyRow (acc : Progressing) (media : Media) (entry : TrackedEntry) (row : Row)
    (rows : List Row) : Progressing :=
  match ctx.ordering media entry row with
  | .stale => acc
  | .conflict =>
    let isComplete := decide (media.kind = .movie ∧ row ∈ ctx.newCompleted)
    let proposed := observedStatus (some entry.status) isComplete true
    { acc with tracking := ctx.raiseUnordered acc.tracking media entry row proposed }
  | .apply =>
    match media.kind with
    | .movie => ctx.accept acc media entry entry row rows
        (observedStatus (some entry.status) (decide (row ∈ ctx.newCompleted)) true)
    | .series =>
      let episodes := rows.filter (· ∈ ctx.newCompleted) ++ [row]
      let (tracking, advanced, isComplete, newly) := episodes.foldl
        (fun (tracking, advanced, _, newly) episode ↦
          let (tracking, advanced, isComplete, found) := ctx.applySeriesObservation tracking media
            advanced episode (decide (episode ∈ ctx.newCompleted))
          (tracking, advanced, isComplete, newly ++ found))
        (acc.tracking, entry, false, ([] : List ℕ))
      ctx.accept
        { acc with
          tracking := tracking
          inferred := if ctx.syncWatched then acc.inferred ++ newly else acc.inferred }
        media advanced entry row rows (observedStatus (some entry.status) isComplete true)

def latestKey (row : Row) : WithBot Int ×ₗ Int ×ₗ Int ×ₗ ℚ ×ₗ ℚ :=
  toLex (match row.providerChangedAt ctx.reading with
    | some at' => (at' : WithBot Int)
    | none => ⊥, row.playbackRank)

/-- Resume is the current title decision; without one the newest row decides. -/
def latest (rows : List Row) : Option Row :=
  let resumes := ctx.changedActive.filter fun item ↦
    rows.any fun row ↦ decide (item.contentId = row.contentId)
  firstMax ctx.latestKey (if resumes = [] then rows else resumes)

/-- The rows of one title, in the order they were reported. -/
def stepGroup (acc : Progressing) (rows : List Row) : Progressing :=
  let rows := match rows.head?.bind ctx.media with
    | some root => rows.filter fun row ↦ decide (ctx.allowed root.id (some row) ≠ some false)
    | none => rows
  if rows = [] then acc
  else
    match ctx.latest rows with
    | none => acc
    | some row =>
      match ctx.media row with
      | none => acc
      | some media =>
        if ctx.deleted media.id ∨ ctx.allowed media.id none = some false then acc
        else
          match acc.tracking.entries.get media.id with
          | none => acc
          | some entry =>
            if acc.tracking.hasPending media.id ∧ ctx.allowed media.id none ≠ some true then acc
            else ctx.applyRow acc media entry row rows

def groups : Dict ℕ (List Row) :=
  (ctx.newCompleted ++ ctx.changedActive).foldl (fun groups row ↦
    match ctx.media row with
    | some media => groups.set media.id ((groups.get media.id).getD [] ++ [row])
    | none => groups) Dict.empty

def processRows (acc : Progressing) : Progressing := ctx.groups.values.foldl ctx.stepGroup acc

end Context

end AnyList.Streaming
