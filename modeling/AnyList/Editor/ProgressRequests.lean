import AnyList.Editor.SavedEntries
import AnyList.Library.Transactions
import Mathlib.Data.List.Sort

namespace AnyList.Editor.ProgressRequests

open AnyList.Library.Transactions AnyList.Library.Transactions.Request AnyList.Timestamps
open AnyList.Reconciliation.Watches (Status)
open AnyList.Streaming (observedStatus defaultDates)

structure HttpError where
  status : ℕ
  detail : String
  code : Option String := none
  deriving DecidableEq

structure Episode where
  id : ℕ
  season : Int
  number : Int
  deriving DecidableEq

/-- An episode of the catalogue, with its release in days. -/
structure EpisodeRow extends Episode where
  showId : ℕ
  releaseDate : Option Int
  importReleased : Bool
  tmdbId : Option Int
  tvdbId : Option Int

structure ShowRow where
  id : ℕ
  tmdbId : Option Int
  tvdbId : Option Int

structure Catalogue where
  shows : List ShowRow
  episodes : List EpisodeRow
  nodup : (episodes.map fun row ↦ row.id).Nodup

/-- A film or a series with what its metadata says about its episodes. -/
structure TitleRow where
  id : ℕ
  type : MediaType
  tmdbId : Option Int
  tvdbId : Option Int
  releaseDate : Option Int
  catalogueRefreshed : Bool
  episodeIds : Option (List Int)
  byTvdb : Bool
  importEpisodeMediaIds : List ℕ

structure Now where
  time : Int
  today : Int
  utcToday : Int

section catalogue

variable (cat : Catalogue) (now : Now) (title : TitleRow)

def ShowRow.isOf (show' : ShowRow) : Bool :=
  decide (title.tmdbId.isSome ∧ show'.tmdbId = title.tmdbId ∨
    title.tvdbId.isSome ∧ show'.tvdbId = title.tvdbId)

def isCatalogued (row : EpisodeRow) : Bool :=
  match title.episodeIds with
  | none => true
  | some ids =>
    (if title.byTvdb then row.tvdbId else row.tmdbId).any (· ∈ ids) ||
      decide (row.id ∈ title.importEpisodeMediaIds) || row.importReleased

def isReleased (show' : ShowRow) (row : EpisodeRow) : Bool :=
  decide (row.showId = show'.id ∧ 0 < row.season) &&
    (row.releaseDate.any (· ≤ now.today) || row.importReleased) && isCatalogued title row

def notLater (episode episode' : Episode) : Prop :=
  episode.season < episode'.season ∨
    episode.season = episode'.season ∧ episode.number ≤ episode'.number

instance : DecidableRel notLater := fun _ _ ↦ inferInstanceAs (Decidable (_ ∨ _))

/-- The released regular episodes of a series in order; a film stands for itself. -/
def releasedEpisodes : List Episode :=
  match title.type with
  | .movie => if title.releaseDate.all (· ≤ now.today) then [⟨title.id, 0, 0⟩] else []
  | .series =>
    match cat.shows.find? (ShowRow.isOf title) with
    | none => []
    | some show' =>
      ((cat.episodes.filter (isReleased now title show')).map EpisodeRow.toEpisode).insertionSort
        notLater

end catalogue

structure Play where
  mediaId : ℕ
  completed : Bool
  watchedAt : Option Int
  dateInferred : Bool
  dateShared : Bool
  deriving DecidableEq

structure EntryRow extends TrackedEntry where
  statusSource : String
  statusChangedAt : Option Int
  initialImportCompletedAt : Option Int

/-- What is stored of a title for a viewer, with the activity feed and the records that are kept
for the providers. -/
structure Account (A O : Type) where
  entry : Option EntryRow
  favorite : Bool
  deleted : Bool
  outboundPending : Bool
  plays : List Play
  activity : A
  others : O

/-- What a save does to the activity and to the records for the providers. -/
structure Effects (A O : Type) where
  reconcileUnwatchedActivity : List Episode → List ℕ → List ℕ → A → A
  recordActivity : Option EntryRow → EntryRow → List ℕ → List ℕ → A → A
  deliver : Option EntryRow → EntryRow → List ℕ → List ℕ → O → O

/-- A request to save an entry: the fields of its body, and the episode that a request from a list
of episodes changes. -/
structure EntryEdit where
  patch : EntryPatch
  markReleasedWatched : Option Bool := none
  episodeChange : Option (ℕ × Bool) := none
  preserveStatus : Bool := false

namespace EntryEdit

variable (edit : EntryEdit) (title : TitleRow)

def onlyFavorite : Bool := edit.patch.onlyFavorite && edit.markReleasedWatched.isNone

def confirmed : Bool := edit.patch.confirmRollback.getD false

def marksReleased : Bool := edit.markReleasedWatched.getD false

def drivesMovie : Bool := decide (title.type = .movie) && edit.patch.status.isSome

def completesSeries (previous : Option Status) (status : Status) : Bool :=
  decide (title.type = .series ∧ status = .completed ∧ previous ≠ some .completed)

/-- Whether a request changes the progress. -/
def asksProgress (previous : Option Status) (status : Status) : Bool :=
  (given edit.patch.progress).isSome || edit.marksReleased ||
    completesSeries title previous status || edit.drivesMovie title || edit.episodeChange.isSome

/-- The progress that the body of a request asks for. -/
def requested (episodes : List Episode) (previous : Option Status) (status : Status) : Option ℕ :=
  if edit.drivesMovie title then some (if status = .completed then 1 else 0)
  else if edit.marksReleased || completesSeries title previous status then some episodes.length
  else given edit.patch.progress

/-- One more than the place of the last watched episode. -/
def lastWatched (ids watched : List ℕ) : ℕ :=
  (ids.zipIdx.filter fun (id, _) ↦ decide (id ∈ watched)).foldl (fun n (_, i) ↦ max n (i + 1)) 0

/-- Watching an episode keeps the later ones that are watched, unwatching one takes them back. -/
def target (ids watched : List ℕ) (requested : Option ℕ) : ℕ :=
  match edit.episodeChange with
  | none => requested.getD 0
  | some (id, true) => max (ids.idxOf id + 1) (lastWatched ids watched)
  | some (id, false) => ids.idxOf id

/-- A status of a film is saved on the film itself. -/
def episodes (cat : Catalogue) (now : Now) : List Episode :=
  if edit.drivesMovie title then [⟨title.id, 0, 0⟩] else releasedEpisodes cat now title

def marking (first watched : List ℕ) : List ℕ :=
  first.filter fun id ↦ !edit.preserveStatus || decide (id ∉ watched)

def removing (later watched : List ℕ) : List ℕ :=
  if edit.drivesMovie title then [] else watched.filter fun id ↦ decide (id ∈ later)

end EntryEdit

section plays

/-- The episodes among `ids` that are watched. -/
def watchedIds (ids : List ℕ) (plays : List Play) : List ℕ :=
  ids.filter fun id ↦ plays.any fun play ↦ decide (play.mediaId = id) && play.completed

/-- An explicit edit is better evidence for a play than a date that is shared by a title. -/
def dateShared (ids : List ℕ) (watchedAt : Int) (plays : List Play) : List Play :=
  plays.map fun play ↦
    if play.mediaId ∈ ids ∧ play.completed ∧ play.dateShared then
      { play with watchedAt := some watchedAt, dateInferred := true, dateShared := false }
    else play

def addPlays (ids : List ℕ) (watchedAt : Int) (plays : List Play) : List Play :=
  plays ++ ids.map fun id ↦ ⟨id, true, some watchedAt, true, false⟩

def removePlays (ids : List ℕ) (plays : List Play) : List Play :=
  plays.filter fun play ↦ decide (play.mediaId ∉ ids)

end plays

section entries

def newEntryRow (favorite : Bool) : EntryRow where
  toTrackedEntry := newTrackedEntry favorite
  statusSource := ""
  statusChangedAt := none
  initialImportCompletedAt := none

namespace EntryRow

variable (now : Now) (entry : EntryRow)

def withDefaultDates (previous : Option Status) (status : Status) : EntryRow :=
  let dated := Editor.withDefaultDates now.utcToday previous status entry.toTrackedEntry
  { entry with toTrackedEntry := dated }

def withFields (patch : EntryPatch) : EntryRow :=
  { entry with toTrackedEntry := Editor.edit patch entry.toTrackedEntry }

def withProgress (target : ℕ) : EntryRow :=
  { entry with toTrackedEntry := { entry.toTrackedEntry with progress := target } }

def markStatusChange : EntryRow :=
  { entry with statusSource := "local", statusChangedAt := some (milliseconds now.time) }

end EntryRow

/-- The marked episodes that get a play: a film that was not watched gets another one. -/
def adding (title : TitleRow) (previous : Option EntryRow) (marking watched : List ℕ) : List ℕ :=
  marking.filter fun id ↦ decide (id ∉ watched ∨ title.type = .movie ∧
    (previous.map fun row ↦ row.progress).getD 0 = 0 ∧
      (previous.map fun row ↦ row.status) ≠ some .completed)

/-- A date in days stands for its midnight. -/
def inferredWatchDatetime (now : Now) (date : Option Int) : Int :=
  match date with
  | some day => day * 86400000000
  | none => milliseconds now.time

/-- A saved entry, whether the viewer chose its status, and the episodes that were watched before
and after. -/
structure Saving where
  entry : EntryRow
  decided : Bool
  watched : List ℕ
  desired : List ℕ

/-- Watching episodes resumes a title, unless the request gives a status or keeps it. -/
def progressSaved (now : Now) (edit : EntryEdit) (previous : Option EntryRow) (entry : EntryRow)
    (target count : ℕ) : EntryRow × Bool :=
  let previousStatus := previous.map fun row ↦ row.status
  let moved := entry.withProgress target
  if edit.patch.status.isNone ∧ 0 < target ∧ (edit.preserveStatus = false ∨ previous = none) then
    let resumed := moved.withDefaultDates now previousStatus
      (observedStatus previousStatus (decide (target = count)) true)
    (resumed, decide (some resumed.status ≠ previousStatus))
  else (moved, edit.patch.status.isSome)

end entries

section requests

variable {A O : Type} (fx : Effects A O) (cat : Catalogue) (now : Now)

abbrev SaveRequest (A O : Type) (α : Type) := Request (Account A O) HttpError α

def setEntry (entry : EntryRow) : SaveRequest A O Unit :=
  write fun account ↦ { account with entry := some entry }

def rollbackError (preserveStatus : Bool) : HttpError :=
  if preserveStatus then
    { status := 409, code := some "watch_rollback_required"
      detail := "This removes watched progress and deletes the recorded watch dates and evidence " ++
        "for this and all later episodes." }
  else { status := 409, detail := "Confirm marking later episodes unwatched" }

/-- Marks the first `target` episodes as watched and takes the later ones back. -/
def savePlays (title : TitleRow) (edit : EntryEdit) (previous : Option EntryRow)
    (episodes : List Episode) (watched : List ℕ) (target : ℕ) (watchedAt : Int) :
    SaveRequest A O Unit := do
  let ids := episodes.map Episode.id
  let marking := edit.marking (ids.take target) watched
  let removing := edit.removing title (ids.drop target) watched
  write fun account ↦ { account with plays := dateShared marking watchedAt account.plays }
  reject (removing ≠ [] ∧ edit.confirmed = false) (rollbackError edit.preserveStatus)
  write fun account ↦ { account with
    plays := addPlays (adding title previous marking watched) watchedAt account.plays }
  if removing ≠ [] then
    write fun account ↦ { account with
      plays := removePlays (ids.drop target) account.plays
      activity := fx.reconcileUnwatchedActivity episodes (ids.take target) removing
        account.activity }
  else pure ()

def saveProgress (title : TitleRow) (edit : EntryEdit) (previous : Option EntryRow)
    (entry : EntryRow) : SaveRequest A O Saving := do
  reject (title.type = .series ∧ title.catalogueRefreshed = false)
    { status := 409, detail := "Refresh episode metadata on the title page before changing progress" }
  let episodes := edit.episodes title cat now
  let requested := edit.requested title episodes (previous.map fun row ↦ row.status) entry.status
  reject (episodes = [] ∨ requested.any (episodes.length < ·))
    { status := 409, detail := "Released episode metadata is needed before changing progress" }
  let ids := episodes.map Episode.id
  let account ← read
  let watched := watchedIds ids account.plays
  reject (edit.episodeChange.any fun change ↦ decide (change.1 ∉ ids))
    { status := 409, detail := "A released episode from this series is required" }
  let target := edit.target ids watched requested
  let finished := if entry.status = .completed ∧ edit.preserveStatus = false then entry.finishDate
    else none
  savePlays fx title edit previous episodes watched target (inferredWatchDatetime now finished)
  let saved := progressSaved now edit previous entry target episodes.length
  setEntry saved.1
  return ⟨saved.1, saved.2, watched, ids.take target⟩

/-- The checks of the fields of a request. -/
def checkFields (title : TitleRow) (edit : EntryEdit) (entry : EntryRow) :
    SaveRequest A O Unit := do
  let scores := given edit.patch.seasonScores
  reject (scores.isSome ∧ title.type ≠ .series)
    { status := 422, detail := "Movies do not have season ratings" }
  reject (given edit.patch.ratingMode = some .average ∧ title.type ≠ .series)
    { status := 422, detail := "Only shows can average season ratings" }
  reject (anyScore (scores.getD []) = true ∧ anyScore entry.seasonScores.entries = false ∧
      given edit.patch.ratingMode = none)
    { status := 409, detail := "Choose average seasons or a separate show score" }

/-- The fields that may be absent but not null. -/
def checkNulls (edit : EntryEdit) : SaveRequest A O Unit := do
  reject (edit.patch.ratingMode = some none)
    { status := 422, detail := "rating_mode cannot be null" }
  reject (edit.patch.rewatchCount = some none)
    { status := 422, detail := "rewatch_count cannot be null" }

def favor (edit : EntryEdit) (account : Account A O) : Account A O :=
  let entry := account.entry.map fun row ↦
    { row with favorite := (given edit.patch.favorite).getD (row.favorite || account.favorite) }
  { account with entry := entry, favorite := (given edit.patch.favorite).getD account.favorite }

/-- A title that is edited again is no longer deleted. -/
def openEntry (entry : EntryRow) (account : Account A O) : Account A O :=
  match account.entry with
  | some _ => account
  | none => { account with entry := some entry, deleted := false, outboundPending := false }

/-- What follows a save: the time of a status the viewer chose, the activity and the records for
the providers. -/
def finish (previous : Option EntryRow) (saving : Saving) : SaveRequest A O Unit := do
  let decided := if saving.decided then saving.entry.markStatusChange now else saving.entry
  let saved := if previous.map (fun row ↦ row.status) = some decided.status then decided
    else { decided with initialImportCompletedAt := none }
  setEntry saved
  write fun account ↦ { account with
    activity := fx.recordActivity previous saved saving.watched saving.desired account.activity
    others := fx.deliver previous saved saving.watched saving.desired account.others }

def saveEntry (title : Option TitleRow) (edit : EntryEdit) : SaveRequest A O Unit :=
  match title with
  | none => raise { status := 404, detail := "Title not found" }
  | some title => do
    reject (edit.episodeChange.isSome ∧ title.type ≠ .series)
      { status := 404, detail := "Series not found" }
    reject (edit.patch.favorite = some none) { status := 422, detail := "favorite cannot be null" }
    let stored ← read
    write (favor edit)
    let account ← read
    if edit.onlyFavorite then commit
    else do
      let previous := account.entry
      let entry := previous.getD (newEntryRow stored.favorite)
      write (openEntry entry)
      checkFields title edit entry
      let previousStatus := previous.map fun row ↦ row.status
      let status := (given edit.patch.status).getD entry.status
      let dated := entry.withDefaultDates now previousStatus status
      setEntry dated
      checkNulls edit
      let edited := dated.withFields edit.patch
      setEntry edited
      let saving ←
        if edit.asksProgress title previousStatus status then
          saveProgress fx cat now title edit previous edited
        else pure ⟨edited, edit.patch.status.isSome, [], []⟩
      finish fx now previous saving
      commit

end requests

section endpoints

variable {A O : Type} (fx : Effects A O) (cat : Catalogue) (now : Now)

inductive ProgressRequest
  | entry (patch : EntryPatch) (markReleasedWatched : Option Bool)
  | episode (id : ℕ) (watched confirmRollback : Bool)
  | season (number : Int) (watched confirmRollback : Bool)

def episodeEdit (id : ℕ) (watched confirmRollback : Bool) : EntryEdit where
  patch := { confirmRollback := some confirmRollback }
  episodeChange := some (id, watched)
  preserveStatus := true

/-- The last episode of a season that is watched, or the first one of a season that is not. -/
def seasonEndpoint (episodes : List Episode) (number : Int) (watched : Bool) : Option ℕ :=
  let positions := episodes.filter fun episode ↦ decide (episode.season = number)
  (if watched then positions.getLast? else positions.head?).map Episode.id

def handle (title : Option TitleRow) : ProgressRequest → SaveRequest A O Unit
  | .entry patch markReleasedWatched =>
    saveEntry fx cat now title { patch := patch, markReleasedWatched := markReleasedWatched }
  | .episode id watched confirmRollback =>
    saveEntry fx cat now title (episodeEdit id watched confirmRollback)
  | .season number watched confirmRollback =>
    match title.filter fun title ↦ decide (title.type = .series ∧ 0 < number) with
    | none => raise { status := 404, detail := "Regular season not found" }
    | some title =>
      match seasonEndpoint (releasedEpisodes cat now title) number watched with
      | none => raise { status := 409, detail :=
          "Released episode metadata is needed before changing this season" }
      | some id => saveEntry fx cat now (some title) (episodeEdit id watched confirmRollback)

end endpoints

end AnyList.Editor.ProgressRequests
