import AnyList.Library.Table
import AnyList.Reconciliation.Watches
import Mathlib.Data.List.Chain
import Mathlib.Data.Rat.Defs

namespace AnyList.Activity

open AnyList.Library
open AnyList.Reconciliation.Watches (Status)

def day : Int := 86400000000

structure Episode where
  id : ℕ
  seasonNumber : Int
  episodeNumber : Int
  deriving DecidableEq

def Episode.position (episode : Episode) : String :=
  "S" ++ toString episode.seasonNumber ++ "E" ++ toString episode.episodeNumber

/-- What is known of a title when an edit is recorded: its released episodes in order, the
announced size of its seasons and the episodes with a completed play. -/
structure Catalogue where
  isSeries : Bool
  episodes : List Episode
  expected : Int → Int
  completedPlays : List ℕ

namespace Catalogue

def finishedWatchedSeasons (cat : Catalogue) (watched : List Episode) : List Int :=
  let seasons := ((watched.map Episode.seasonNumber).filter fun number ↦ decide (0 < number)).dedup
  (seasons.filter fun number ↦
    let released := (cat.episodes.countP fun e ↦ decide (e.seasonNumber = number) : Int)
    let seen := (watched.countP fun e ↦ decide (e.seasonNumber = number) : Int)
    decide (0 < cat.expected number ∧ released = cat.expected number ∧
      cat.expected number = seen)).mergeSort (fun a b ↦ decide (a ≤ b))

def finishedSeasons (cat : Catalogue) (progress : ℕ) : List Int :=
  cat.finishedWatchedSeasons (cat.episodes.take progress)

/-- The episodes between two progress values: where they begin and end and the seasons they
finish. -/
def activitySpan (cat : Catalogue) (start stop : ℕ) : Option String × Option String × List Int :=
  if !cat.isSeries || decide (stop ≤ start) then (none, none, [])
  else if cat.episodes.length ≤ start ∨ cat.episodes.length < stop then (none, none, [])
  else
    ((cat.episodes[start]?).map Episode.position, (cat.episodes[stop - 1]?).map Episode.position,
      (cat.finishedSeasons stop).filter fun number ↦ decide (number ∉ cat.finishedSeasons start))

theorem activitySpan_of_le (cat : Catalogue) {start stop : ℕ} (h : stop ≤ start) :
    cat.activitySpan start stop = (none, none, []) := by
  simp [activitySpan, h]

end Catalogue

/-- The key a window is presented under: a legacy card keeps the day it was grouped by. -/
inductive WindowKey
  | day (date : Int)
  | instant (at_ : Int)
  deriving DecidableEq

structure Details where
  windowStartedAt : Option Int
  windowKey : Option WindowKey
  progressStart : Option ℕ
  progress : Option ℕ
  episodesWatched : Option ℕ
  watchedStartIds : Option (List ℕ)
  positionStart : Option String
  position : Option String
  episodePositions : Option (List String)
  finishedSeasons : List Int
  statusChanged : Bool
  startedWatching : Bool
  ratingChanged : Bool
  deriving DecidableEq

def Details.empty : Details :=
  ⟨none, none, none, none, none, none, none, none, none, [], false, false, false⟩

structure Card where
  userId : ℕ
  mediaId : ℕ
  status : Status
  score : Option ℚ
  payload : Details
  createdAt : Int
  deriving DecidableEq

def hasActivityEvent (status : Status) (details : Details) : Bool :=
  (details.statusChanged && (decide (status ≠ .watching) || details.startedWatching)) ||
    details.ratingChanged || details.episodesWatched.any (fun n ↦ decide (n ≠ 0)) ||
      !details.finishedSeasons.isEmpty

def windowStart (row : Card) : Int :=
  row.payload.windowStartedAt.getD (row.createdAt - row.createdAt % day)

def isOpen (now : Int) (row : Card) : Bool :=
  decide (windowStart row ≤ now ∧ now < windowStart row + day)

def isRecent (userId mediaId : ℕ) (now : Int) (row : Card) : Bool :=
  decide (row.userId = userId ∧ row.mediaId = mediaId ∧ now - day < row.createdAt ∧
    row.createdAt ≤ now)

/-- The newest row; of two created at once, the one inserted last. -/
def latest (rows : List (ℕ × Card)) : Option (ℕ × Card) :=
  rows.foldl (fun best row ↦
    if best.all fun b ↦ decide (b.2.createdAt ≤ row.2.createdAt) then some row else best) none

def activeCard (feed : Table Card) (userId mediaId : ℕ) (now : Int) : Option (ℕ × Card) :=
  (latest (feed.rows.filter fun row ↦ isRecent userId mediaId now row.2)).filter
    fun row ↦ isOpen now row.2

def setActivityWindow (details : Details) (row : Option Card) (now : Int) : Details :=
  if details.windowStartedAt.isSome then details
  else
    match row with
    | some card =>
      let start := windowStart card
      { details with windowStartedAt := some start, windowKey := some (.day (start / day)) }
    | none => { details with windowStartedAt := some now, windowKey := some (.instant now) }

structure Edit where
  progress : ℕ
  status : Status
  score : Option ℚ
  previousWatchedIds : Option (List ℕ)
  watchedIds : Option (List ℕ)
  catalogue : Catalogue
  now : Int

section record

variable (previousProgress : ℕ) (edit : Edit)

def baseline (details : Details) : ℕ :=
  match details.progressStart with
  | some start => start
  | none =>
    match details.progress with
    | some priorEnd =>
      let priorCount := details.episodesWatched.getD 0
      if priorCount ≠ 0 then priorEnd - priorCount else previousProgress
    | none => previousProgress

def countDetails (details : Details) : Details :=
  let start := baseline previousProgress details
  { details with
    episodesWatched := some (edit.progress - start)
    progressStart := some start
    progress := some edit.progress }

/-- The evidence of a window that knows its episodes. -/
def exactDetails (isUpdate : Bool) (start : ℕ) (details : Details) : Details :=
  let cat := edit.catalogue
  let catalogueIds := cat.episodes.map Episode.id
  let watchedIds := edit.watchedIds.getD (cat.completedPlays.filter (· ∈ catalogueIds))
  let currentIds := (watchedIds.filter (· ∈ catalogueIds)).dedup
  let startIds := ((details.watchedStartIds.getD
    (let previous := catalogueIds.filter (· ∈ edit.previousWatchedIds.getD catalogueIds)
    if isUpdate then previous.take start else previous)).filter (· ∈ catalogueIds)).dedup
  let new := cat.episodes.filter fun e ↦ decide (e.id ∈ currentIds ∧ e.id ∉ startIds)
  let count := currentIds.length - startIds.length
  let finished (ids : List ℕ) := cat.finishedWatchedSeasons
    (cat.episodes.filter fun e ↦ decide (e.id ∈ ids))
  { details with
    watchedStartIds := some (startIds.mergeSort fun a b ↦ decide (a ≤ b))
    episodesWatched := some count
    positionStart := if count ≠ 0 then new.head?.map Episode.position else none
    position := if count ≠ 0 then new.getLast?.map Episode.position else none
    episodePositions := some (new.map Episode.position)
    finishedSeasons := (finished currentIds).filter fun n ↦ decide (n ∉ finished startIds) }

def spanDetails (start : ℕ) (details : Details) : Details :=
  let span := edit.catalogue.activitySpan start edit.progress
  { details with
    positionStart := span.1
    position := span.2.1
    finishedSeasons := span.2.2 }

def progressDetails (row : Option Card) : Details :=
  let details := setActivityWindow ((row.map Card.payload).getD .empty) row edit.now
  let counted := countDetails previousProgress edit details
  let start := baseline previousProgress details
  if edit.watchedIds.isSome || counted.watchedStartIds.isSome then
    exactDetails edit row.isSome start counted
  else spanDetails edit start counted

/-- `record_progress_activity` for an edit that changes neither the status nor the rating, over
cards without imported streaming events. -/
def recordProgressActivity (feed : Table Card) (userId mediaId : ℕ) : Table Card :=
  let row := activeCard feed userId mediaId edit.now
  let details := progressDetails previousProgress edit (row.map Prod.snd)
  if hasActivityEvent edit.status details then
    match row with
    | some (id, _) => feed.modifyAt id fun card ↦
        { card with
          status := edit.status, score := edit.score, payload := details, createdAt := edit.now }
    | none => feed.insert ⟨userId, mediaId, edit.status, edit.score, details, edit.now⟩
  else
    match row with
    | some (id, _) => feed.eraseAt id
    | none => feed

end record

end AnyList.Activity
