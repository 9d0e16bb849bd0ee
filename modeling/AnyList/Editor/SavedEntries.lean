import AnyList.Library.Dict
import AnyList.Streaming.Account

namespace AnyList.Editor

open AnyList.Library
open AnyList.Reconciliation.Watches (Status)
open AnyList.Streaming (observedStatus defaultDates)

inductive MediaType
  | movie
  | series
  deriving DecidableEq

inductive RatingMode
  | manual
  | average
  deriving DecidableEq

/-- Each field is absent, null or has a value; scores count tenths. -/
structure EntryPatch where
  status : Option (Option Status) := none
  manualScore : Option (Option ℕ) := none
  ratingMode : Option (Option RatingMode) := none
  seasonScores : Option (Option (List (ℕ × Option ℕ))) := none
  favorite : Option (Option Bool) := none
  notes : Option (Option String) := none
  startDate : Option (Option Int) := none
  finishDate : Option (Option Int) := none
  rewatchCount : Option (Option ℕ) := none
  progress : Option (Option ℕ) := none
  confirmRollback : Option Bool := none

namespace EntryPatch

variable (patch : EntryPatch)

def onlyFavorite : Bool :=
  patch.favorite.isSome && patch.status.isNone && patch.manualScore.isNone &&
    patch.ratingMode.isNone && patch.seasonScores.isNone && patch.notes.isNone &&
    patch.startDate.isNone && patch.finishDate.isNone && patch.rewatchCount.isNone &&
    patch.progress.isNone && patch.confirmRollback.isNone

theorem status_of_onlyFavorite (h : patch.onlyFavorite = true) : patch.status = none := by
  simp only [onlyFavorite, Bool.and_eq_true, Option.isNone_iff_eq_none] at h
  tauto

theorem progress_of_onlyFavorite (h : patch.onlyFavorite = true) : patch.progress = none := by
  simp only [onlyFavorite, Bool.and_eq_true, Option.isNone_iff_eq_none] at h
  tauto

theorem dates_of_onlyFavorite (h : patch.onlyFavorite = true) :
    patch.startDate = none ∧ patch.finishDate = none := by
  simp only [onlyFavorite, Bool.and_eq_true, Option.isNone_iff_eq_none] at h
  tauto

end EntryPatch

structure TrackedEntry where
  status : Status
  progress : ℕ
  ratingMode : RatingMode
  manualScore : Option ℕ
  seasonScores : Dict ℕ (Option ℕ)
  favorite : Bool
  notes : Option String
  startDate : Option Int
  finishDate : Option Int
  rewatchCount : ℕ

/-- A title with its released episodes, which for a movie is the movie itself. -/
structure Media where
  type : MediaType
  released : ℕ
  refreshed : Bool
  movie_released : type = .movie → released ≤ 1

/-- What is stored of a title for a viewer, with the positions of the watched episodes. -/
structure Saved where
  entry : Option TrackedEntry
  favorite : Bool
  watched : List ℕ

def newTrackedEntry (favorite : Bool) : TrackedEntry where
  status := .planning
  progress := 0
  ratingMode := .manual
  manualScore := none
  seasonScores := Dict.empty
  favorite := favorite
  notes := none
  startDate := none
  finishDate := none
  rewatchCount := 0

section saving

variable (media : Media) (today : Int) (body : EntryPatch)

/-- A value of a field that is given and not null. -/
def given {α : Type} (field : Option (Option α)) : Option α := field.bind id

def anyScore (scores : List (ℕ × Option ℕ)) : Bool := scores.any fun score ↦ score.2.isSome

def refused (entry : TrackedEntry) : Prop :=
  (given body.seasonScores).isSome ∧ media.type ≠ .series ∨
    given body.ratingMode = some .average ∧ media.type ≠ .series ∨
    anyScore ((given body.seasonScores).getD []) = true ∧
      anyScore entry.seasonScores.entries = false ∧ given body.ratingMode = none ∨
    body.ratingMode = some none ∨ body.rewatchCount = some none

instance decidableRefused (entry : TrackedEntry) : Decidable (refused media body entry) :=
  inferInstanceAs (Decidable (_ ∨ _ ∨ _ ∨ _ ∨ _))

/-- The fields a patch sets after the defaults of its status. -/
def edit (entry : TrackedEntry) : TrackedEntry :=
  { entry with
    manualScore := body.manualScore.getD entry.manualScore
    ratingMode := (given body.ratingMode).getD entry.ratingMode
    favorite := (given body.favorite).getD entry.favorite
    notes := body.notes.getD entry.notes
    startDate := body.startDate.getD entry.startDate
    finishDate := body.finishDate.getD entry.finishDate
    rewatchCount := (given body.rewatchCount).getD entry.rewatchCount
    seasonScores := entry.seasonScores.setAll ((given body.seasonScores).getD []) }

def completing (previous : Option Status) (status : Status) : Bool :=
  decide (media.type = .series ∧ status = .completed ∧ previous ≠ some .completed)

def statusDriven : Bool := decide (media.type = .movie) && body.status.isSome

def withDefaultDates (previous : Option Status) (status : Status) (entry : TrackedEntry) :
    TrackedEntry :=
  let dates := defaultDates previous status entry.startDate entry.finishDate today
  { entry with status := status, startDate := dates.1, finishDate := dates.2 }

def episodeCount : ℕ := if statusDriven media body then 1 else media.released

def target (previous : Option Status) (status : Status) : ℕ :=
  if statusDriven media body then if status = .completed then 1 else 0
  else if completing media previous status then media.released
  else (given body.progress).getD 0

/-- The watched episodes that a lower progress takes back. -/
def removing (previous : Option Status) (status : Status) (watched : List ℕ) : List ℕ :=
  if statusDriven media body then []
  else watched.filter fun episode ↦
    decide (target media body previous status ≤ episode ∧ episode < media.released)

/-- An entry with its progress, which resumes a title unless the patch gives a status. -/
def withProgress (previous : Option Status) (progress : ℕ) (entry : TrackedEntry) : TrackedEntry :=
  if body.status.isNone ∧ 0 < progress then
    withDefaultDates today previous
      (observedStatus previous (decide (progress = episodeCount media body)) true)
      { entry with progress := progress }
  else { entry with progress := progress }

/-- The progress and the watched episodes, unless they need a refresh, a release or a consent. -/
def saveProgress (previous : Option Status) (favorite : Bool) (watched : List ℕ)
    (entry : TrackedEntry) : Option Saved :=
  let target := target media body previous entry.status
  let removing := removing media body previous entry.status watched
  if (given body.progress).isNone ∧ completing media previous entry.status = false ∧
      statusDriven media body = false then
    some { entry := some entry, favorite := favorite, watched := watched }
  else if media.type = .series ∧ media.refreshed = false then none
  else if episodeCount media body = 0 ∨ episodeCount media body < target then none
  else if removing ≠ [] ∧ body.confirmRollback ≠ some true then none
  else some
    { entry := some (withProgress media today body previous target entry)
      favorite := favorite
      watched := watched.filter (· ∉ removing) ++ (List.range target).filter (· ∉ watched) }

/-- A tracked title whose favourite is stored apart is a favourite too. -/
def withFavorite (row : Bool) (entry : TrackedEntry) : TrackedEntry :=
  { entry with favorite := (given body.favorite).getD (entry.favorite || row) }

def saveEntry (saved : Saved) : Option Saved :=
  if body.favorite = some none then none
  else
    let favorite := (given body.favorite).getD saved.favorite
    let entry := saved.entry.map (withFavorite body saved.favorite)
    if body.onlyFavorite then some { saved with entry := entry, favorite := favorite }
    else
      let previous := entry.map TrackedEntry.status
      let entry := entry.getD (newTrackedEntry saved.favorite)
      if refused media body entry then none
      else
        let status := (given body.status).getD entry.status
        saveProgress media today body previous favorite saved.watched
          (edit body (withDefaultDates today previous status entry))

/-- Patches one after another. -/
def saveAll (bodies : List EntryPatch) (saved : Saved) : Option Saved :=
  bodies.foldlM (fun saved body ↦ saveEntry media today body saved) saved

end saving

end AnyList.Editor
