import AnyList.Editor.SavedEntries

namespace AnyList.Editor

open AnyList.Library
open AnyList.Reconciliation.Watches (Status)
open AnyList.Streaming (observedStatus defaultDates)

/-- A title as the editor knows it, with its seasons and how many episodes of each are released. -/
structure Title where
  type : MediaType
  seasons : Option (List (ℕ × Option ℕ))
  progressPositions : Option (List String)

/-- An entry as the editor shows it; a patch may make any field null. -/
structure Entry where
  status : Option Status
  progress : Option ℕ
  releasedEpisodes : Option ℕ
  ratingMode : Option RatingMode
  manualScore : Option ℕ
  score : Option ℕ
  seasonScores : Option (List (ℕ × Option ℕ))
  notes : Option String
  startDate : Option Int
  finishDate : Option Int
  rewatchCount : Option ℕ
  seasonPosition : Option String

section paint

def newEntry : Entry where
  status := some .planning
  progress := some 0
  releasedEpisodes := none
  ratingMode := some .manual
  manualScore := none
  score := none
  seasonScores := some []
  notes := some ""
  startDate := none
  finishDate := none
  rewatchCount := some 0
  seasonPosition := none

variable (title : Title) (today : Int) (patch : EntryPatch)

def spread (entry : Entry) : Entry :=
  { entry with
    status := patch.status.getD entry.status
    progress := patch.progress.getD entry.progress
    ratingMode := patch.ratingMode.getD entry.ratingMode
    manualScore := patch.manualScore.getD entry.manualScore
    seasonScores := patch.seasonScores.getD entry.seasonScores
    notes := patch.notes.getD entry.notes
    startDate := patch.startDate.getD entry.startDate
    finishDate := patch.finishDate.getD entry.finishDate
    rewatchCount := patch.rewatchCount.getD entry.rewatchCount }

def Title.seasonsReleased : Option ℕ :=
  title.seasons.bind fun seasons ↦
    let regular := seasons.filter fun season ↦ decide (0 < season.1)
    if regular ≠ [] ∧ ∀ season ∈ regular, season.2.isSome then
      some ((regular.map fun season ↦ season.2.getD 0).foldl (· + ·) 0)
    else none

/-- The progress that a status gives. -/
def statusProgress (previous : Option Status) (entry : Entry) : Entry :=
  if patch.status.isSome ∧ title.type = .movie then
    { entry with progress := some (if entry.status = some .completed then 1 else 0) }
  else if entry.status = some .completed ∧ previous ≠ some .completed ∧ title.type = .series then
    match entry.releasedEpisodes.or title.seasonsReleased with
    | some released => if 0 < released then { entry with progress := some released } else entry
    | none => entry
  else entry

def position (progress : ℕ) : Option String :=
  if 0 < progress then title.progressPositions.bind fun positions ↦ positions[progress - 1]? else none

def reached (entry : Entry) (progress : ℕ) : Bool :=
  (entry.releasedEpisodes.or (if title.type = .movie then some 1 else none)).any fun released ↦
    decide (0 < released ∧ released ≤ progress)

/-- The position and the status that a changed progress gives. -/
def progressStatus (previous : Option Status) (previousProgress : ℕ) (entry : Entry) : Entry :=
  if entry.progress = some previousProgress then entry
  else
    let progress := entry.progress.getD 0
    let entry := { entry with seasonPosition := position title progress }
    if patch.progress.isSome ∧ patch.status.isNone ∧ 0 < progress then
      let completed := previous = some .completed ∨ reached title entry progress
      { entry with status := some (if completed then .completed else .watching) }
    else entry

def patchedScore (entry : Entry) : Entry :=
  match patch.manualScore with
  | some score => { entry with score := score.filter fun tenths ↦ decide (tenths ≠ 0) }
  | none => entry

def patchedDates (previous : Option Status) (entry : Entry) : Entry :=
  { entry with
    startDate :=
      if entry.status ≠ previous ∧ entry.status = some .watching ∧ entry.startDate = none ∧
        patch.startDate.isNone then some today else entry.startDate
    finishDate :=
      if entry.status ≠ previous ∧ entry.status = some .completed ∧ entry.finishDate = none ∧
        patch.finishDate.isNone then some today else entry.finishDate }

/-- One pending operation over an entry and its favourite; a removal has no patch. -/
def paintOne (shown : Option Entry × Bool) : Option EntryPatch → Option Entry × Bool
  | none => (none, false)
  | some patch =>
    -- a null favourite shows as none
    let favorite := (patch.favorite.map fun favorite ↦ favorite.getD false).getD shown.2
    if shown.1.isNone ∧ patch.onlyFavorite then (none, favorite)
    else
      let previous := shown.1.bind Entry.status
      let previousProgress := (shown.1.bind Entry.progress).getD 0
      let entry := spread patch (shown.1.getD newEntry)
      let entry := progressStatus title patch previous previousProgress
        (statusProgress title patch previous entry)
      (some (patchedDates today patch previous (patchedScore patch entry)), favorite)

def paint (operations : List (Option EntryPatch)) (committed : Option Entry × Bool) :
    Option Entry × Bool :=
  operations.foldl (paintOne title today) committed

end paint

end AnyList.Editor
