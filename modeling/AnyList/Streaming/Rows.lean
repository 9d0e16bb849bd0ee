import AnyList.Library.Dict
import Mathlib

namespace AnyList.Streaming

open AnyList.Library

inductive Kind
  | movie
  | series
  deriving DecidableEq

/-- What the standard library reads from a provider's text, and the ISO form of a clock
(naive UTC, in microseconds). -/
structure Reading where
  clock : String → Option Int
  watchDate : String → Option Int
  isoZ : Int → String
  strip : String → String
  int : String → Option Int

/-- A normalised provider row. A missing or null field is `none`; `watchedTime` is
`some none` when the counter is present but null. -/
structure Row where
  contentId : String
  contentType : Option Kind
  season : Option Int
  episode : Option Int
  position : Option ℚ
  duration : Option ℚ
  watchedTime : Option (Option ℚ)
  watchedAt : Option String
  lastWatched : Option String
  updatedAt : Option String
  modifiedAt : Option String
  dateShared : Bool
  deriving DecidableEq

namespace Row

def fraction (row : Row) : ℚ := row.position.getD 0 / row.duration.getD 0

/-- The `content_id:season:episode` key of a row. -/
def watchKey (row : Row) : String × Option Int × Option Int :=
  (row.contentId, row.season, row.episode)

/-- A watch as the delta compares it: its key, its play date and whether it is shared. -/
def watchObservation (row : Row) : (String × Option Int × Option Int) × Option String × Bool :=
  (row.watchKey, row.watchedAt, row.dateShared)

def isActive (row : Row) : Bool :=
  decide (0 < row.duration.getD 0) && decide (0 < row.fraction ∧ row.fraction < 9 / 10)

/-- Actual viewing time, or the offset of a provider without a counter, in seconds. -/
def observedWatchSeconds (row : Row) : ℚ :=
  max 0 ((row.watchedTime.getD row.position).getD 0 / 1000)

def isCompleted (row : Row) : Bool :=
  let duration := row.duration.getD 0 / 1000
  decide (0 < duration ∧ 9 / 10 ≤ row.observedWatchSeconds / duration)

def samePlayback (left right : Row) : Bool :=
  decide (left.position = right.position ∧ left.duration = right.duration ∧
    left.season = right.season ∧ left.episode = right.episode)

def playbackRank (row : Row) : Int ×ₗ Int ×ₗ ℚ ×ₗ ℚ :=
  let position := row.position.getD 0
  let duration := row.duration.getD 0
  toLex (row.season.getD 0, toLex (row.episode.getD 0,
    toLex (if 0 < duration then position / duration else 0, position)))

def changedAt (reading : Reading) (updatedAt modifiedAt watchedAt lastWatched : Option String) :
    Option Int :=
  (updatedAt.bind reading.clock).or ((modifiedAt.bind reading.clock).or
    ((watchedAt.bind reading.clock).or (lastWatched.bind reading.clock)))

def providerChangedAt (reading : Reading) (row : Row) : Option Int :=
  changedAt reading row.updatedAt row.modifiedAt row.watchedAt row.lastWatched

end Row

/-- The rows in progress, one for each title: a later row replaces an earlier one. -/
def activeRows (rows : List Row) : Dict String Row :=
  Dict.empty.setAll ((rows.filter Row.isActive).map fun row ↦ (row.contentId, row))

def completedProgress (record : Row) (watched : List Row) : Bool :=
  watched.any fun row ↦ decide (row.watchKey = record.watchKey)

def completedRows (progress : List Row) : List Row := progress.filter Row.isCompleted

theorem contentId_of_activeRows {rows : List Row} {key : String} {row : Row}
    (h : (activeRows rows).get key = some row) :
    row ∈ rows ∧ row.contentId = key := by
  obtain h | h := Dict.mem_or_get_of_get_setAll h
  · obtain ⟨row', hrow', heq⟩ := List.mem_map.mp h
    obtain ⟨rfl, rfl⟩ := Prod.mk.inj heq
    exact ⟨List.mem_of_mem_filter hrow', rfl⟩
  · simp at h

end AnyList.Streaming
