import AnyList.Reconciliation.StagedWatches
import AnyList.Library.KeepApart

namespace AnyList.Reconciliation.WatchDates

open AnyList.Timestamps AnyList.Reconciliation.Resolve AnyList.Reconciliation.Sources
open AnyList.Reconciliation.Watches AnyList.Library.Members AnyList.Library.KeepApart

structure DatedEvent extends WatchEvent where
  dateShared : Bool
  deriving DecidableEq

/-- A date that a provider reports for a play. -/
structure DateReport where
  source : Source
  mediaId : ℕ
  watchedAt : DateTime
  authoritative : Bool

structure Correction where
  source : Source
  mediaId : ℕ
  eventId : ℕ
  previousDate : Option Int
  normalized : Int
  deriving DecidableEq

structure Group where
  mediaId : ℕ
  eventId : ℕ
  previousDate : Option Int
  deriving DecidableEq

def Correction.group (c : Correction) : Group := ⟨c.mediaId, c.eventId, c.previousDate⟩

namespace DatedEvent

def isReplaceable (event : DatedEvent) : Bool := event.dateInferred || event.dateShared

def time (event : DatedEvent) : Int := effectiveTime event.toWatchEvent

/-- Everything a row says about its play. -/
def record (event : DatedEvent) : DatedEvent :=
  { event with toWatchEvent := { event.toWatchEvent with id := 0 } }

end DatedEvent

def day (t : Int) : Int := t / 86400000000

def isMidnight (t : Int) : Bool := decide (t % 86400000000 = 0)

def replaceInferredWatchDate (event : DatedEvent) (watchedAt : Option Int) (inferred : Bool) :
    DatedEvent × Bool :=
  match watchedAt.map fun t ↦ naiveUtc (.naive t) with
  | none => (event, false)
  | some normalized =>
    if event.watchedAt ≠ none ∧ ¬event.dateInferred ∧ ¬event.dateShared then (event, false)
    else if inferred ∧ event.watchedAt ≠ none ∧ ¬event.dateShared then (event, false)
    else ({ event with watchedAt := some normalized, dateInferred := inferred, dateShared := false },
      true)

/-- Whether a reported date is already represented by a stored play, and the correction it
asks for while the cycle collects. -/
def reconcileInferredWatchDate (stored : List DatedEvent) (report : DateReport) :
    Bool × Option Correction :=
  let normalized := naiveUtc report.watchedAt
  let ofTitle := stored.filter fun e ↦ decide (e.mediaId = report.mediaId) && e.completed
  if ofTitle.any fun e ↦ !e.dateInferred && decide (e.watchedAt = some normalized) then
    (false, none)
  else
    match ofTitle.filter DatedEvent.isReplaceable with
    | [candidate] =>
      let current := candidate.watchedAt.map fun t ↦ naiveUtc (.naive t)
      if current = some normalized then (true, none)
      else if ¬candidate.dateShared ∧ current.map day = some (day normalized) ∧
          (¬report.authoritative ∨ isMidnight normalized) then (true, none)
      else (true, some
        ⟨report.source, report.mediaId, candidate.id, candidate.watchedAt, normalized⟩)
    | _ => (false, none)

/-- Every provider of a cycle reports against the same stored plays, since what the cycle
writes stays staged until it applies. -/
def dateCorrections (stored : List DatedEvent) (reports : List DateReport) : List Correction :=
  reports.filterMap fun report ↦ (reconcileInferredWatchDate stored report).2

def decisionAllows (decisions : List (ℕ × Decision Source Bool)) (mediaId : ℕ) : Bool :=
  (decisions.lookup mediaId).all fun decision ↦
    !decision.conflict && !decision.stale && !decide (decision.value = some false)

structure Dating where
  events : List DatedEvent
  times : ℕ → List Int

def ofTitle (mediaId : ℕ) (events : List DatedEvent) : List DatedEvent :=
  events.filter fun e ↦ decide (e.mediaId = mediaId)

def loadExistingWatchTimes (events : List DatedEvent) (mediaId : ℕ) : List Int :=
  (ofTitle mediaId events).map DatedEvent.time

section apply

variable (window : ℕ) (now : Int) (applied : List Correction)

def newWatch (id mediaId : ℕ) (at' : Int) : DatedEvent :=
  ⟨⟨id, mediaId, some at', now, true, false, false⟩, false⟩

def freshId (events : List DatedEvent) : ℕ := (events.map (·.id)).foldl max 0 + 1

def addDate (mediaId : ℕ) (s : Dating) (at' : Int) : Dating :=
  if isDuplicateWatchTime (s.times mediaId) at' window then s
  else
    { events := s.events ++ [newWatch now (freshId s.events) mediaId at']
      times := Function.update s.times mediaId (s.times mediaId ++ [at']) }

/-- The dates of a group, the newest first. -/
def groupDates (group : Group) : List Int :=
  (distinct ((applied.filter fun c ↦ decide (c.group = group)).map Correction.normalized)).insertionSort
    fun s t ↦ t ≤ s

/-- The estimate of a group, unless its row has changed since the dates were reported. -/
def liveEvent (events : List DatedEvent) (group : Group) : Option DatedEvent :=
  (events.find? fun e ↦ decide (e.id = group.eventId)).filter fun e ↦
    decide (e.watchedAt = group.previousDate) && e.isReplaceable

def correctGroup (s : Dating) (group : Group) : Dating :=
  match liveEvent s.events group, groupDates applied group with
  | some event, newest :: rest =>
    let corrected := (replaceInferredWatchDate event (some newest) false).1
    let previousTime := group.previousDate.getD event.createdAt
    let moved : Dating :=
      { events := s.events.map fun e ↦ if e.id = event.id then corrected else e
        times := Function.update s.times group.mediaId
          ((s.times group.mediaId).erase previousTime ++ [corrected.time]) }
    (newest :: rest).foldl (addDate window now group.mediaId) moved
  | _, _ => s

end apply

/-- The plays after the corrections a cycle collected, with the decisions it took. -/
def watchDates (configured : Option Int) (now : Int) (decisions : List (ℕ × Decision Source Bool))
    (events : List DatedEvent) (corrections : List Correction) : List DatedEvent :=
  let applied := corrections.filter fun c ↦ decisionAllows decisions c.mediaId
  let groups := distinct (applied.map Correction.group)
  (groups.foldl (correctGroup (dedupWindowMinutes configured) now applied)
    ⟨events, loadExistingWatchTimes events⟩).events

end AnyList.Reconciliation.WatchDates
