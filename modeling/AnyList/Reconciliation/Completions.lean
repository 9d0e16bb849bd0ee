import AnyList.Reconciliation.Watches
import Mathlib

namespace AnyList.Reconciliation.Completions

open AnyList.Timestamps AnyList.Reconciliation.Resolve AnyList.Reconciliation.Sources
open AnyList.Reconciliation.Watches

/-- The playback tuple: a status with the episode and position it stands at. -/
structure Playback where
  status : Status
  season : Option ℕ
  episode : Option ℕ
  position : Option ℚ
  duration : Option ℚ
  deriving DecidableEq

namespace Playback

def bare (status : Status) : Playback := ⟨status, none, none, none, none⟩

/-- A missing number has no place beside a present one. -/
def compareNumber : Option ℕ → Option ℕ → Option Ordering
  | none, none => some .eq
  | some number, some number' => some (compare number number')
  | _, _ => none

/-- The viewing order of two playbacks: the first number in which they differ decides. -/
def compareNumbers (playback playback' : Playback) : Option Ordering :=
  match compareNumber playback.season playback'.season with
  | some .eq => compareNumber playback.episode playback'.episode
  | order => order

/-- A resume that names its episode. -/
def isResume (playback : Playback) : Bool :=
  decide (playback.status = .watching) && (playback.season.isSome && playback.episode.isSome)

/-- A movie's completion covers everything, an episode's the resumes up to it. -/
def covers (completion observed : Playback) : Bool :=
  completion.status = .completed ||
    observed.isResume && (observed.compareNumbers completion).any Ordering.isLE

def isAfter (observed completion : Playback) : Bool :=
  observed.isResume && decide (observed.compareNumbers completion = some .gt)

end Playback

abbrev PlaybackObservation := Observation Source Playback

def covers (completion o : PlaybackObservation) : Bool :=
  completion.value.any fun done ↦ o.value.any done.covers

/-- Earlier episode history enriches the series without replacing a later resume. -/
def isSetAside (result : List PlaybackObservation) (completion : PlaybackObservation) : Bool :=
  completion.value.any fun done ↦
    decide (done.status ≠ .completed) && result.any fun o ↦ o.value.any fun p ↦ p.isAfter done

def isNewer (completion o : PlaybackObservation) : Bool :=
  o.changedAt.any fun at' ↦ completion.changedAt.any fun done ↦ at'.instant < done.instant

def replacesOwn (completion o : PlaybackObservation) : Bool :=
  decide (o.source = completion.source) &&
    o.changedAt.all fun at' ↦ completion.changedAt.all fun done ↦ at'.instant ≤ done.instant

def coverResumes (result : List PlaybackObservation) (completion : PlaybackObservation) :
    List PlaybackObservation :=
  if isSetAside result completion then result
  else
    (result.filter fun o ↦
      !(covers completion o && (isNewer completion o || replacesOwn completion o))) ++
      [completion]

def reconcileCompletions (observations completions : List PlaybackObservation) :
    List PlaybackObservation :=
  completions.foldl coverResumes observations

/-- An unknown part of a sort key comes first. -/
def orFirst {α : Type*} : Option α → WithBot α
  | some a => a
  | none => ⊥

/-- Completions are taken in the order of their clocks, then episodes, then sources. -/
def completionKey (o : PlaybackObservation) :
    WithBot Int ×ₗ WithBot ℕ ×ₗ WithBot ℕ ×ₗ String :=
  toLex (orFirst (o.changedAt.map DateTime.instant),
    toLex (orFirst (o.value.bind Playback.season),
      toLex (orFirst (o.value.bind Playback.episode), sourceKey o.source)))

def sortCompletions (completions : List PlaybackObservation) : List PlaybackObservation :=
  completions.insertionSort fun c c' ↦ completionKey c ≤ completionKey c'

/-- The completion that an accepted watch decision gives one of its sources. Without
a clock of its own it takes the decision's, marked as inferred. -/
def historyCompletion (value : Playback) (decision : Decision Source Bool)
    (evidence : Option Int) (source : Source) : PlaybackObservation where
  source := source
  value := some value
  changedAt := (evidence.or decision.changedAt).map .naive
  previous := none
  observedAfter := none
  inferred := evidence.isNone && decision.changedAt.isSome

/-- The observation as the status decision reads it: a saved status equal to the
local one counts as the local value. -/
def normalize (localValue : Option Playback) (o : PlaybackObservation) : PlaybackObservation :=
  let previous :=
    match o.previous, localValue with
    | some (some saved), some current =>
      if saved.status = current.status then some (some current) else o.previous
    | _, _ => o.previous
  ⟨o.source, o.value, o.changedAt, previous, o.observedAfter, false⟩

def playbackDecision (localValue : Option Playback) (localAt : Option DateTime) (startedAt : Int)
    (isProtected : Bool) (observations : List PlaybackObservation) : Decision Source Playback :=
  let normalized := observations.map (normalize localValue)
  let decision := resolve localValue localAt normalized (some startedAt) none
  let enriched := resolve none localAt normalized (some startedAt) none
  if isProtected then .asStale localValue
  else if decision.conflict ∧ localValue = some (.bare .watching) ∧
      normalized.all (·.value.any (·.status = .watching)) ∧ ¬enriched.conflict then enriched
  else decision

/-- The observations of one title that reach its decision. A series with history
alone has none. -/
def titleObservations (resumes completions : List PlaybackObservation) :
    List PlaybackObservation :=
  match completions with
  | [] => resumes
  | first :: _ =>
    if ¬first.value.any (·.status = .completed) ∧ resumes = [] then []
    else reconcileCompletions resumes (sortCompletions completions)

def titleDecision (localValue : Option Playback) (localAt : Option DateTime) (startedAt : Int)
    (isProtected : Bool) (resumes completions : List PlaybackObservation) :
    Option (Decision Source Playback) :=
  let observations := titleObservations resumes completions
  if observations = [] then none
  else some (playbackDecision localValue localAt startedAt isProtected
    (sortBySource observations))

end AnyList.Reconciliation.Completions
