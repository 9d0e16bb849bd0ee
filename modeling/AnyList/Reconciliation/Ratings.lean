import AnyList.Reconciliation.Sources
import AnyList.Library.Writes
import Mathlib.Data.Rat.Floor
import Mathlib.Algebra.Order.Field.Rat

namespace AnyList.Reconciliation.Ratings

open AnyList.Timestamps AnyList.Reconciliation.Resolve AnyList.Reconciliation.Sources
open AnyList.Library.Members AnyList.Library.Writes

/-- A title and, for a season's rating, its number. -/
abbrev RatingKey := ℕ × Option ℕ

inductive RatingMode
  | manual
  | average
  deriving DecidableEq

/-- What rating reconciliation reads and writes of a tracked entry. -/
structure Entry where
  ratingMode : RatingMode
  manualScore : Option ℚ
  seasonScores : List (ℕ × Option ℚ)
  updatedAt : DateTime
  deriving DecidableEq

structure RatingRow where
  rating : Option ℚ
  ratedAt : DateTime
  deriving DecidableEq

structure Titles where
  entries : ℕ → Option Entry
  rows : RatingKey → Option RatingRow
  reviews : List (Review ℚ)

structure CloudBaseline where
  ratingObservations : RatingKey → Option ℚ
  approved : Bool
  observedAt : DateTime

structure Account where
  titles : Titles
  clouds : String → Option CloudBaseline
  streamApproved : ℕ → Bool

/-- One score a provider reports. `saved` is what a media server's own snapshot
held for the key; a cloud provider's is looked up in its baseline instead. -/
structure Report where
  source : Source
  key : RatingKey
  score : ℚ
  ratedAt : Option DateTime
  saved : Option ℚ
  observedAfter : Option DateTime
  deriving DecidableEq

/-- `writtenAt` is the database clock that stamps a changed entry. -/
structure Pull where
  startedAt : Int
  writtenAt : DateTime
  reports : List Report

/-- The accepted ratings to be delivered, with the sources that must not get them back. -/
abbrev Outbox := List (RatingKey × Option ℚ × Finset Source)

/-- `project_score` with the whole-number increment, midpoints upward. -/
def projectScore (value : ℚ) : ℚ := max 0 (min 10 (⌊value + 1 / 2⌋ : ℚ))

def truncate (value : ℚ) : ℤ := if 0 ≤ value then ⌊value⌋ else ⌈value⌉

def integerProviderScore (value : ℚ) : ℤ := max 1 (min 10 (truncate (projectScore value)))

def isProjectedEcho (localValue remoteValue : Option ℚ) : Bool :=
  match localValue, remoteValue with
  | some l, some r => decide (integerProviderScore l = truncate r)
  | _, _ => false

def effectiveScore (mode : RatingMode) (manual : Option ℚ) (seasons : List (ℕ × Option ℚ)) :
    Option ℚ :=
  match mode with
  | .manual => manual.filter (0 < ·)
  | .average =>
    let scores := seasons.filterMap fun season ↦
      if 0 < season.1 then season.2.filter (0 < ·) else none
    if scores = [] then none else some (scores.sum / scores.length)

def entryScore (entry : Entry) : Option ℕ → Option ℚ
  | none => effectiveScore entry.ratingMode entry.manualScore entry.seasonScores
  | some season => (entry.seasonScores.lookup season).join

def setEntryScore (entry : Entry) (season : Option ℕ) (score : Option ℚ) : Entry :=
  match season with
  | none => { entry with manualScore := score, ratingMode := .manual }
  | some season =>
    if (entry.seasonScores.lookup season).isSome then
      { entry with seasonScores := entry.seasonScores.map fun s ↦
          if s.1 = season then (season, score) else s }
    else { entry with seasonScores := entry.seasonScores ++ [(season, score)] }

def Account.approved (a : Account) : Source → Bool
  | .cloud provider => (a.clouds provider).any CloudBaseline.approved
  | .connection id => a.streamApproved id

def collectRating (a : Account) (report : Report) : Observation Source ℚ :=
  let changedAt := report.ratedAt.map fun at' ↦ .naive (naiveUtc at')
  match report.source with
  | .cloud provider =>
    let saved := (a.clouds provider).bind (·.ratingObservations report.key)
    ⟨report.source, some report.score, changedAt, saved.map some,
      (a.clouds provider).map CloudBaseline.observedAt, false⟩
  | .connection _ =>
    ⟨report.source, some report.score, changedAt, report.saved.map some,
      report.observedAfter, false⟩

/-- The reports of one pull, gathered per key and sorted by source. -/
def collect (a : Account) (reports : List Report) :
    List (RatingKey × List (Observation Source ℚ)) :=
  (distinct (reports.map Report.key)).map fun key ↦
    (key, sortBySource ((reports.filter (·.key = key)).map (collectRating a)))

def localScore (titles : Titles) (key : RatingKey) : Option ℚ :=
  match (titles.entries key.1).bind (entryScore · key.2) with
  | some score => some score
  | none => (titles.rows key).bind RatingRow.rating

def localClock (titles : Titles) (key : RatingKey) : Option DateTime :=
  match titles.rows key with
  | some row => some row.ratedAt
  | none => (titles.entries key.1).map Entry.updatedAt

/-- A score that only echoes the local one is read as the local one, and an
unchanged report stays unchanged. -/
def project (localValue : Option ℚ) (o : Observation Source ℚ) : Observation Source ℚ :=
  let value := if isProjectedEcho localValue o.value then localValue else o.value
  { o with
    value := value
    previous := if o.previous = some o.value then some value else o.previous
    inferred := false }

def ratingDecision (titles : Titles) (startedAt : Int) (key : RatingKey)
    (observations : List (Observation Source ℚ)) : Decision Source ℚ :=
  let localValue := localScore titles key
  let decision := resolve localValue (localClock titles key)
    (observations.map (project localValue)) (some startedAt) none
  -- A whole-show value cannot silently replace a calculated season average.
  if (titles.entries key.1).any (·.ratingMode == .average) ∧ key.2 = none ∧
      decision.value ≠ localValue then .asConflict localValue
  else decision

def acceptRating (a : Account) (pull : Pull) (titles : Titles) (key : RatingKey)
    (decision : Decision Source ℚ) : Titles × Outbox :=
  let entry := (titles.entries key.1).map fun entry ↦
    { setEntryScore entry key.2 decision.value with updatedAt := pull.writtenAt }
  let row := ⟨decision.value, .naive (decision.changedAt.getD pull.startedAt)⟩
  ({ entries := Function.update titles.entries key.1 entry
     rows := Function.update titles.rows key (some row)
     reviews := retireReview titles.reviews key.1 key.2 .rating },
   if ∃ source ∈ decision.sources, a.approved source then
     [(key, decision.value, decision.sources)]
   else [])

def reconcileRating (a : Account) (pull : Pull) (state : Titles × Outbox)
    (collected : RatingKey × List (Observation Source ℚ)) : Titles × Outbox :=
  let (titles, outbox) := state
  let (key, observations) := collected
  let decision := ratingDecision titles pull.startedAt key observations
  if decision.conflict then
    let projected := observations.map (project (localScore titles key))
    let reviews :=
      raiseReview titles.reviews key.1 key.2 .rating decision.value projected
    ({ titles with reviews := reviews }, outbox)
  else if decision.sources.Nonempty ∧ decision.value ≠ localScore titles key then
    let (titles, delivered) := acceptRating a pull titles key decision
    (titles, outbox ++ delivered)
  else (titles, outbox)

/-- Every raw cloud score is kept as an observation, accepted or not. -/
def observedBy (provider : String) (collected : List (RatingKey × List (Observation Source ℚ))) :
    List (RatingKey × ℚ) :=
  collected.flatMap fun (key, observations) ↦
    observations.filterMap fun o ↦
      if o.source = .cloud provider then o.value.map fun score ↦ (key, score) else none

def persistObservations (a : Account)
    (collected : List (RatingKey × List (Observation Source ℚ))) : Account :=
  { a with
    clouds := fun provider ↦ (a.clouds provider).map fun baseline ↦
      { baseline with
        ratingObservations :=
          writeAll baseline.ratingObservations (observedBy provider collected) } }

def ratings (a : Account) (pull : Pull) : Account × Outbox :=
  let collected := collect a pull.reports
  let (titles, outbox) := collected.foldl (reconcileRating a pull) (a.titles, [])
  (persistObservations { a with titles := titles } collected, outbox)

/-- A completed pull records the provider's baseline and keeps its observations. -/
def recordCloudImport (a : Account) (provider : String) (at' : DateTime) : Account :=
  let baseline := (a.clouds provider).getD ⟨fun _ ↦ none, false, at'⟩
  { a with clouds := Function.update a.clouds provider (some { baseline with observedAt := at' }) }

/-- What happens to an account: cycles, the owner's edits, recorded pulls, approvals. -/
inductive Step
  | cycle (pull : Pull)
  | edit (change : Titles → Titles)
  | recordImport (provider : String) (at' : DateTime)
  | approve (approval : Source → Bool)

def step (a : Account) : Step → Account
  | .cycle pull => (ratings a pull).1
  | .edit change => { a with titles := change a.titles }
  | .recordImport provider at' => recordCloudImport a provider at'
  | .approve approval =>
    { a with
      clouds := fun provider ↦ (a.clouds provider).map fun baseline ↦
        { baseline with approved := approval (.cloud provider) }
      streamApproved := fun id ↦ approval (.connection id) }

def run (a : Account) (steps : List Step) : Account := steps.foldl step a

theorem mem_collect {a : Account} {reports : List Report} {key : RatingKey}
    {observations : List (Observation Source ℚ)} (h : (key, observations) ∈ collect a reports)
    {o : Observation Source ℚ} :
    o ∈ observations ↔ ∃ r ∈ reports, r.key = key ∧ collectRating a r = o := by
  obtain ⟨key', -, heq⟩ := List.mem_map.mp h
  obtain ⟨rfl, rfl⟩ := Prod.mk.inj heq
  simp [and_assoc]

theorem exists_collected {reports : List Report} {r : Report} (hr : r ∈ reports) (a : Account) :
    ∃ observations, (r.key, observations) ∈ collect a reports ∧ collectRating a r ∈ observations := by
  have hkey : r.key ∈ distinct (reports.map Report.key) :=
    mem_distinct.mpr (List.mem_map_of_mem hr)
  have hmem : (r.key, _) ∈ collect a reports := List.mem_map_of_mem hkey
  exact ⟨_, hmem, (mem_collect hmem).mpr ⟨r, hr, rfl, rfl⟩⟩

@[simp] theorem source_collectRating (a : Account) (r : Report) :
    (collectRating a r).source = r.source := by
  unfold collectRating
  cases r.source <;> rfl

@[simp] theorem value_collectRating (a : Account) (r : Report) :
    (collectRating a r).value = some r.score := by
  unfold collectRating
  cases r.source <;> rfl

theorem mem_observedBy {a : Account} {reports : List Report} {provider : String}
    {write : RatingKey × ℚ} :
    write ∈ observedBy provider (collect a reports) ↔
      ∃ r ∈ reports, r.source = .cloud provider ∧ r.key = write.1 ∧ r.score = write.2 := by
  simp only [observedBy, List.mem_flatMap, List.mem_filterMap]
  constructor
  · rintro ⟨⟨key, observations⟩, hcol, o, ho, hw⟩
    obtain ⟨r, hr, rfl, rfl⟩ := (mem_collect hcol).mp ho
    dsimp only at hw
    split_ifs at hw with hs
    rw [value_collectRating, Option.map_some, Option.some.injEq] at hw
    exact ⟨r, hr, by rw [← source_collectRating a r, hs], by rw [← hw], by rw [← hw]⟩
  · rintro ⟨r, hr, hs, hk, hv⟩
    obtain ⟨observations, hcol, ho⟩ := exists_collected hr a
    exact ⟨_, hcol, _, ho, by simp [hs, hk, hv]⟩

end AnyList.Reconciliation.Ratings
