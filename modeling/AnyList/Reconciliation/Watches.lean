import AnyList.Reconciliation.Sources
import AnyList.Reconciliation.ResolveSafety

namespace AnyList.Reconciliation.Watches

open AnyList.Timestamps AnyList.Reconciliation.Resolve AnyList.Reconciliation.Sources
open AnyList.Library.Members

structure WatchEvent where
  id : ℕ
  mediaId : ℕ
  watchedAt : Option Int
  createdAt : Int
  completed : Bool
  dateInferred : Bool
  provisional : Bool
  deriving DecidableEq

inductive Status
  | planning
  | watching
  | completed
  | paused
  | dropped
  deriving DecidableEq

structure Entry where
  status : Status
  progress : ℕ
  finishDate : Option Int
  statusSource : Option String
  statusChangedAt : Option DateTime
  updatedAt : DateTime
  deriving DecidableEq

structure Titles where
  events : List WatchEvent
  entries : ℕ → Option Entry
  reviews : List (Review Bool)

/-- A source's saved evidence: the clock last seen for each title it reported. -/
structure Baseline where
  watchObservations : ℕ → Option (Option Int)
  observedAt : Int

structure Account where
  titles : Titles
  baselines : Source → Option Baseline

/-- The shows and episodes behind the media rows. -/
structure Catalogue where
  trackingRoot : ℕ → ℕ
  showId : ℕ → Option ℕ
  seasonNumber : ℕ → ℕ

/-- What an import reports of a play: its evidence alone, or an event to be staged. -/
inductive Report
  | play (mediaId : ℕ) (watchedAt : Option DateTime)
  | event (event : WatchEvent)

/-- One source's pull. A completed cloud pull records its baseline before the
decisions are taken; of the connections only a media server's does. -/
structure Pull where
  source : Source
  mediaServer : Bool
  finishedAt : Int
  reports : List Report

/-- A watched row of a streaming connection. -/
structure WatchedRow where
  key : String
  watchedAt : String
  changedAt : Option DateTime

structure Snapshot where
  connection : ℕ
  current : Bool
  syncWatched : Bool
  complete : Bool
  previous : Option (List WatchedRow × DateTime)
  watched : List WatchedRow
  ids : String → Option ℕ

structure Confirmation where
  mediaId : ℕ
  eventId : ℕ
  previousDate : Option Int
  confirmedDate : Option Int

/-- One account cycle. `isProtected` tells the roots whose status or progress was
edited while it ran, `window` is the duplicate window in minutes. -/
structure Cycle where
  startedAt : Int
  now : Int
  catalogue : Catalogue
  pulls : List Pull
  snapshots : List Snapshot
  confirmations : List Confirmation
  isProtected : ℕ → Bool
  window : ℕ

def Pull.recordsImport (pull : Pull) : Bool :=
  !pull.source.isConnection || pull.mediaServer

/-- The evidence that one report gives for a title. An inferred date is no clock. -/
def Report.clock (mediaId : ℕ) : Report → Option (Option Int)
  | .play id watchedAt => if id = mediaId then some (watchedAt.map naiveUtc) else none
  | .event watch =>
    if watch.mediaId = mediaId ∧ watch.completed then
      some (if watch.dateInferred then none else watch.watchedAt.map fun t ↦ naiveUtc (.naive t))
    else none

def Report.mediaId : Report → ℕ
  | .play id _ => id
  | .event watch => watch.mediaId

def collectWatch (known : Option (Option Int)) (clock : Option Int) : Option (Option Int) :=
  match known, clock with
  | none, clock => some clock
  | some none, clock => some clock
  | some (some seen), some clock => if seen < clock then some (some clock) else some (some seen)
  | some (some seen), none => some (some seen)

namespace Cycle

variable (c : Cycle)

def reports : List (Source × Report) :=
  c.pulls.flatMap fun pull ↦ pull.reports.map fun report ↦ (pull.source, report)

def clocks (mediaId : ℕ) (source : Source) : List (Option Int) :=
  (c.reports.filter (·.1 = source)).filterMap (·.2.clock mediaId)

/-- The newest known clock a source gave for a title in this cycle. -/
def evidence (mediaId : ℕ) (source : Source) : Option (Option Int) :=
  (c.clocks mediaId source).foldl collectWatch none

def sourcesOf (mediaId : ℕ) : List Source :=
  distinct ((c.reports.filter (·.2.clock mediaId |>.isSome)).map Prod.fst)

def stagedWatches : List (Source × WatchEvent) :=
  c.reports.filterMap fun (source, report) ↦
    match report with
    | .event event => some (source, event)
    | .play _ _ => none

end Cycle

def evidenceObservation (before : Source → Option Baseline) (mediaId : ℕ) (source : Source)
    (clock : Option Int) : Option (Observation Source Bool) :=
  let saved := (before source).bind (·.watchObservations mediaId)
  if saved.map (Option.map fun t ↦ naiveUtc (.naive t)) = some clock then none
  else
    let previous := if (before source).isSome ∧ saved = none then some (some false) else none
    some ⟨source, some true, clock.map .naive, previous, none, false⟩

def snapshotObservations (mediaId : ℕ) (snapshot : Snapshot) : List (Observation Source Bool) :=
  if ¬snapshot.syncWatched ∨ ¬snapshot.current then []
  else
    let old := (snapshot.previous.map Prod.fst).getD []
    let observedAt := snapshot.previous.map Prod.snd
    let added := snapshot.watched.filter fun row ↦ decide (snapshot.ids row.key = some mediaId) &&
      !old.any fun row' ↦ decide (row'.key = row.key ∧ row'.watchedAt = row.watchedAt)
    let removed := old.filter fun row ↦ decide (snapshot.ids row.key = some mediaId) &&
      snapshot.complete && !snapshot.watched.any fun row' ↦ decide (row'.key = row.key)
    (added.map fun row ↦
      let unseen := snapshot.previous.isSome && !old.any fun row' ↦ decide (row'.key = row.key)
      ⟨.connection snapshot.connection, some true, row.changedAt,
        if unseen then some (some false) else none, observedAt, false⟩) ++
    removed.map fun _ ↦
      ⟨.connection snapshot.connection, some false, none, some (some true), observedAt, false⟩

def streamObservations (c : Cycle) (mediaId : ℕ) : List (Observation Source Bool) :=
  c.snapshots.flatMap (snapshotObservations mediaId)

def observations (before : Source → Option Baseline) (c : Cycle) (mediaId : ℕ) :
    List (Observation Source Bool) :=
  let evidenced := (c.sourcesOf mediaId).filterMap fun source ↦
    (c.evidence mediaId source).bind (evidenceObservation before mediaId source)
  sortBySource (evidenced ++ streamObservations c mediaId)

/-- Every title with evidence of this cycle, or with a changed streaming row. -/
def candidateIds (c : Cycle) : List ℕ :=
  let evidenced := (c.reports.filter fun (_, report) ↦ (report.clock report.mediaId).isSome).map
    fun (_, report) ↦ report.mediaId
  let streamed := c.snapshots.flatMap fun snapshot ↦
    ((snapshot.watched ++ (snapshot.previous.map Prod.fst).getD []).filterMap
      fun row ↦ snapshot.ids row.key).filter fun id ↦ snapshotObservations id snapshot ≠ []
  distinct (evidenced ++ streamed)

def statusChangedAt (entry : Entry) : DateTime :=
  .naive (naiveUtc (entry.statusChangedAt.getD entry.updatedAt))

def watchDecision (c : Cycle) (watchedBefore : Bool) (entry : Option Entry) (mediaId : ℕ)
    (observations : List (Observation Source Bool)) : Decision Source Bool :=
  let localValue := if watchedBefore then some true else none
  let decision :=
    resolve localValue (entry.map statusChangedAt) observations (some c.startedAt) none
  if c.isProtected (c.catalogue.trackingRoot mediaId) then .asStale localValue
  else if decision.stale ∧ localValue = some true ∧ observations.all (·.value = some true) then
    -- Older distinct plays enrich history without becoming an outbound edit.
    .keep (some true)
  else decision

/-- The distinct regular episodes of a show with a completed play. -/
def watchedEpisodes (catalogue : Catalogue) (events : List WatchEvent) (show' : ℕ) : ℕ :=
  (distinct ((events.filter fun event ↦ event.completed &&
    decide (catalogue.showId event.mediaId = some show' ∧
      0 < catalogue.seasonNumber event.mediaId)).map WatchEvent.mediaId)).length

def markStatusChange (entry : Entry) (source : String) (changedAt : Int) : Entry :=
  { entry with
    statusSource := some source
    statusChangedAt := some (.naive (naiveUtc (.naive changedAt))) }

/-- The tracked entry after its title's plays were removed. -/
def reopen (c : Cycle) (events : List WatchEvent) (mediaId : ℕ) (entry : Entry) : Entry :=
  let isEpisode := c.catalogue.trackingRoot mediaId ≠ mediaId
  match (if isEpisode then c.catalogue.showId mediaId else none) with
  | some show' =>
    let remaining := watchedEpisodes c.catalogue events show'
    let status := if remaining = 0 then .planning else .watching
    let entry :=
      if entry.status = .completed then { entry with status := status, finishDate := none }
      else entry
    markStatusChange { entry with progress := remaining } "combined" c.startedAt
  | none =>
    if entry.status = .completed then
      markStatusChange { entry with status := .planning, progress := 0, finishDate := none }
        "combined" c.startedAt
    else entry

/-- The state of the decision loop: the titles so far, what was decided for each
and which sources a removal came from. -/
structure Progress where
  titles : Titles
  decisions : List (ℕ × Decision Source Bool)
  removed : List (ℕ × Finset Source)

def decideWatch (before : Account) (c : Cycle) (progress : Progress) (mediaId : ℕ) : Progress :=
  let observations := observations before.baselines c mediaId
  let root := c.catalogue.trackingRoot mediaId
  let watchedBefore := before.titles.events.any fun event ↦
    event.completed && decide (event.mediaId = mediaId)
  let titles := progress.titles
  let decision := watchDecision c watchedBefore (titles.entries root) mediaId observations
  let decisions := (mediaId, decision) :: progress.decisions
  if decision.conflict then
    let reviews :=
      raiseReview titles.reviews mediaId none .watchedState decision.value observations
    ⟨{ titles with reviews := reviews }, decisions, progress.removed⟩
  else if decision.sources.Nonempty then
    let titles :=
      { titles with reviews := retireReview titles.reviews mediaId none .watchedState }
    if decision.value = some false then
      let events := titles.events.filter (·.mediaId ≠ mediaId)
      let entry := (titles.entries root).map (reopen c events mediaId)
      ⟨{ titles with events := events, entries := Function.update titles.entries root entry },
        decisions, (mediaId, decision.sources) :: progress.removed⟩
    else ⟨titles, decisions, progress.removed⟩
  else ⟨titles, decisions, progress.removed⟩

def isAccepted (decision : Option (Decision Source Bool)) : Bool :=
  decision.any fun decision ↦ !decision.conflict && !decision.stale &&
    decide (decision.value = some true)

def confirmWatch (c : Cycle) (decisions : List (ℕ × Decision Source Bool))
    (events : List WatchEvent) (confirmation : Confirmation) : List WatchEvent :=
  events.map fun event ↦
    if event.id = confirmation.eventId ∧ event.provisional ∧
        event.watchedAt = confirmation.previousDate ∧
        isAccepted (decisions.lookup confirmation.mediaId) ∧
        ¬c.isProtected (c.catalogue.trackingRoot confirmation.mediaId) then
      { event with watchedAt := confirmation.confirmedDate, provisional := false }
    else event

/-- Reliable dates precede estimates, whatever order the providers finished in. -/
def stagedBefore (startedAt : Int) (a b : Source × WatchEvent) : Bool :=
  if a.2.dateInferred ≠ b.2.dateInferred then !a.2.dateInferred
  else if a.2.mediaId ≠ b.2.mediaId then a.2.mediaId < b.2.mediaId
  else
    let at' := a.2.watchedAt.getD startedAt
    let bt := b.2.watchedAt.getD startedAt
    if at' ≠ bt then at' < bt else sourceKey a.1 ≤ sourceKey b.1

def isDuplicateWatchTime (times : List Int) (candidate : Int) (window : ℕ) : Bool :=
  decide (window ≠ 0) && times.any fun at' ↦ (at' - candidate).natAbs ≤ window * 60000000

def effectiveTime (event : WatchEvent) : Int := event.watchedAt.getD event.createdAt

/-- One staged play, against the plays the account has by then. A staged event
counts at its own date, or at the cycle's start when it has none. -/
def stageWatch (c : Cycle) (decisions : List (ℕ × Decision Source Bool))
    (state : List WatchEvent × (ℕ → List Int)) (staged : Source × WatchEvent) :
    List WatchEvent × (ℕ → List Int) :=
  let (events, times) := state
  let event := staged.2
  if c.isProtected (c.catalogue.trackingRoot event.mediaId) then state
  else if event.completed ∧ ¬isAccepted (decisions.lookup event.mediaId) then state
  else if event.dateInferred ∧
      events.any (fun e ↦ e.completed && decide (e.mediaId = event.mediaId)) then state
  else if isDuplicateWatchTime (times event.mediaId) (event.watchedAt.getD c.now) c.window then
    state
  else
    (events ++ [event], Function.update times event.mediaId
      (times event.mediaId ++ [event.watchedAt.getD c.startedAt]))

def applyStagedWatches (c : Cycle) (decisions : List (ℕ × Decision Source Bool))
    (events : List WatchEvent) : List WatchEvent :=
  let events := c.confirmations.foldl (confirmWatch c decisions) events
  let times := fun mediaId ↦ (events.filter (·.mediaId = mediaId)).map effectiveTime
  let staged := c.stagedWatches.insertionSort fun a b ↦ stagedBefore c.startedAt a b
  (staged.foldl (stageWatch c decisions) (events, times)).1

def recordImport (baselines : Source → Option Baseline) (pull : Pull) :
    Source → Option Baseline :=
  if pull.recordsImport then
    let baseline := (baselines pull.source).getD ⟨fun _ ↦ none, pull.finishedAt⟩
    Function.update baselines pull.source (some { baseline with observedAt := pull.finishedAt })
  else baselines

def persistObservations (c : Cycle) (baselines : Source → Option Baseline) :
    Source → Option Baseline :=
  fun source ↦ (baselines source).map fun baseline ↦
    { baseline with
      watchObservations := fun mediaId ↦
        (c.evidence mediaId source).or (baseline.watchObservations mediaId) }

def watches (a : Account) (c : Cycle) : Account :=
  let progress := (candidateIds c).foldl (decideWatch a c) ⟨a.titles, [], []⟩
  { titles :=
      { progress.titles with
        events := applyStagedWatches c progress.decisions progress.titles.events }
    baselines := persistObservations c (c.pulls.foldl recordImport a.baselines) }

inductive Step
  | cycle (c : Cycle)
  | edit (change : Titles → Titles)

def step (a : Account) : Step → Account
  | .cycle c => watches a c
  | .edit change => { a with titles := change a.titles }

def run (a : Account) (steps : List Step) : Account := steps.foldl step a

end AnyList.Reconciliation.Watches
