import AnyList.Library.Dict
import AnyList.Reconciliation.Watches

namespace AnyList.Releases

open AnyList.Library
open AnyList.Reconciliation.Watches (Status)

/-- A season as the provider lists it, with the day its date stands for. -/
structure ProviderSeason where
  number : Int
  airDate : Option Int

structure Season where
  number : Int
  airDate : Int
  deriving DecidableEq

def seasonRows (seasons : List ProviderSeason) : List Season :=
  seasons.filterMap fun season ↦
    if 0 < season.number then season.airDate.map fun day ↦ ⟨season.number, day⟩ else none

def latestPast (seasons : List Season) (today : Int) : Int :=
  ((seasons.filter fun season ↦ decide (season.airDate < today)).map Season.number).foldl max 0

def isBefore (season season' : Season) : Bool :=
  decide (season.number < season'.number ∨
    season.number = season'.number ∧ season.airDate < season'.airDate)

/-- The earliest confirmed regular season that has not premiered. -/
def upcomingSeason (seasons : List Season) (today : Int) : Option Season :=
  (seasons.filter fun season ↦
      decide (max (latestPast seasons today) 1 < season.number ∧ today ≤ season.airDate)).foldl
    (fun best season ↦ if best.all (isBefore season) then some season else best) none

/-- The season under a number: of several, the one listed last. -/
def seasonByNumber (seasons : List Season) (number : Int) : Option Season :=
  (seasons.filter fun season ↦ decide (season.number = number)).getLast?

theorem number_of_seasonByNumber {seasons : List Season} {number : Int} {season : Season}
    (h : seasonByNumber seasons number = some season) : season.number = number := by
  have hmem := List.mem_of_mem_getLast? h
  simpa using (List.mem_filter.mp hmem).2

structure Observation where
  releaseDate : Option Int
  seenUpcoming : Bool
  releaseProcessed : Bool
  deriving DecidableEq

/-- An observation starts without a date, so that the first one counts as newly confirmed. -/
def Observation.initial : Observation := ⟨none, false, false⟩

structure Transition where
  dateChanged : Bool
  sendDateNotice : Bool
  sendReleaseNotice : Bool
  seenUpcoming : Bool
  releaseProcessed : Bool
  deriving DecidableEq

def observationTransition (releaseDay : Int) (previousReleaseDate : Option Int)
    (seenUpcoming releaseProcessed : Bool) (today : Int) : Transition :=
  let dateChanged := decide (previousReleaseDate ≠ some releaseDay)
  let processed := releaseProcessed && !(dateChanged && decide (today < releaseDay))
  { dateChanged := dateChanged
    sendDateNotice := dateChanged && decide (today < releaseDay)
    sendReleaseNotice := !processed &&
      (decide (releaseDay = today) || (decide (releaseDay < today) && seenUpcoming))
    seenUpcoming := seenUpcoming || decide (today ≤ releaseDay)
    releaseProcessed := processed || decide (releaseDay ≤ today) }

def Observation.transition (observation : Observation) (releaseDay today : Int) : Transition :=
  observationTransition releaseDay observation.releaseDate observation.seenUpcoming
    observation.releaseProcessed today

/-- What is stored of a season after a scan found it with a date. -/
def Observation.advance (observation : Observation) (releaseDay today : Int) : Observation :=
  ⟨some releaseDay, (observation.transition releaseDay today).seenUpcoming,
    (observation.transition releaseDay today).releaseProcessed⟩

inductive NoticeKind
  | newSeasonReleaseDate
  | newSeasonRelease
  deriving DecidableEq

/-- `kind:media:season`, with the date behind it for a date notice only. -/
structure EventKey where
  kind : NoticeKind
  mediaId : ℕ
  seasonNumber : Int
  suffix : Option Int
  deriving DecidableEq

def seasonEventDedupeKey (kind : NoticeKind) (mediaId : ℕ) (seasonNumber releaseDate : Int) :
    EventKey :=
  ⟨kind, mediaId, seasonNumber, if kind = .newSeasonReleaseDate then some releaseDate else none⟩

inductive NoticeState
  | pending
  | corrected
  deriving DecidableEq

structure Notice where
  userId : ℕ
  mediaId : ℕ
  kind : NoticeKind
  state : NoticeState
  seasonNumber : Int
  seasonEventKey : EventKey
  dismissedAt : Option Int
  deriving DecidableEq

def seasonDateNoticeIsCurrent (mediaId : ℕ) (seasonNumber : Int) (season : Option Season)
    (eventKey : EventKey) : Bool :=
  season.any fun s ↦ decide
    (eventKey = seasonEventDedupeKey .newSeasonReleaseDate mediaId seasonNumber s.airDate)

structure ObservationKey where
  userId : ℕ
  mediaId : ℕ
  seasonNumber : Int
  deriving DecidableEq

def ObservationKey.pair (key : ObservationKey) : ℕ × ℕ := (key.userId, key.mediaId)

structure Preferences where
  newSeasonReleaseDates : Bool
  newSeasonReleases : Bool

/-- A tracked series with one of the metadata rows joined to it. -/
structure TrackedRow where
  userId : ℕ
  mediaId : ℕ
  status : Status
  seasons : List ProviderSeason

/-- What a scan reads: the day and clock, the tracked series and the preferences of their users. -/
structure Scan where
  today : Int
  now : Int
  rows : List TrackedRow
  preferences : ℕ → Option Preferences

structure Inbox where
  observations : Dict ObservationKey Observation
  notices : List Notice

def Inbox.empty : Inbox := ⟨.empty, []⟩

def eligibleStatuses : List Status := [.watching, .completed, .planning]

namespace Scan

variable (scan : Scan)

/-- The status and the seasons of every tracked series; of several rows the last one stays. -/
def metadataByPair : Dict (ℕ × ℕ) (Status × List Season) :=
  scan.rows.foldl (fun metadata row ↦
    metadata.set (row.userId, row.mediaId) (row.status, seasonRows row.seasons)) .empty

def currentSeason (key : ObservationKey) : Option Season :=
  (scan.metadataByPair.get key.pair).bind fun metadata ↦
    seasonByNumber metadata.2 key.seasonNumber

def nextKeys : List ObservationKey :=
  scan.rows.filterMap fun row ↦
    (upcomingSeason (seasonRows row.seasons) scan.today).map fun season ↦
      ⟨row.userId, row.mediaId, season.number⟩

def observationKeys (observations : Dict ObservationKey Observation) : List ObservationKey :=
  (scan.nextKeys ++ observations.keys.filter fun key ↦ (scan.currentSeason key).isSome).dedup

def dateEnabled (userId : ℕ) : Bool :=
  (scan.preferences userId).all Preferences.newSeasonReleaseDates

def releaseEnabled (userId : ℕ) : Bool :=
  (scan.preferences userId).all Preferences.newSeasonReleases

def isEligible (key : ObservationKey) : Bool :=
  (scan.metadataByPair.get key.pair).any fun metadata ↦ decide (metadata.1 ∈ eligibleStatuses)

/-- The keys a scan comes to, series by series. -/
def candidates (keys : List ObservationKey) : List ObservationKey :=
  scan.metadataByPair.keys.flatMap fun pair ↦
    keys.filter fun key ↦ decide (key.pair = pair) && (scan.currentSeason key).isSome

end Scan

/-- Retires the date notices that the provider's dates no longer bear out. -/
def retireDateNotices (scan : Scan) (notices : List Notice) : List Notice :=
  notices.map fun notice ↦
    if (scan.rows.any fun row ↦ decide (row.userId = notice.userId)) ∧
        notice.kind = .newSeasonReleaseDate ∧ notice.dismissedAt = none ∧
        !seasonDateNoticeIsCurrent notice.mediaId notice.seasonNumber
          (scan.currentSeason ⟨notice.userId, notice.mediaId, notice.seasonNumber⟩)
          notice.seasonEventKey then
      { notice with dismissedAt := some scan.now, state := .corrected }
    else notice

def ensureObservations (observations : Dict ObservationKey Observation)
    (keys : List ObservationKey) : Dict ObservationKey Observation :=
  keys.foldl (fun observations key ↦
    if (observations.get key).isSome then observations else observations.set key .initial)
    observations

/-- A notice is written once for each user and event, whatever became of it. -/
def upsertSeasonNotice (notices : List Notice) (kind : NoticeKind) (key : ObservationKey)
    (season : Season) : List Notice :=
  let eventKey := seasonEventDedupeKey kind key.mediaId season.number season.airDate
  if notices.any fun notice ↦
      decide (notice.userId = key.userId ∧ notice.seasonEventKey = eventKey) then notices
  else notices ++ [⟨key.userId, key.mediaId, kind, .pending, season.number, eventKey, none⟩]

def processSeason (scan : Scan) (inbox : Inbox) (key : ObservationKey) : Inbox :=
  match scan.currentSeason key, inbox.observations.get key with
  | some season, some observation =>
    let transition := observation.transition season.airDate scan.today
    let dated := if transition.sendDateNotice && (scan.isEligible key && scan.dateEnabled key.userId)
      then upsertSeasonNotice inbox.notices .newSeasonReleaseDate key season else inbox.notices
    let released :=
      if transition.sendReleaseNotice && (scan.isEligible key && scan.releaseEnabled key.userId)
      then upsertSeasonNotice dated .newSeasonRelease key season else dated
    { observations := inbox.observations.set key (observation.advance season.airDate scan.today)
      notices := released }
  | _, _ => inbox

def refreshSeasonReleaseNotifications (inbox : Inbox) (scan : Scan) : Inbox :=
  let keys := scan.observationKeys inbox.observations
  (scan.candidates keys).foldl (processSeason scan)
    { observations := ensureObservations inbox.observations keys
      notices := retireDateNotices scan inbox.notices }

end AnyList.Releases
