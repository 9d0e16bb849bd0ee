import AnyList.Activity.Cards
import AnyList.Library.Dict
import Mathlib.Algebra.Order.Ring.Nat
import Mathlib.Data.List.Sort

namespace AnyList.Activity.Streaming

open AnyList.Library
open AnyList.Reconciliation.Watches (Status)

/-- A dated action that a streaming import brings, under its stable key. -/
structure Event where
  key : String
  date : Int
  status : Status
  episodesWatched : ℕ
  position : Option String
  statusChanged : Option Bool
  startedWatching : Option Bool
  finishedSeasons : List Int
  deriving DecidableEq

/-- What a card keeps of its rating beside `ratingChanged`; `previousScore` is `some none` where
the key is there without a value. -/
structure RatingDetails where
  ratingFirst : Bool
  ratingStartScore : Option ℚ
  previousScore : Option (Option ℚ)
  firstRatedAt : Option Int
  deriving DecidableEq

def RatingDetails.empty : RatingDetails := ⟨false, none, none, none⟩

/-- The imported events of a card, over the local details that it had before. -/
structure Evidence where
  events : Dict String Event
  base : Details
  baseAt : Option Int
  baseStatus : Option Status

structure StreamCard where
  id : ℕ
  status : Status
  score : Option ℚ
  details : Details
  rating : RatingDetails
  evidence : Option Evidence
  createdAt : Int

/-- Final status must win over episode/season actions on the same day. -/
def eventRank (key : String) : ℕ :=
  if key = "finish" ∨ key = "status" then 3
  else if key.startsWith "season:" then 2
  else if key = "start" then 0
  else 1

def notLater (event event' : Event) : Prop :=
  event.date < event'.date ∨
    event.date = event'.date ∧ eventRank event.key ≤ eventRank event'.key

instance decidableNotLater : DecidableRel notLater :=
  fun _ _ ↦ inferInstanceAs (Decidable (_ ∨ _ ∧ _))

def numberOf (digits : List Char) : ℕ := digits.foldl (fun n c ↦ 10 * n + (c.toNat - '0'.toNat)) 0

/-- The numbers of a position `S1E2`. -/
def numbered (position : String) : Option (ℕ × ℕ) :=
  match position.toList with
  | 'S' :: rest =>
    match rest.span Char.isDigit with
    | (season, 'E' :: episode) =>
      if season = [] ∨ episode = [] ∨ ¬episode.all Char.isDigit then none
      else some (numberOf season, numberOf episode)
    | _ => none
  | _ => none

def label (numbers : ℕ × ℕ) : String := "S" ++ toString numbers.1 ++ "E" ++ toString numbers.2

def isBefore (numbers numbers' : ℕ × ℕ) : Bool :=
  decide (numbers.1 < numbers'.1) || (decide (numbers.1 = numbers'.1) && decide (numbers.2 < numbers'.2))

/-- The numbered range of the episode actions that a card retains. -/
def streamingEpisodeSpan (values : List Event) (original : Details) : Option (String × String) :=
  let positions := (values.filter fun event ↦ decide (event.episodesWatched ≠ 0)).map Event.position ++
    if original.episodesWatched.any (fun n ↦ decide (n ≠ 0)) then
      [original.positionStart, original.position]
    else []
  match positions.filterMap (fun position ↦ position.bind numbered) with
  | [] => none
  | first :: rest =>
    some (label (rest.foldl (fun best n ↦ if isBefore n best then n else best) first),
      label (rest.foldl (fun best n ↦ if isBefore best n then n else best) first))

/-- The details of a card before its events are laid over them: the base without its rating, the
rating and the window of the card. -/
def rebuiltBase (details : Details) (evidence : Evidence) : Details :=
  { evidence.base with
    ratingChanged := details.ratingChanged
    windowStartedAt := details.windowStartedAt.or evidence.base.windowStartedAt }

def layEvent (details : Details) (event : Event) : Details :=
  { details with
    position := event.position.or details.position
    statusChanged := event.statusChanged.getD details.statusChanged
    startedWatching := event.startedWatching.getD details.startedWatching }

def countEpisodes (base : Details) (values : List Event) : ℕ :=
  match base.episodePositions with
  | none => max (base.episodesWatched.getD 0) (values.map Event.episodesWatched).sum
  | some positions =>
    (positions ++ (values.filter fun event ↦ decide (event.episodesWatched ≠ 0)).filterMap
      fun event ↦ event.position.filter (· ≠ "")).dedup.length

def rebuildDetails (details : Details) (evidence : Evidence) (values : List Event) : Details :=
  let base := rebuiltBase details evidence
  let counted := { base with
    episodesWatched := some (countEpisodes base values)
    finishedSeasons := ((base.finishedSeasons ++ values.flatMap Event.finishedSeasons).dedup).insertionSort
      (· ≤ ·) }
  let laid := values.foldl layEvent counted
  match streamingEpisodeSpan values evidence.base with
  | some span => { laid with positionStart := some span.1, position := some span.2 }
  | none => laid

def rebuildStatus (status : Status) (evidence : Evidence) (values : List Event) : Status :=
  let last := (values.getLast?.map Event.status).getD status
  match evidence.baseAt, evidence.baseStatus with
  | some baseAt, some baseStatus =>
    if values.getLast?.all fun event ↦ decide (event.date ≤ baseAt) then baseStatus else last
  | _, _ => last

def rebuildCreatedAt (createdAt : Int) (evidence : Evidence) (values : List Event) : Int :=
  ((values.map Event.date ++ evidence.baseAt.toList).max?).getD createdAt

/-- The card as its events and its local base make it. -/
def rebuild (row : StreamCard) : StreamCard :=
  match row.evidence with
  | none => row
  | some evidence =>
    let values := evidence.events.values.insertionSort notLater
    { row with
      details := rebuildDetails row.details evidence values
      status := rebuildStatus row.status evidence values
      createdAt := rebuildCreatedAt row.createdAt evidence values }

namespace StreamCard

variable (row : StreamCard)

def event (key : String) : Option Event := row.evidence.bind fun evidence ↦ evidence.events.get key

def windowStart : Int := row.details.windowStartedAt.getD (row.createdAt - row.createdAt % day)

def isOpen (now : Int) : Bool := decide (row.windowStart ≤ now ∧ now < row.windowStart + day)

def isActive : Bool := hasActivityEvent row.status row.details

def removeEvent (key : String) : StreamCard :=
  rebuild { row with evidence := row.evidence.map fun evidence ↦
    { evidence with events := evidence.events.filterKeys fun key' ↦ decide (key' ≠ key) } }

/-- A card that has no imported events keeps what it is as their base. -/
def withBase : StreamCard :=
  match row.evidence with
  | some _ => row
  | none => { row with
      details := { row.details with windowStartedAt := some row.windowStart }
      evidence := some ⟨Dict.empty, row.details, some row.createdAt, some row.status⟩ }

def putEvent (event : Event) : StreamCard :=
  let based := row.withBase
  rebuild { based with evidence := based.evidence.map fun evidence ↦
    { evidence with events := evidence.events.set event.key event } }

/-- The rating of an import, on the card of its latest action. -/
def rate (score : ℚ) (previousScore : Option ℚ) : StreamCard :=
  match previousScore with
  | none => { row with
      score := some score
      details := { row.details with ratingChanged := true }
      rating := ⟨true, none, none, some row.createdAt⟩ }
  | some previous =>
    let start := row.rating.ratingStartScore.or (row.rating.previousScore.getD (some previous))
    let changed := decide (start ≠ some score)
    { row with
      score := some score
      details := { row.details with ratingChanged := changed }
      rating := { row.rating with
        ratingFirst := false
        ratingStartScore := start
        previousScore := if changed then some start else none } }

end StreamCard

def newCard (id : ℕ) (event : Event) : StreamCard where
  id := id
  status := event.status
  score := none
  details := { Details.empty with windowStartedAt := some event.date }
  rating := .empty
  evidence := some ⟨Dict.empty, .empty, none, none⟩
  createdAt := event.date

def freshId (rows : List StreamCard) : ℕ := (rows.map StreamCard.id).foldl max 0 + 1

def update (id : ℕ) (f : StreamCard → StreamCard) (rows : List StreamCard) : List StreamCard :=
  rows.map fun row ↦ if row.id = id then f row else row

/-- Puts an event that no card holds into the last card whose window is open at its date. -/
def placeEvent (rows : List StreamCard) (event : Event) : List StreamCard × ℕ :=
  match rows.reverse.find? (StreamCard.isOpen · event.date) with
  | some row => (update row.id (StreamCard.putEvent · event) rows, row.id)
  | none =>
    let row := newCard (freshId rows) event
    (update row.id (StreamCard.putEvent · event) (rows ++ [row]), row.id)

/-- Stable evidence keys make a repeated import idempotent. -/
def recordEvent (rows : List StreamCard) (event : Event) : List StreamCard × ℕ :=
  match rows.find? fun row ↦ (row.event event.key).isSome with
  | none => placeEvent rows event
  | some existing =>
    if (existing.event event.key).all fun old ↦ decide (old.date ≤ event.date) then
      (rows, existing.id)
    else placeEvent (update existing.id (StreamCard.removeEvent · event.key) rows) event

/-- The cards and the ids of those that the events touched, in the order of the events. -/
def recordEvents (rows : List StreamCard) (events : List Event) : List StreamCard × List ℕ :=
  events.foldl (fun state event ↦
    let next := recordEvent state.1 event
    (next.1, state.2 ++ [next.2])) (rows, [])

/-- The first card of the latest action. -/
def latestCard (rows : List StreamCard) : Option StreamCard :=
  rows.foldl (fun best row ↦
    if best.all fun b ↦ decide (b.createdAt < row.createdAt) then some row else best) none

def cardsOf (rows : List StreamCard) (ids : List ℕ) : List StreamCard :=
  ids.filterMap fun id ↦ rows.find? fun row ↦ decide (row.id = id)

def rateLatest (rows : List StreamCard) (touched : List ℕ) (score previousScore : Option ℚ) :
    List StreamCard :=
  match latestCard ((cardsOf rows touched).filter StreamCard.isActive), score with
  | some latest, some score =>
    if some score = previousScore then rows
    else update latest.id (StreamCard.rate · score previousScore) rows
  | _, _ => rows

def notAfter (row row' : StreamCard) : Prop :=
  row.createdAt < row'.createdAt ∨ row.createdAt = row'.createdAt ∧ row.id ≤ row'.id

instance decidableNotAfter : DecidableRel notAfter :=
  fun _ _ ↦ inferInstanceAs (Decidable (_ ∨ _ ∧ _))

/-- The cards before those without a qualifying action are deleted. -/
def ratedCards (rows : List StreamCard) (events : List Event) (score previousScore : Option ℚ) :
    List StreamCard :=
  let recorded := recordEvents (rows.insertionSort notAfter) events
  rateLatest recorded.1 recorded.2 score previousScore

/-- Only cards of imported events are looked at for deletion. -/
def isKept (row : StreamCard) : Bool := row.evidence.isNone || row.isActive

def recordStreamingActivity (rows : List StreamCard) (events : List Event)
    (score previousScore : Option ℚ) : List StreamCard :=
  (ratedCards rows events score previousScore).filter isKept

end AnyList.Activity.Streaming
