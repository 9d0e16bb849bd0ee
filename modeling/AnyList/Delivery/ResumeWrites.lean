import AnyList.Delivery.StremioClear
import AnyList.Library.Doubles
import AnyList.Library.PyText

namespace AnyList.Delivery.StremioResume

open AnyList.Library AnyList.Library.Octets AnyList.Library.Json AnyList.Delivery.StremioClear

section equality

/-- The number of a truth value, an integer or a float. -/
def number : Value → Option ℚ
  | .bool value => some (if value then 1 else 0)
  | .int value => some value
  | .float negative digits exponent =>
    some (Doubles.nearest 53 ((if negative then -(digits : ℚ) else digits) * 10 ^ exponent))
  | _ => none

def sameScalar : Value → Value → Bool
  | .null, .null => true
  | .constant name, .constant name' => decide (name = name' ∧ name ≠ "NaN")
  | .str t, .str t' => decide (t = t')
  | v, w =>
    match number v, number w with
    | some x, some y => decide (x = y)
    | _, _ => false

mutual

/-- Equality of two values: of numbers by value, of objects whatever the order of their fields. -/
def same : Value → Value → Bool
  | .arr items, .arr items' => sameItems items items'
  | .obj fields, .obj fields' => decide (fields.length = fields'.length) && sameFields fields fields'
  | v, w => sameScalar v w

def sameItems : List Value → List Value → Bool
  | [], [] => true
  | v :: rest, w :: rest' => same v w && sameItems rest rest'
  | _, _ => false

def sameFields : List (Text × Value) → List (Text × Value) → Bool
  | [], _ => true
  | (name, v) :: rest, fields =>
    (match Dict.getEntry name fields with
      | some w => same v w
      | none => false) && sameFields rest fields

end

end equality

/-- The playback that a queued action carries; a value that is absent is null. -/
structure Resume where
  contentId : Text
  contentType : Value
  name : Value
  title : Value
  poster : Value
  posterShape : Value
  season : Value
  episode : Value
  position : Value
  duration : Value
  videoId : Value
  observedAt : Value
  lastWatched : Value

/-- The texts of values that are neither texts nor integers, the dictionary of a value that is no
object, the date of a value in milliseconds, the text that is stored for a viewing date, and the
clock: a value without a date has none, and one that cannot be converted fails. -/
structure Runtime where
  str : Value → Text
  dict : Value → Option Fields
  instant : Value → Option (Option ℤ)
  lastWatched : Value → Option (Option Text)
  now : Text

structure Replies where
  rows : Option (List Value)
  acknowledged : Bool
  readback : Option (List Value)

inductive Result
  | done
  | changed
  | failed
  deriving DecidableEq

structure Outcome where
  written : List Fields
  result : Result

structure Progress where
  position : Value
  duration : Value
  season : Value
  episode : Value

def sameProgress (left right : Progress) : Bool :=
  same left.position right.position && same left.duration right.duration &&
    same left.season right.season && same left.episode right.episode

variable (rt : Runtime) (record : Resume)

def Runtime.text (rt : Runtime) : Value → Text
  | .str t => t
  | .int n => PyText.decimal n
  | v => rt.str v

def providerChangedAt : Value → Option (Option ℤ)
  | .null => some none
  | .str [] => some none
  | v => rt.instant v

def newerPlaybackDate (incoming existing : Value) : Option Bool := do
  let incomingAt ← providerChangedAt rt incoming
  let existingAt ← providerChangedAt rt existing
  return incomingAt.any fun i ↦ existingAt.all fun e ↦ decide (e < i)

/-- A date that is stored in milliseconds confirms one that is up to a millisecond later. -/
def playbackDateConfirmed (expected actual : Value) : Option Bool := do
  let expectedAt ← providerChangedAt rt expected
  let actualAt ← providerChangedAt rt actual
  return expectedAt.all fun e ↦ actualAt.any fun a ↦ decide (e - a < 1)

def orElse (v w : Value) : Value := if truthy v then v else w

def defaultState : Fields :=
  [(text "lastWatched", .null), (text "timeWatched", .int 0), (text "timeOffset", .int 0),
    (text "overallTimeWatched", .int 0), (text "timesWatched", .int 0),
    (text "flaggedWatched", .int 0), (text "duration", .int 0), (text "video_id", .null),
    (text "watched", .null), (text "noNotif", .bool false)]

def newLibraryItem : Fields :=
  [(text "_id", .str record.contentId),
    (text "name", orElse record.name (orElse record.title (.str record.contentId))),
    (text "type", record.contentType), (text "poster", record.poster),
    (text "posterShape", orElse record.posterShape (.str (text "poster"))),
    (text "removed", .bool true), (text "temp", .bool true), (text "_ctime", .str rt.now),
    (text "_mtime", .str rt.now), (text "state", .obj defaultState),
    (text "behaviorHints", .obj [])]

def itemOf (rows : List Fields) : Fields := rows.head?.getD (newLibraryItem rt record)

def stateDict (item : Fields) : Option Fields :=
  match get "state" item with
  | .obj fields => some fields
  | v => if truthy v then rt.dict v else some []

def otherType (item : Fields) : Bool :=
  truthy (get "type" item) && truthy record.contentType &&
    !same (get "type" item) record.contentType

/-- The text `:season:episode`. -/
def episodeSuffix : Text :=
  0x3A :: rt.text record.season ++ 0x3A :: rt.text record.episode

def videoText (state : Fields) : Text :=
  if truthy (get "video_id" state) then rt.text (get "video_id" state) else []

def Resume.progress (record : Resume) : Progress :=
  ⟨record.position, record.duration, record.season, record.episode⟩

def otherEpisode (state : Fields) : Bool :=
  !isNone record.season && !(episodeSuffix rt record).isSuffixOf (videoText rt state)

def remoteProgress (state : Fields) : Progress :=
  if otherEpisode rt record state then
    ⟨get "timeOffset" state, get "duration" state, .null, .null⟩
  else ⟨get "timeOffset" state, get "duration" state, record.season, record.episode⟩

def matchingVideo (state : Fields) : Bool :=
  if isNone record.season then decide (videoText rt state = record.contentId)
  else !isNone (remoteProgress rt record state).season

def matchingProgress (state : Fields) : Bool :=
  sameProgress (remoteProgress rt record state) record.progress && matchingVideo rt record state

def observedAt : Option (Option ℤ) := providerChangedAt rt record.observedAt

/-- The modification time of the remote record; a record that is made new has none. -/
def remoteAt : List Fields → Option (Option ℤ)
  | item :: _ => providerChangedAt rt (get "_mtime" item)
  | [] => some none

/-- Whether nothing is left to write. -/
def upToDate (item state : Fields) : Option Bool :=
  if matchingProgress rt record state && !truthy (get "removed" item) then
    (newerPlaybackDate rt record.lastWatched (get "lastWatched" state)).map (!·)
  else some false

/-- Whether the clocks keep other playback from being overwritten. -/
def refused (observed remote : Option ℤ) (state : Fields) : Bool :=
  !matchingProgress rt record state &&
    observed.all fun o ↦ remote.any fun r ↦ decide (o < r)

def videoIdOf : Value :=
  if truthy record.videoId then record.videoId
  else if isNone record.season then .str record.contentId
  else .str (record.contentId ++ episodeSuffix rt record)

def writtenState (state : Fields) : Option Fields := do
  let state := update "video_id" (videoIdOf rt record)
    (update "duration" record.duration (update "timeOffset" record.position state))
  if isNone record.lastWatched then return state
  match ← rt.lastWatched record.lastWatched with
  | some t => return update "lastWatched" (.str t) state
  | none => return state

def shown (candidate : Fields) : Fields :=
  if truthy (get "removed" candidate) then
    update "temp" (.bool true) (update "removed" (.bool false) candidate)
  else candidate

def candidateOf (item state : Fields) : Fields :=
  shown (update "_mtime" (.str rt.now) (update "state" (.obj state) item))

/-- The checks of the row that is read back. -/
def persisted (row : Fields) : Option Bool := do
  let state ← match get "state" row with
    | .obj fields => some fields
    | v => if truthy v then none else some []
  let confirmed ← playbackDateConfirmed rt record.lastWatched (get "lastWatched" state)
  return !truthy (get "removed" row) &&
    (if isNone record.season then same (get "video_id" state) (.str record.contentId)
      else (episodeSuffix rt record).isSuffixOf (videoText rt state)) &&
    same (get "timeOffset" state) record.position && same (get "duration" state) record.duration &&
    confirmed

def readBack (reply : Option (List Value)) : Result :=
  match datastoreGet reply with
  | some [row] =>
    if rt.text (get "_id" row) = record.contentId ∧ persisted rt record row = some true then .done
    else .failed
  | _ => .failed

/-- The part of a push behind the checks of the record. -/
def write (replies : Replies) (item state : Fields) : Outcome :=
  match writtenState rt record state with
  | none => ⟨[], .failed⟩
  | some state =>
    ⟨[candidateOf rt item state],
      if replies.acknowledged then readBack rt record replies.readback else .failed⟩

def pushRows (replies : Replies) (rows : List Fields) : Outcome :=
  if otherType record (itemOf rt record rows) then ⟨[], .changed⟩
  else match stateDict rt (itemOf rt record rows) with
  | none => ⟨[], .failed⟩
  | some state => match upToDate rt record (itemOf rt record rows) state with
    | none => ⟨[], .failed⟩
    | some true => ⟨[], .done⟩
    | some false => match observedAt rt record, remoteAt rt rows with
      | some observed, some remote =>
        if refused rt record observed remote state then ⟨[], .changed⟩
        else write rt record replies (itemOf rt record rows) state
      | _, _ => ⟨[], .failed⟩

def pushStremioProgress (replies : Replies) : Outcome :=
  match datastoreGet replies.rows with
  | none => ⟨[], .failed⟩
  | some rows => pushRows rt record replies rows

section dispatch

inductive ActionState
  | pending
  | applied
  | conflict
  deriving DecidableEq

structure SyncReview where
  kind : String
  previousStatus : Option String
  proposedStatus : String
  message : String
  deriving DecidableEq

/-- A queued upsert, and the reviews that its deliveries raised. -/
structure Action where
  state : ActionState
  attempts : ℕ
  lastError : Option String
  reviews : List SyncReview
  deriving DecidableEq

def changedReview (status : Option String) : SyncReview :=
  ⟨"conflict", status, "watching", "Playback changed on a connected account. " ++
    "The queued action was not applied; review the newer activity."⟩

/-- The end of one delivery of a queued upsert. -/
def settle (status : Option String) (error : String) (action : Action) : Result → Action
  | .done => { action with state := .applied, attempts := action.attempts + 1, lastError := none }
  | .changed =>
    { action with
      state := .conflict
      attempts := action.attempts + 1
      lastError := some "Playback changed since the last import"
      reviews := action.reviews ++ [changedReview status] }
  | .failed => { action with attempts := action.attempts + 1, lastError := some error }

def dispatchUpsert (status : Option String) (error : String) (replies : Replies) (action : Action) :
    Outcome × Action :=
  (pushStremioProgress rt record replies,
    settle status error action (pushStremioProgress rt record replies).result)

end dispatch

end AnyList.Delivery.StremioResume
