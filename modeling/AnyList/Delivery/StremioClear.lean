import AnyList.Library.Dict
import AnyList.Library.Json

namespace AnyList.Delivery.StremioClear

open AnyList.Library AnyList.Library.Octets AnyList.Library.Json

/-- The fields of a JSON object. -/
abbrev Fields := List (Text × Value)

def get (name : String) (fields : Fields) : Value :=
  (Dict.getEntry (text name) fields).getD .null

def update (name : String) (value : Value) (fields : Fields) : Fields :=
  Dict.setEntry (text name) value fields

def truthy : Value → Bool
  | .null => false
  | .bool value => value
  | .int value => decide (value ≠ 0)
  | .float _ digits _ => decide (digits ≠ 0)
  | .constant _ => true
  | .str text => !text.isEmpty
  | .arr items => !items.isEmpty
  | .obj fields => !fields.isEmpty

def isNone : Value → Bool
  | .null => true
  | _ => false

/-- One of `None`, `0` and `"0"`, to which `False` and `0.0` are equal. -/
def isZero : Value → Bool
  | .null => true
  | .bool value => !value
  | .int value => decide (value = 0)
  | .float _ digits _ => decide (digits = 0)
  | .str digits => decide (digits = text "0")
  | _ => false

structure Selection where
  collection : Bool
  watched : Bool
  playback : Bool
  deriving DecidableEq

def Selection.view (sel : Selection) : Bool := sel.watched || sel.playback

def watchedReset : List (String × Value) :=
  [("lastWatched", .null), ("timeWatched", .int 0), ("overallTimeWatched", .int 0),
    ("timesWatched", .int 0), ("flaggedWatched", .int 0), ("watched", .null)]

def playbackReset : List (String × Value) :=
  [("timeOffset", .int 0), ("video_id", .null), ("duration", .int 0)]

def Selection.resets (sel : Selection) : List (String × Value) :=
  (if sel.watched then watchedReset else []) ++ if sel.playback then playbackReset else []

def updateAll (values : List (String × Value)) (fields : Fields) : Fields :=
  values.foldl (fun fields value ↦ update value.1 value.2 fields) fields

def stateOf (record : Fields) : Fields :=
  match get "state" record with
  | .obj fields => fields
  | _ => []

/-- A record as the clear of viewing data writes it. -/
def clearedView (sel : Selection) (now : Text) (record : Fields) : Fields :=
  update "_mtime" (.str now)
    (update "state" (.obj (updateAll sel.resets (stateOf record))) record)

/-- A record as the clear of the collection writes it. -/
def tombstone (now : Text) (record : Fields) : Fields :=
  update "_mtime" (.str now) (update "temp" (.bool false) (update "removed" (.bool true) record))

def watchedHeld (state : Fields) : Bool :=
  ["timesWatched", "flaggedWatched", "timeWatched", "overallTimeWatched"].any
      (fun name ↦ !isZero (get name state)) ||
    !isNone (get "lastWatched" state) || !isNone (get "watched" state)

def playbackHeld (state : Fields) : Bool :=
  ["timeOffset", "duration"].any (fun name ↦ !isZero (get name state)) ||
    !isNone (get "video_id" state)

/-- What the server answers during one clear: a missing answer is an error, and every answer may
follow writes of others. -/
structure Replies where
  library : Option (List Value)
  viewAck : ℕ → Bool
  viewRows : ℕ → Option (List Value)
  collectionAck : ℕ → Bool
  collectionRows : ℕ → Option (List Value)
  remaining : Option (List Value)

structure Outcome where
  written : List (List Fields)
  counts : Option (ℕ × ℕ × ℕ)

def writeBatchSize : ℕ := 100

def batches {α : Type*} (items : List α) : List (List α) :=
  (List.range ((items.length + writeBatchSize - 1) / writeBatchSize)).map fun i ↦
    (items.drop (i * writeBatchSize)).take writeBatchSize

def item? : Value → Option Fields
  | .obj fields => if truthy (get "_id" fields) then some fields else none
  | _ => none

def datastoreGet (reply : Option (List Value)) : Option (List Fields) :=
  reply.bind fun items ↦ items.mapM item?

/-- The batches that are sent, up to the first without an acknowledgement. -/
def datastorePut (ack : ℕ → Bool) : ℕ → List (List Fields) → List (List Fields) × Bool
  | _, [] => ([], true)
  | i, batch :: rest =>
    if ack i then ((batch :: (datastorePut ack (i + 1) rest).1), (datastorePut ack (i + 1) rest).2)
    else ([batch], false)

def idOf (record : Fields) : Option Text :=
  match get "_id" record with
  | .str id => some id
  | _ => none

def confirmed (rows : List Fields) (id : Text) : Option Fields :=
  (rows.filter fun row ↦ decide (idOf row = some id)).getLast?

variable (isSpace : ℕ → Bool) (sel : Selection) (now : Text) (replies : Replies)

def hasState (record : Fields) : Bool :=
  match get "state" record with
  | .obj _ => true
  | _ => false

def readRecord (record : Fields) : Option (Text × Fields) := do
  let id ← idOf record
  if id.all isSpace || !(hasState record || isNone (get "state" record)) then none
  else some (id, record)

/-- The records by their identifiers; a malformed library is refused before the first write. -/
def byId (records : List Fields) : Option (List (Text × Fields)) := do
  let read ← records.mapM (readRecord isSpace)
  if (read.map Prod.fst).Nodup then some read else none

def viewConfirmed (record : Fields) : Bool :=
  hasState record && !(sel.watched && watchedHeld (stateOf record)) &&
    !(sel.playback && playbackHeld (stateOf record))

/-- Reads a batch back and takes each record as it was read. -/
def confirmView (i : ℕ) : List (List (Text × Fields)) → Option (List (Text × Fields))
  | [] => some []
  | batch :: rest => do
    let rows ← datastoreGet (replies.viewRows i)
    let read ← batch.mapM fun entry ↦ (confirmed rows entry.1).bind fun row ↦
      if viewConfirmed sel row then some (entry.1, row) else none
    return read ++ (← confirmView (i + 1) rest)

def confirmCollection (i : ℕ) : List (List (Text × Fields)) → Bool
  | [] => true
  | batch :: rest =>
    (datastoreGet (replies.collectionRows i)).any (fun rows ↦ batch.all fun entry ↦
      (confirmed rows entry.1).all fun row ↦ truthy (get "removed" row) && !truthy (get "temp" row)) &&
      confirmCollection (i + 1) rest

/-- The last check: malformed rows and rows that hold data of a selected category. -/
def verified (record : Fields) : Bool :=
  (idOf record).any (fun id ↦ !id.all isSpace) && !(sel.collection && !truthy (get "removed" record)) &&
    !(sel.view && !(hasState record || isNone (get "state" record))) &&
    !(sel.watched && watchedHeld (stateOf record)) && !(sel.playback && playbackHeld (stateOf record))

def viewWrites (library : List (Text × Fields)) : List (Text × Fields) :=
  if sel.view then library.map fun entry ↦ (entry.1, clearedView sel now entry.2) else []

def collectionWrites (current : List (Text × Fields)) : List (Text × Fields) :=
  if sel.collection then current.map fun entry ↦ (entry.1, tombstone now entry.2) else []

def sentRecords (writes : List (Text × Fields)) : List (List Fields) :=
  (batches writes).map fun batch ↦ batch.map Prod.snd

/-- The part of a clear behind the confirmation of the viewing data. -/
def clearCollection (sent : List (List Fields)) (count : ℕ) (current : List (Text × Fields)) : Outcome :=
  let writes := collectionWrites sel now current
  let put := datastorePut replies.collectionAck 0 (sentRecords writes)
  if !put.2 then ⟨sent ++ put.1, none⟩
  else if !confirmCollection replies 0 (batches writes) then ⟨sent ++ put.1, none⟩
  else
    match datastoreGet replies.remaining with
    | none => ⟨sent ++ put.1, none⟩
    | some remaining =>
      if remaining.all (verified isSpace sel) then
        ⟨sent ++ put.1, some (if sel.collection then count else 0, if sel.watched then count else 0,
          if sel.playback then count else 0)⟩
      else ⟨sent ++ put.1, none⟩

def clearDatastoreData : Outcome :=
  if !(sel.collection || sel.view) then ⟨[], none⟩
  else
    match (datastoreGet replies.library).bind (byId isSpace) with
    | none => ⟨[], none⟩
    | some library =>
      let writes := viewWrites sel now library
      let put := datastorePut replies.viewAck 0 (sentRecords writes)
      if !put.2 then ⟨put.1, none⟩
      else
        match if sel.view then confirmView sel replies 0 (batches writes) else some library with
        | none => ⟨put.1, none⟩
        | some current => clearCollection isSpace sel now replies put.1 library.length current

end AnyList.Delivery.StremioClear
