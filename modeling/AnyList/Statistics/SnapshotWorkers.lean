import Mathlib.Algebra.Order.Ring.Nat
import Mathlib.Data.Int.Notation
import Mathlib.Data.List.Basic
import Mathlib.Logic.Function.Basic

namespace AnyList.Statistics.Snapshots

/-- What a timestamp column keeps of a time in microseconds. -/
def stored (time : ℕ) : ℕ := (time + 500) / 1000 * 1000

def seconds (n : ℕ) : ℕ := n * 1000000

def minutes (n : ℕ) : ℕ := seconds (n * 60)

def contractVersion : ℕ := 13

def leaseTime : ℕ := minutes 10

def refreshTime : ℕ := minutes (24 * 60)

section writes

/-- A row of `watch_events`; `fields` are its other columns. -/
structure WatchEvent where
  userId : ℕ
  mediaId : ℕ
  watchedAt : Option ℕ
  completed : Bool
  playCount : ℤ
  fields : List (String × String)
  deriving DecidableEq

/-- A row of `tracked_entries`; `fields` are its other columns. -/
structure TrackedEntry where
  userId : ℕ
  mediaId : ℕ
  updatedAt : ℕ
  fields : List (String × String)
  deriving DecidableEq

inductive RowChange (Row : Type)
  | inserted (new : Row)
  | updated (old new : Row)
  | deleted (old : Row)

/-- A change of the row of `global_settings`, of which `show_anime` is read. -/
inductive SettingsChange
  | inserted
  | updated (old new : Bool)
  | deleted

inductive Write
  | watch (change : RowChange WatchEvent)
  | entry (change : RowChange TrackedEntry)
  | metadata
  | settings (change : SettingsChange)

/-- What the trigger on personal facts reads of a row. -/
structure HistoryTable (Row : Type) where
  userId : Row → ℕ
  mediaId : Row → ℕ
  undone : Row → Row → Bool
  facts : Row → Row

def watchEvents : HistoryTable WatchEvent where
  userId := WatchEvent.userId
  mediaId := WatchEvent.mediaId
  undone old new := old.completed && (!new.completed || decide (new.playCount < old.playCount) ||
    old.watchedAt.isSome && new.watchedAt.isNone)
  facts row := row

def trackedEntries : HistoryTable TrackedEntry where
  userId := TrackedEntry.userId
  mediaId := TrackedEntry.mediaId
  undone _ _ := false
  facts row := { row with updatedAt := 0 }

section row

variable {Row : Type} [DecidableEq Row] (table : HistoryTable Row)

/-- The calls of `stats_mark_user` for one changed row: an account, and whether it is purged. -/
def statsUserFactChanged : RowChange Row → List (ℕ × Bool)
  | .inserted new => [(table.userId new, false)]
  | .updated old new =>
    (if table.userId old ≠ table.userId new ∨ table.mediaId old ≠ table.mediaId new then
      [(table.userId old, true)] else []) ++
    if table.facts old = table.facts new then [] else [(table.userId new, table.undone old new)]
  | .deleted old => [(table.userId old, true)]

/-- The account loses a row of its history, or a play is undone. -/
def RowChange.Removes (account : ℕ) : RowChange Row → Prop
  | .inserted _ => False
  | .updated old new =>
    table.userId old = account ∧
      (table.userId old ≠ table.userId new ∨ table.mediaId old ≠ table.mediaId new) ∨
    table.userId new = account ∧ table.undone old new
  | .deleted old => table.userId old = account

/-- The facts of the account change. -/
def RowChange.Concerns (account : ℕ) : RowChange Row → Prop
  | .inserted new => table.userId new = account
  | .updated old new => table.facts old ≠ table.facts new ∧
    (table.userId old = account ∨ table.userId new = account)
  | .deleted old => table.userId old = account

end row

def SettingsChange.visibility : SettingsChange → Bool
  | .inserted => false
  | .updated old new => decide (old ≠ new)
  | .deleted => true

variable (account : ℕ)

namespace Write

/-- A removed or undone play, a deleted entry or a change of what is visible. -/
def Purges : Write → Prop
  | watch change => change.Removes watchEvents account
  | entry change => change.Removes trackedEntries account
  | metadata => False
  | settings change => change.visibility

/-- A change of the account's history. -/
def Concerns : Write → Prop
  | watch change => change.Concerns watchEvents account
  | entry change => change.Concerns trackedEntries account
  | metadata | settings _ => False

end Write

end writes

structure UserStatsSnapshot where
  id : ℕ
  sourceRevision : ℕ
  metadataRevision : ℕ
  contractVersion : ℕ
  computedAt : ℕ
  /-- The writes that had committed when what the overviews are built from was read. -/
  payload : List Write

structure UserStatsState where
  sourceRevision : ℕ
  dirty : Bool
  nextDueAt : ℕ
  activeSnapshotId : Option ℕ
  leaseToken : Option ℕ
  leaseUntil : Option ℕ
  attempts : ℕ
  errorCode : Option String
  lastAttemptAt : Option ℕ

structure Result where
  payload : List Write
  sourceRevision : ℕ
  metadataRevision : ℕ

/-- What is stored for one account, with the shared revision of the metadata. -/
structure Database where
  state : UserStatsState
  snapshots : List UserStatsSnapshot
  revision : ℕ

section triggers

variable (account now : ℕ) (db : Database)

def statsMarkUser (call : ℕ × Bool) : Database :=
  if call.1 = account then
    { db with
      state := { db.state with
        sourceRevision := db.state.sourceRevision + 1
        dirty := true
        activeSnapshotId := if call.2 then none else db.state.activeSnapshotId
        nextDueAt := if call.2 then stored now else db.state.nextDueAt }
      snapshots := if call.2 then [] else db.snapshots }
  else db

def statsMetadataChanged : Database := { db with revision := db.revision + 1 }

def statsVisibilityChanged (change : SettingsChange) : Database :=
  let db := if change.visibility then
    { db with
      state := { db.state with activeSnapshotId := none, dirty := true, nextDueAt := stored now }
      snapshots := [] }
  else db
  { db with revision := db.revision + 1 }

namespace Write

/-- The triggers of one write. -/
def run (write : Write) : Database :=
  match write with
  | watch change => (statsUserFactChanged watchEvents change).foldl (statsMarkUser account now) db
  | entry change =>
    (statsUserFactChanged trackedEntries change).foldl (statsMarkUser account now) db
  | metadata => statsMetadataChanged db
  | settings change => statsVisibilityChanged now db change

/-- Whether the triggers write the state row of the account, and so take its lock. -/
def locks : Write → Bool
  | watch change => (statsUserFactChanged watchEvents change).any (·.1 = account)
  | entry change => (statsUserFactChanged trackedEntries change).any (·.1 = account)
  | metadata => false
  | settings change => change.visibility

end Write

end triggers

section workers

/-- Where a run stands: a worker from `claiming` to the commit of what it publishes or records, or
a transaction on the tables from `changing` to its commit. -/
inductive Stage
  | claiming (now : ℕ)
  | granting (now : ℕ)
  | skipped (state : UserStatsState)
  | claimed (state : UserStatsState)
  | computing
  | computed (result : Result)
  | publishing (now : ℕ) (result : Result)
  | checking (now : ℕ) (result : Result)
  | refusing (state : UserStatsState)
  | inserted (now : ℕ) (state : UserStatsState) (snapshot : UserStatsSnapshot)
  | failing
  | recording (now : ℕ)
  | noting (now : ℕ)
  | noted (state : UserStatsState)
  | changing (now : ℕ) (writes : List Write)
  | changed (now : ℕ) (writes : List Write)
  | returned
  | raised

inductive Event
  | claim (id : ℕ)
  | change (id : ℕ) (writes : List Write)
  | advance (id : ℕ)
  | fail (id : ℕ)
  | cancel (id : ℕ)
  | pass (time : ℕ)

/-- The account as committed, the writes in the order of their commits, the next value of the
sequence of snapshots, the holder of the lock of the state row, and the runs. -/
structure Server where
  database : Database
  log : List Write
  nextId : ℕ
  clock : ℕ
  lock : Option ℕ
  runs : ℕ → Option Stage

namespace Server

variable (s : Server) (id : ℕ)

/-- An account that has just been created. -/
def initial (revision clock : ℕ) : Server where
  database := ⟨⟨0, true, stored clock, none, none, none, 0, none, none⟩, [], revision⟩
  log := []
  nextId := 1
  clock := clock
  lock := none
  runs _ := none

def state : UserStatsState := s.database.state

def enter (stage : Stage) : Server := { s with runs := Function.update s.runs id (some stage) }

/-- A run whose transaction ends, and with it its hold on the lock. -/
def release (stage : Stage) : Server :=
  { s.enter id stage with lock := if s.lock = some id then none else s.lock }

/-- A run that waits for the lock. -/
def acquire (stage : Stage) : Server :=
  if s.lock = none then { s.enter id stage with lock := some id } else s

def commit (stage : Stage) (state : UserStatsState) : Server :=
  { s.release id stage with database := { s.database with state := state } }

end Server

section claim

variable (state : UserStatsState) (now : ℕ)

def due : Bool :=
  decide (state.nextDueAt ≤ now) &&
    (state.leaseToken.isNone || state.leaseUntil.any fun time ↦ decide (time ≤ now))

def postpone : UserStatsState := { state with nextDueAt := stored (now + refreshTime) }

def grant (token : ℕ) : UserStatsState :=
  { state with
    leaseToken := some token
    leaseUntil := some (stored (now + leaseTime))
    lastAttemptAt := some (stored now) }

def owns (token : ℕ) : Bool := decide (state.leaseToken = some token)

def leased (token : ℕ) : Bool :=
  owns state token && state.leaseUntil.any fun time ↦ decide (now < time)

def refuse : UserStatsState :=
  { state with
    leaseToken := none
    leaseUntil := none
    dirty := true
    nextDueAt := stored (now + minutes 1) }

def activate (account : ℕ) (snapshot : UserStatsSnapshot) : UserStatsState :=
  { state with
    activeSnapshotId := some snapshot.id
    dirty := false
    leaseToken := none
    leaseUntil := none
    attempts := 0
    errorCode := none
    nextDueAt := stored (now + refreshTime + seconds (account % 300)) }

def recordFailure : UserStatsState :=
  let attempts := state.attempts + 1
  { state with
    attempts := attempts
    errorCode := some "calculation_failed"
    leaseToken := none
    leaseUntil := none
    nextDueAt := stored (now + minutes (min 60 (2 ^ min attempts 6))) }

variable {state now}

@[simp] theorem postpone_sourceRevision :
    (postpone state now).sourceRevision = state.sourceRevision := by rw [postpone]

@[simp] theorem postpone_dirty : (postpone state now).dirty = state.dirty := by rw [postpone]

@[simp] theorem postpone_activeSnapshotId :
    (postpone state now).activeSnapshotId = state.activeSnapshotId := by rw [postpone]

@[simp] theorem postpone_leaseToken :
    (postpone state now).leaseToken = state.leaseToken := by rw [postpone]

variable {token : ℕ}

@[simp] theorem grant_sourceRevision :
    (grant state now token).sourceRevision = state.sourceRevision := rfl

@[simp] theorem grant_dirty : (grant state now token).dirty = state.dirty := rfl

@[simp] theorem grant_activeSnapshotId :
    (grant state now token).activeSnapshotId = state.activeSnapshotId := rfl

@[simp] theorem grant_leaseToken : (grant state now token).leaseToken = some token := rfl

@[simp] theorem refuse_sourceRevision :
    (refuse state now).sourceRevision = state.sourceRevision := rfl

@[simp] theorem refuse_dirty : (refuse state now).dirty = true := rfl

@[simp] theorem refuse_activeSnapshotId :
    (refuse state now).activeSnapshotId = state.activeSnapshotId := rfl

@[simp] theorem refuse_leaseToken : (refuse state now).leaseToken = none := rfl

@[simp] theorem recordFailure_sourceRevision :
    (recordFailure state now).sourceRevision = state.sourceRevision := by rw [recordFailure]

@[simp] theorem recordFailure_dirty :
    (recordFailure state now).dirty = state.dirty := by rw [recordFailure]

@[simp] theorem recordFailure_activeSnapshotId :
    (recordFailure state now).activeSnapshotId = state.activeSnapshotId := by rw [recordFailure]

@[simp] theorem recordFailure_leaseToken :
    (recordFailure state now).leaseToken = none := by rw [recordFailure]

variable {account : ℕ} {snapshot : UserStatsSnapshot}

@[simp] theorem activate_sourceRevision :
    (activate state now account snapshot).sourceRevision = state.sourceRevision := rfl

@[simp] theorem activate_activeSnapshotId :
    (activate state now account snapshot).activeSnapshotId = some snapshot.id := rfl

@[simp] theorem activate_leaseToken :
    (activate state now account snapshot).leaseToken = none := rfl

end claim

def Database.upToDate (db : Database) : Bool :=
  (db.state.activeSnapshotId.bind fun id ↦ db.snapshots.find? fun snapshot ↦ snapshot.id = id).any
    fun snapshot ↦ !db.state.dirty && decide (snapshot.contractVersion = contractVersion) &&
      decide (snapshot.metadataRevision = db.revision)

def Server.read (s : Server) : Result :=
  { payload := s.log
    sourceRevision := s.state.sourceRevision
    metadataRevision := s.database.revision }

def Server.snapshot (s : Server) (now : ℕ) (result : Result) : UserStatsSnapshot :=
  { id := s.nextId
    sourceRevision := result.sourceRevision
    metadataRevision := result.metadataRevision
    contractVersion := contractVersion
    computedAt := stored now
    payload := result.payload }

variable (account : ℕ)

def advance (s : Server) (id : ℕ) : Stage → Server
  | .claiming now =>
    if s.lock = none ∧ due s.state now then { s.enter id (.granting now) with lock := some id }
    else s.enter id .returned
  | .granting now =>
    if s.database.upToDate then s.enter id (.skipped (postpone s.state now))
    else s.enter id (.claimed (grant s.state now id))
  | .skipped state | .noted state | .refusing state => s.commit id .returned state
  | .claimed state => s.commit id .computing state
  | .computing =>
    if owns s.state id then s.enter id (.computed s.read) else s.enter id .returned
  | .computed result => s.enter id (.publishing s.clock result)
  | .publishing now result => s.acquire id (.checking now result)
  | .checking now result =>
    if leased s.state now id then
      if s.state.sourceRevision = result.sourceRevision ∧
          s.database.revision = result.metadataRevision then
        let snapshot := s.snapshot now result
        { s.enter id (.inserted now (activate s.state now account snapshot) snapshot) with
          nextId := s.nextId + 1 }
      else s.enter id (.refusing (refuse s.state now))
    else s.release id .returned
  | .inserted _ state snapshot =>
    { s.release id .returned with
      database := { s.database with
        state := state
        snapshots := (s.database.snapshots ++ [snapshot]).filter fun other ↦
          other.id = snapshot.id } }
  | .failing => s.enter id (.recording s.clock)
  | .recording now => s.acquire id (.noting now)
  | .noting now =>
    if owns s.state id then s.enter id (.noted (recordFailure s.state now))
    else s.release id .returned
  | .changing now writes =>
    if writes.any (Write.locks account) then s.acquire id (.changed now writes)
    else s.enter id (.changed now writes)
  | .changed now writes =>
    { s.release id .returned with
      database := writes.foldl (Write.run account now) s.database
      log := s.log ++ writes }
  | .returned | .raised => s

/-- A statement of a run fails: what it has not committed is rolled back, and the failure of a
calculation is recorded. -/
def fail (s : Server) (id : ℕ) : Stage → Server
  | .computing | .computed _ | .publishing _ _ | .checking _ _ | .refusing _ | .inserted _ _ _ =>
    s.release id .failing
  | .returned | .raised => s
  | _ => s.release id .raised

def step (s : Server) : Event → Server
  | .claim id => if (s.runs id).isNone then s.enter id (.claiming s.clock) else s
  | .change id writes => if (s.runs id).isNone then s.enter id (.changing s.clock writes) else s
  | .advance id => (s.runs id).elim s (advance account s id)
  | .fail id => (s.runs id).elim s (fail s id)
  | .cancel id => if (s.runs id).isNone then s else s.release id .raised
  | .pass time => { s with clock := s.clock + time }

end workers

end AnyList.Statistics.Snapshots
