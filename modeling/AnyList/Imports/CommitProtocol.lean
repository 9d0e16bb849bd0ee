import AnyList.Imports.ReviewHistory

namespace AnyList.Imports

variable {α δ : Type}

inductive Status
  | preparing
  | review
  | committing
  | committed
  | cancelled
  | failed
  deriving DecidableEq

/-- The row of an import session. -/
structure Row (α : Type) where
  status : Status
  idempotencyKey : Option String
  revision : Int
  items : List α
  expiresAt : Int

/-- How an import transaction ends early: by a cancellation, a `ValueError` or another exception. -/
inductive Failure
  | cancelled
  | invalid
  | other
  deriving DecidableEq

/-- Where a worker stands. It holds the row's lock while it applies the items and until it commits. -/
inductive Stage
  | queued
  | applying
  | checked
  | raised (failure : Failure)
  | marking (revision : Int)
  | pulling
  deriving DecidableEq

structure Worker where
  key : String
  stage : Stage
  deriving DecidableEq

inductive Holder
  | worker
  | cancel
  deriving DecidableEq

/-- The database and the memory of the process as far as one session goes. What the process holds is
the session's membership in `_committing` and `_cancelled`, its workers, the keys that requests are
about to schedule, and the cancel requests that wait for the row. -/
structure System (α δ : Type) where
  now : Int
  row : Row α
  personal : δ
  lock : Option Holder
  committing : Bool
  cancelled : Bool
  workers : List Worker
  scheduled : List String
  cancels : Nat
  log : List (Event α)

inductive WorkerStep
  | begin
  | raise (failure : Failure) (connectionChanged : Bool)
  | check
  | commit
  | handle
  | overwrite
  | finish

inductive Action (α : Type)
  | tick (seconds : Nat)
  | commit (key : Option String) (revision : Int) (keyUsed available : Bool)
  | poll (available : Bool)
  | resume
  | schedule (index : Nat)
  | work (index : Nat) (step : WorkerStep)
  | cancel (available : Bool)
  | cancelLock (available : Bool)
  | cancelCommit
  | cancelAbort
  | edit (revision : Int) (patch : List α → Option (List α)) (available : Bool)
  | cleanup
  | crash

namespace System

section requests

variable (s : System α δ)

def isExpired : Bool := decide (s.row.expiresAt ≤ s.now ∧ s.row.status ≠ .committed)

/-- A load that finds the session expired closes it. -/
def expire : System α δ :=
  { s with
    row := { s.row with status := .cancelled, items := [] }
    log := s.log ++ [.expired] }

def isOpen : Bool := decide (s.row.status ∈ [.preparing, .review, .committing, .failed])

/-- What a request finds when it loads the session, with the row's lock or without. The session of a
connection is refused while it is open but no longer available. -/
def loadOwned (lock available : Bool) (found : System α δ) : System α δ :=
  if s.isExpired then
    if s.lock.isSome then s else s.expire
  else if lock && s.lock.isSome then s
  else if !available && s.isOpen then s
  else found

def scheduleCommit (key : String) : System α δ :=
  if key ≠ "" ∧ s.committing = false then
    { s with committing := true, workers := s.workers ++ [⟨key, .queued⟩] }
  else s

/-- Requests and the restart hand the key that they read to a worker when they get to it. -/
def request (key : Option String) : System α δ := { s with scheduled := s.scheduled ++ key.toList }

def commitRequest (strip : String → String) (key : Option String) (revision : Int)
    (keyUsed : Bool) : System α δ :=
  match key.filter fun key ↦ strip key ≠ "" ∧ key.length ≤ 128 with
  | none => s
  | some key =>
    if s.row.status = .committing then
      if s.row.idempotencyKey = some (strip key) then s.request (some (strip key)) else s
    else if s.row.status ≠ .review ∨ revision ≠ s.row.revision ∨ keyUsed then s
    else
      { s.request (some (strip key)) with
        row := { s.row with
          idempotencyKey := some (strip key)
          status := .committing
          revision := s.row.revision + 1 }
        log := s.log ++ [.accepted s.row.revision s.row.items] }

def edit (revision : Int) (patch : List α → Option (List α)) : System α δ :=
  if s.row.status ≠ .review ∨ revision ≠ s.row.revision then s
  else
    match patch s.row.items with
    | none => s
    | some items =>
      { s with
        row := { s.row with items := items, revision := s.row.revision + 1 }
        log := s.log ++ [.edited (s.row.revision + 1) items] }

def cancelRead : System α δ :=
  { s with
    cancelled := s.cancelled || decide (s.row.status = .committing)
    cancels := s.cancels + 1 }

/-- A cancel request with the row's lock: it keeps the lock when it has something to write. -/
def cancelLock : System α δ :=
  if s.row.status = .committed then { s with cancelled := false }
  else if s.row.status = .cancelled then s
  else { s with cancelled := true, lock := some .cancel }

def answered : System α δ := { s with cancels := s.cancels - 1 }

def cancelCommit : System α δ :=
  { s with
    lock := none
    row := { s.row with status := .cancelled, items := [], revision := s.row.revision + 1 }
    log := s.log ++ [.cancelled] }

def cleanup : System α δ :=
  if s.row.expiresAt ≤ s.now ∧ s.row.status ≠ .committed ∧ s.row.status ≠ .cancelled ∧
      s.lock = none then
    { s with
      row := { s.row with status := .cancelled, items := [], revision := s.row.revision + 1 }
      log := s.log ++ [.expired] }
  else s

def resume : System α δ :=
  if s.row.status = .committing ∧ s.row.expiresAt > s.now then s.request s.row.idempotencyKey else s

/-- A new process: the transactions in flight are rolled back and the sets are empty. -/
def crash : System α δ :=
  { s with
    lock := none
    committing := false
    cancelled := false
    workers := []
    scheduled := []
    cancels := 0 }

end requests

section worker

variable (apply : List α → δ → δ) (s : System α δ) (index : Nat)

def setStage (worker : Worker) (stage : Stage) : System α δ :=
  { s with workers := s.workers.set index { worker with stage := stage } }

/-- The `finally` of a worker. -/
def finish : System α δ :=
  { s with workers := s.workers.eraseIdx index, committing := false, cancelled := false }

/-- The handlers of a cancellation and of a failed validation take the row's lock. -/
def handle (failure : Failure) : System α δ :=
  if s.row.status ≠ .committing then s.finish index
  else match failure with
    | .cancelled =>
      { s.finish index with
        row := { s.row with status := .cancelled, items := [], revision := s.row.revision + 1 }
        log := s.log ++ [.cancelled] }
    | _ =>
      { s.finish index with
        row := { s.row with status := .review, revision := s.row.revision + 1 }
        log := s.log ++ [.returned (s.row.revision + 1) s.row.items] }

/-- The handler of any other exception reads the row without a lock and then writes over it. -/
def overwrite (revision : Int) : System α δ :=
  { s.finish index with
    row := { s.row with status := .failed, revision := revision + 1 }
    log := s.log ++ [.failed] }

def commitImport : System α δ :=
  { s with
    lock := none
    row := { s.row with
      status := .committed
      items := []
      revision := s.row.revision + 1
      expiresAt := s.now + 36500 * 86400 }
    personal := apply s.row.items s.personal
    log := s.log ++ [.applied s.row.items] }

def begin (worker : Worker) : System α δ :=
  if s.row.status ≠ .committing ∨ s.row.idempotencyKey ≠ some worker.key then s.finish index
  else if s.cancelled then s.setStage index worker (.raised .cancelled)
  else { s.setStage index worker .applying with lock := some .worker }

def work (worker : Worker) : WorkerStep → System α δ
  | .begin =>
    if worker.stage = .queued ∧ s.lock = none then s.begin index worker else s
  | .raise failure connectionChanged =>
    if worker.stage = .applying ∧ (failure = .cancelled → s.cancelled ∨ connectionChanged) then
      { s.setStage index worker (.raised failure) with lock := none }
    else if worker.stage = .checked then
      { s.setStage index worker (.raised .other) with lock := none }
    else s
  | .check =>
    if worker.stage ≠ .applying then s
    else if s.cancelled then { s.setStage index worker (.raised .cancelled) with lock := none }
    else s.setStage index worker .checked
  | .commit =>
    if worker.stage = .checked then (s.setStage index worker .pulling).commitImport apply else s
  | .handle =>
    match worker.stage with
    | .raised .other =>
      if s.row.status = .committing then s.setStage index worker (.marking s.row.revision)
      else s.finish index
    | .raised failure => if s.lock = none then s.handle index failure else s
    | _ => s
  | .overwrite =>
    match worker.stage with
    | .marking revision => if s.lock = none then s.overwrite index revision else s
    | _ => s
  | .finish => if worker.stage = .pulling then s.finish index else s

end worker

variable (strip : String → String) (apply : List α → δ → δ)

def step (s : System α δ) : Action α → System α δ
  | .tick seconds => { s with now := s.now + seconds }
  | .commit key revision keyUsed available =>
      s.loadOwned true available (s.commitRequest strip key revision keyUsed)
  | .poll available =>
      s.loadOwned false available
        (if s.row.status = .committing then s.request s.row.idempotencyKey else s)
  | .resume => s.resume
  | .schedule index =>
      match s.scheduled[index]? with
      | none => s
      | some key => { s with scheduled := s.scheduled.eraseIdx index }.scheduleCommit key
  | .work index workerStep =>
      match s.workers[index]? with
      | none => s
      | some worker => s.work apply index worker workerStep
  | .cancel available => s.loadOwned false available s.cancelRead
  | .cancelLock available =>
      if s.cancels = 0 ∨ s.lock.isSome then s
      else s.answered.loadOwned true available s.answered.cancelLock
  | .cancelCommit => if s.lock = some .cancel then s.cancelCommit else s
  | .cancelAbort => if s.lock = some .cancel then { s with lock := none } else s
  | .edit revision patch available => s.loadOwned true available (s.edit revision patch)
  | .cleanup => s.cleanup
  | .crash => s.crash

/-- A draft that is in review when the process starts. -/
def reviewed (now : Int) (idempotencyKey : Option String) (revision : Int) (items : List α)
    (expiresAt : Int) (personal : δ) : System α δ where
  now := now
  row := ⟨.review, idempotencyKey, revision, items, expiresAt⟩
  personal := personal
  lock := none
  committing := false
  cancelled := false
  workers := []
  scheduled := []
  cancels := 0
  log := []

end System

end AnyList.Imports
