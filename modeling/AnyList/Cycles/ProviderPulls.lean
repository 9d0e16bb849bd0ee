import AnyList.Cycles.ProviderChanges

namespace AnyList.Cycles.ProviderChanges

open AnyList.Library
open AnyList.Cycles.AccountCycle (SyncStatus)

/-- How far the worker of a provider job is, with the checkpoint it fetched before pulling. -/
inductive Stage
  | waiting
  | answered (check : ChangeCheck)
  | admitted (checkpoint : Option Checkpoint)
  | running (checkpoint : Option Checkpoint)
  | returned (checkpoint : Option Checkpoint)
  | finished
  deriving DecidableEq

/-- The data of a pull, with the checkpoint that was fetched before it. -/
structure Pull where
  source : Source
  fetched : Option Checkpoint
  deriving DecidableEq

inductive Phase
  | queued
  | pulling
  | closed
  | leaving
  deriving DecidableEq

/-- A cycle in the memory of its worker. -/
structure Cycle where
  children : List (ℕ × Source)
  stages : ℕ → Stage
  phase : Phase
  cancelRequested : Bool
  collecting : Bool
  failed : Bool
  reconciled : Bool
  versions : ℕ → Option ℕ
  staged : List Pull

/-- `reconciled` are the pulls whose data took part in a committed finalize. -/
structure State where
  accounts : Accounts
  cycle : Option Cycle
  reconciled : List Pull

namespace State

def initial (clouds : CloudProvider → CloudSettings) : State :=
  ⟨⟨.empty, clouds, .empty⟩, none, []⟩

def modifyJob (s : State) (id : ℕ) (f : PullJob → PullJob) : State :=
  { s with accounts := { s.accounts with jobs := s.accounts.jobs.modifyAt id f } }

def modifyJobs (s : State) (f : ℕ → PullJob → PullJob) : State :=
  { s with accounts := { s.accounts with jobs := s.accounts.jobs.modify f } }

def modifyConnection (s : State) (id : ℕ) (f : Connection → Connection) : State :=
  { s with accounts := { s.accounts with connections := s.accounts.connections.modifyAt id f } }

def modifySource (s : State) (source : Source) (f : Connection → Connection) : State :=
  match source with
  | .connection id => s.modifyConnection id f
  | .cloud _ => s

def setCycle (s : State) (cycle : Cycle) : State := { s with cycle := some cycle }

def setStage (s : State) (cycle : Cycle) (id : ℕ) (stage : Stage) : State :=
  s.setCycle { cycle with stages := Function.update cycle.stages id stage }

end State

def PullJob.fail (job : PullJob) : PullJob := { job with status := .failed }

def PullJob.abort (job : PullJob) : PullJob := if job.status.active then job.fail else job

section admission

def queueChildren : Table PullJob → List Source → Table PullJob × List (ℕ × Source)
  | jobs, [] => (jobs, [])
  | jobs, source :: targets =>
    let queued := queueChildren (jobs.insert (pendingJob source)) targets
    (queued.1, (jobs.next, source) :: queued.2)

def present (a : Accounts) : Source → Bool
  | .connection id => (a.connections.get id).isSome
  | .cloud _ => true

/-- Admission of a cycle over distinct connected sources while no other is active. -/
def queueAccountPull (s : State) (targets : List Source) : State :=
  match s.cycle with
  | some _ => s
  | none =>
    if targets = [] ∨ ¬ targets.Nodup ∨ ∃ source ∈ targets, present s.accounts source = false then s
    else
      let queued := queueChildren s.accounts.jobs targets
      { s with
        accounts := { s.accounts with jobs := queued.1 }
        cycle := some ⟨queued.2, fun _ ↦ .waiting, .queued, false, true, false, false, fun _ ↦ none, []⟩ }

end admission

section provider

variable (s : State) (cycle : Cycle) (id : ℕ) (source : Source) (job : PullJob)

def connectionOf : Option Connection :=
  match source with
  | .connection i => s.accounts.connections.get i
  | .cloud _ => none

/-- A provider job until the answer of its change check. -/
def runProvider (probe : Option String) : State :=
  if job.status ≠ .pending then s.setStage cycle id .finished
  else match source, connectionOf s source with
  | .connection _, none => (s.modifyJob id PullJob.fail).setStage cycle id .finished
  | _, conn =>
    if (conn.map fun conn ↦ !conn.librariesConfirmed).getD false then
      (s.modifyJob id PullJob.fail).setStage cycle id .finished
    else if (conn.map fun conn ↦ conn.onboarding).getD false then
      let waiting := { JobStats.empty with importPending := true }
      (s.modifyJob id fun job ↦ { job with status := .completed, stats := waiting }).setStage
        cycle id .finished
    else s.setStage cycle id (.answered (s.accounts.checkProviderChanges source probe))

/-- A cancellation may have arrived during the network check. -/
def admitProvider (check : ChangeCheck) : State :=
  if job.status ≠ .pending then s.setStage cycle id .finished
  else if check.state = .unchanged then
    let stats := { JobStats.empty with unchanged := true, providerCheckpoint := check.checkpoint }
    (s.modifyJob id fun job ↦ { job with status := .completed, stats }).setStage cycle id .finished
  else s.setStage cycle id (.admitted check.checkpoint)

def startWorker (checkpoint : Option Checkpoint) : State :=
  if job.status = .pending then
    (s.modifyJob id fun job ↦ { job with status := .running }).setStage cycle id (.running checkpoint)
  else s.setStage cycle id (.returned checkpoint)

/-- How a provider worker ends. A first snapshot is kept and imports nothing; what it holds may
want a review. -/
inductive Outcome
  | pulled (errors itemErrors : ℕ) (warnings snapshotComplete : Bool)
  | reviewing (review : Bool)
  | failed
  | cancelled
  | raised

def finishWorker (checkpoint : Option Checkpoint) (outcome : Outcome) : State :=
  if ((connectionOf s source).map fun conn ↦ conn.onboarding).getD false then
    let waiting := { JobStats.empty with importPending := true }
    (s.modifyJob id fun job ↦ { job with status := .completed, stats := waiting }).setStage
      cycle id (.returned checkpoint)
  else match outcome with
  | .pulled errors itemErrors warnings snapshotComplete =>
    let stats := { JobStats.empty with errors := itemErrors, snapshotComplete }
    let s := s.modifyJob id fun job ↦ { job with status := .completed, errors, warnings, stats }
    let s := s.modifySource source fun conn ↦ { conn with stremioFullSyncDone := true }
    s.setStage { cycle with staged := ⟨source, checkpoint⟩ :: cycle.staged } id (.returned checkpoint)
  | .reviewing review =>
    let stats := { JobStats.empty with importPending := true, snapshotComplete := false }
    let s := s.modifyJob id fun job ↦ { job with status := .completed, stats }
    let s := s.modifySource source fun conn ↦ { conn with onboarding := conn.onboarding || review }
    s.setStage cycle id (.returned checkpoint)
  | .failed => (s.modifyJob id PullJob.fail).setStage cycle id (.returned checkpoint)
  | .cancelled =>
    (s.modifyJob id fun job ↦ { job with status := .cancelled }).setStage cycle id
      (.returned checkpoint)
  | .raised => (s.modifyJob id PullJob.abort).setStage cycle id .finished

/-- A complete pull without errors or warnings saves the checkpoint fetched before it. -/
def recordCheckpoint (checkpoint : Option Checkpoint) : State :=
  let s := if job.status = .completed ∧ checkpoint ≠ none ∧ job.errors = 0 ∧ job.warnings = false ∧
      job.stats.errors = 0 ∧ job.stats.snapshotComplete = true then
    s.modifyJob id fun job ↦ { job with stats :=
      if cycle.collecting then { job.stats with pendingCheckpoint := checkpoint }
      else { job.stats with providerCheckpoint := checkpoint } }
    else s
  s.setStage cycle id .finished

end provider

section cycle

variable (s : State)

/-- A step of one child of a cycle that is pulling. -/
def onChild (id : ℕ) (f : Cycle → Source → PullJob → State) : State :=
  match s.cycle with
  | none => s
  | some cycle =>
    if cycle.phase ≠ .pulling then s
    else match cycle.children.find? fun child ↦ decide (child.1 = id), s.accounts.jobs.get id with
    | some child, some job => f cycle child.2 job
    | _, _ => s

/-- The worker takes the cycle and captures the identities of the account's connections. -/
def beginCycle : State :=
  match s.cycle with
  | some cycle =>
    if cycle.phase = .queued then
      let versions i := (s.accounts.connections.get i).map Connection.identityVersion
      s.setCycle { cycle with phase := .pulling, versions }
    else s
  | none => s

def cancelChildren (cycle : Cycle) : State :=
  s.modifyJobs fun id job ↦
    if id ∈ cycle.children.map Prod.fst ∧ job.status.active then { job with status := .cancelled }
    else job

def requestCycleCancel : State :=
  match s.cycle with
  | some cycle =>
    if cycle.phase = .queued ∨ cycle.phase = .pulling then
      (cancelChildren s cycle).setCycle { cycle with cancelRequested := true }
    else s
  | none => s

/-- Every provider worker has returned: cancellation's window closes. -/
def closeWindow (raised : Bool) : State :=
  match s.cycle with
  | some cycle =>
    if cycle.phase = .pulling ∧ ∀ child ∈ cycle.children, cycle.stages child.1 = .finished then
      let phase : Phase := if cycle.cancelRequested then .leaving else .closed
      s.setCycle { cycle with phase, failed := cycle.failed || raised }
    else s
  | none => s

/-- A source whose connection is still the one the cycle began with. -/
def validSource (a : Accounts) (versions : ℕ → Option ℕ) : Source → Bool
  | .connection i => decide ((a.connections.get i).map Connection.identityVersion = versions i)
  | .cloud _ => true

def finalize : State :=
  match s.cycle with
  | some cycle =>
    if cycle.phase = .closed then
      let accepted := cycle.staged.filter fun pull ↦
        validSource s.accounts cycle.versions pull.source
      { s with
        reconciled := accepted ++ s.reconciled
        cycle := some { cycle with phase := .leaving, collecting := false, reconciled := true } }
    else s
  | none => s

/-- Something of the cycle itself raises: the open transaction is rolled back. -/
def failCycle : State :=
  match s.cycle with
  | some cycle =>
    if cycle.phase = .queued then s else s.setCycle { cycle with phase := .leaving, failed := true }
  | none => s

/-- The checkpoints of a child when its cycle ends. -/
def settleCheckpoint (reconciled strip : Bool) (stats : JobStats) : JobStats :=
  let saved := if reconciled then stats.pendingCheckpoint.or stats.providerCheckpoint
    else stats.providerCheckpoint
  { stats with pendingCheckpoint := none, providerCheckpoint := if strip then none else saved }

def endCycle : State :=
  match s.cycle with
  | some cycle =>
    if cycle.phase = .leaving then
      let children := cycle.children.map Prod.fst
      let s := s.modifyJobs fun id job ↦ if id ∈ children then job.abort else job
      let failed := cycle.failed || s.accounts.jobs.rows.any fun row ↦
        decide (row.1 ∈ children ∧ row.2.status = .failed)
      let s := s.modifyJobs fun id job ↦
        if id ∈ children then
          let stats := settleCheckpoint cycle.reconciled (failed && !cycle.reconciled) job.stats
          { job with stats }
        else job
      { s with cycle := none }
    else s
  | none => s

/-- The process dies, and the next start gives up every job it finds active. -/
def restart : State := { s.modifyJobs fun _ job ↦ job.abort with cycle := none }

end cycle

section accounts

variable (s : State)

def connect (conn : Connection) : State :=
  { s with accounts := { s.accounts with connections := s.accounts.connections.insert conn } }

def disconnect (id : ℕ) : State :=
  let connections := s.accounts.connections.eraseAt id
  { s with accounts := { s.accounts with connections } }

/-- The owner edits a connection without changing the account behind it; an import review that
comes to its end frees it. -/
def Connection.edit (edited conn : Connection) : Connection :=
  { edited with
    type := conn.type
    identityVersion := conn.identityVersion
    onboarding := conn.onboarding && edited.onboarding }

def editConnection (id : ℕ) (edited : Connection) : State := s.modifyConnection id edited.edit

def Connection.reset (account conn : Connection) : Connection :=
  { account with
    type := conn.type
    identityVersion := conn.identityVersion + 1
    stremioFullSyncDone := false
    onboarding := false }

def cancelPulls (id : ℕ) (job : PullJob) : PullJob :=
  if job.source = .connection id ∧ job.status = .pending then { job with status := .cancelled }
  else job

/-- A new account behind a connection waits for its running job and cancels its queued ones. -/
def resetStreamConnection (id : ℕ) (account : Connection) : State :=
  if s.accounts.jobs.rows.any fun row ↦
      decide (row.2.source = .connection id ∧ row.2.status = .running) then s
  else (s.modifyJobs fun _ ↦ cancelPulls id).modifyConnection id account.reset

def editCloud (provider : CloudProvider) (settings : CloudSettings) : State :=
  { s with accounts := { s.accounts with
      clouds := Function.update s.accounts.clouds provider settings } }

/-- A pull outside the account's cycles; it saves no checkpoint. -/
def otherPull (source : Source) : State :=
  if present s.accounts source then
    { s with accounts := { s.accounts with
        jobs := s.accounts.jobs.insert { pendingJob source with status := .running } } }
  else s

def settleOther (id : ℕ) (status : SyncStatus) : State :=
  if (s.cycle.map fun cycle ↦ decide (id ∈ cycle.children.map Prod.fst)).getD false then s
  else s.modifyJob id fun job ↦
    if job.status.active then { job with status, stats := JobStats.empty } else job

end accounts

inductive Step
  | queue (targets : List Source)
  | beginCycle
  | runProvider (id : ℕ) (probe : Option String)
  | admitProvider (id : ℕ)
  | startWorker (id : ℕ)
  | finishWorker (id : ℕ) (outcome : Outcome)
  | recordCheckpoint (id : ℕ)
  | cancel
  | closeWindow (raised : Bool)
  | finalize
  | failCycle
  | endCycle
  | restart
  | connect (conn : Connection)
  | disconnect (id : ℕ)
  | editConnection (id : ℕ) (edited : Connection)
  | resetStreamConnection (id : ℕ) (account : Connection)
  | editCloud (provider : CloudProvider) (settings : CloudSettings)
  | otherPull (source : Source)
  | settleOther (id : ℕ) (status : SyncStatus)

/-- One commit of a provider worker, of the cycle, or of the owner. -/
def step (s : State) : Step → State
  | .queue targets => queueAccountPull s targets
  | .beginCycle => beginCycle s
  | .runProvider id probe => onChild s id fun cycle source job ↦
      if cycle.stages id = .waiting then runProvider s cycle id source job probe else s
  | .admitProvider id => onChild s id fun cycle _ job ↦ match cycle.stages id with
      | .answered check => admitProvider s cycle id job check
      | _ => s
  | .startWorker id => onChild s id fun cycle _ job ↦ match cycle.stages id with
      | .admitted checkpoint => startWorker s cycle id job checkpoint
      | _ => s
  | .finishWorker id outcome => onChild s id fun cycle source _ ↦ match cycle.stages id with
      | .running checkpoint => finishWorker s cycle id source checkpoint outcome
      | _ => s
  | .recordCheckpoint id => onChild s id fun cycle _ job ↦ match cycle.stages id with
      | .returned checkpoint => recordCheckpoint s cycle id job checkpoint
      | _ => s
  | .cancel => requestCycleCancel s
  | .closeWindow raised => closeWindow s raised
  | .finalize => finalize s
  | .failCycle => failCycle s
  | .endCycle => endCycle s
  | .restart => restart s
  | .connect conn => connect s conn
  | .disconnect id => disconnect s id
  | .editConnection id edited => editConnection s id edited
  | .resetStreamConnection id account => resetStreamConnection s id account
  | .editCloud provider settings => editCloud s provider settings
  | .otherPull source => otherPull s source
  | .settleOther id status => settleOther s id status

def run (s : State) (steps : List Step) : State := steps.foldl step s

end AnyList.Cycles.ProviderChanges
