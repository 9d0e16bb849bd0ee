import Mathlib.Data.Finset.Basic
import Mathlib.Logic.Function.Basic

namespace AnyList.Cycles.AccountCycle

variable {π : Type}

inductive SyncStatus
  | pending
  | running
  | completed
  | failed
  | cancelled
  deriving DecidableEq

def SyncStatus.active (status : SyncStatus) : Bool :=
  decide (status = .pending ∨ status = .running)

/-- The keys that the delivery of a reconciled cycle writes into its job. -/
structure Deliveries (π : Type) where
  payload : Option π
  pending : Bool
  targets : Option (List String)
  done : Option (Finset String)
  deriving DecidableEq

def Deliveries.none : Deliveries π := ⟨.none, false, .none, .none⟩

structure Stats (π : Type) where
  childJobIds : List ℕ
  automatic : Bool
  followupRequested : Bool
  cancelRequested : Bool
  reconciling : Bool
  reconciled : Bool
  delivery : Deliveries π
  deriving DecidableEq

structure Job (π : Type) where
  status : SyncStatus
  stats : Stats π

/-- Who holds a row lock: the worker of the cycle, a trigger, or a cancellation. -/
inductive Party
  | worker
  | trigger (i : ℕ)
  | cancel (i : ℕ)
  deriving DecidableEq

/-- Where the worker of a cycle is, with the copies of the job that its sessions hold. -/
inductive Worker (π : Type)
  | queued
  | pulling
  | closing (parent : Stats π)
  | closed (parent : Stats π)
  | finalizing (parent : Stats π)
  | handing
  | delivering (targets remaining : List String) (done : Finset String) (failed : Bool)
  | booking (targets : List String) (target : String) (remaining : List String) (failed : Bool)
      (job : Stats π)
  | leaving (failed : Bool)
  | ending (failed cancelled : Bool) (parent : Stats π)
  | ended (cancelled : Bool)
  deriving DecidableEq

inductive Trigger (π : Type)
  | idle
  | admitting
  | holding (active : Stats π)
  | coalesced
  | gone
  deriving DecidableEq

inductive Cancel (π : Type)
  | idle
  | holding (parent : Stats π)
  | gone

/-- `advanced` is the delivery bookkeeping as the worker itself last left it. -/
structure State (π : Type) where
  job : Job π
  userLock : Option Party
  jobLock : Option Party
  worker : Worker π
  triggers : ℕ → Trigger π
  cancels : ℕ → Cancel π
  childCancelled : Bool
  advanced : Deliveries π

namespace State

def setTrigger (s : State π) (i : ℕ) (trigger : Trigger π) : State π :=
  { s with triggers := Function.update s.triggers i trigger }

def setCancel (s : State π) (i : ℕ) (cancel : Cancel π) : State π :=
  { s with cancels := Function.update s.cancels i cancel }

def writeStats (s : State π) (stats : Stats π) : State π :=
  { s with job := { s.job with stats } }

end State

/-- A queued cycle. -/
def queuedCycle (childJobIds : List ℕ) (automatic : Bool) : State π where
  job := ⟨.pending, ⟨childJobIds, automatic, false, false, false, false, .none⟩⟩
  userLock := none
  jobLock := none
  worker := .queued
  triggers _ := .idle
  cancels _ := .idle
  childCancelled := false
  advanced := .none

section triggers

/-- A trigger takes the lock of its account. -/
def lockRequest (s : State π) (i : ℕ) : State π :=
  match s.triggers i, s.userLock with
  | .idle, none => { s.setTrigger i .admitting with userLock := some (.trigger i) }
  | _, _ => s

/-- It reads the active cycle, without a lock on the row. -/
def findActive (s : State π) (i : ℕ) : State π :=
  match s.triggers i with
  | .admitting =>
    if s.job.status.active then s.setTrigger i (.holding s.job.stats)
    else { s.setTrigger i .gone with userLock := none }
  | _ => s

/-- It writes its copy of the map back with the request. A copy that already has it is not written,
and a row that another transaction has locked is waited for. -/
def requestFollowup (s : State π) (i : ℕ) : State π :=
  match s.triggers i, s.jobLock with
  | .holding active, none =>
    let s := if active.followupRequested then s
      else s.writeStats { active with followupRequested := true }
    { s.setTrigger i .coalesced with userLock := none }
  | _, _ => s

def abandon (s : State π) (i : ℕ) : State π :=
  match s.triggers i with
  | .admitting | .holding _ => { s.setTrigger i .gone with userLock := none }
  | _ => s

end triggers

section cancels

def readForCancel (s : State π) (i : ℕ) : State π :=
  match s.cancels i, s.jobLock with
  | .idle, none =>
    if s.job.stats.reconciling || !s.job.status.active then s.setCancel i .gone
    else { s.setCancel i (.holding s.job.stats) with jobLock := some (.cancel i) }
  | _, _ => s

/-- `childActive` says whether a provider job of the cycle had not finished yet. -/
def requestCycleCancel (s : State π) (i : ℕ) (childActive : Bool) : State π :=
  match s.cancels i with
  | .holding parent =>
    { (s.writeStats { parent with cancelRequested := true }).setCancel i .gone with
      jobLock := none
      childCancelled := s.childCancelled || childActive }
  | _ => s

end cancels

section worker

def markJobRunning (s : State π) : State π :=
  match s.worker with
  | .queued =>
    if s.job.status = .pending then
      { s with job := { s.job with status := .running }, worker := .pulling }
    else s
  | _ => s

/-- The row lock on which cancellation and closing its window serialise. -/
def lockParent (s : State π) : State π :=
  match s.worker, s.jobLock with
  | .pulling, none => { s with worker := .closing s.job.stats, jobLock := some .worker }
  | _, _ => s

def closeWindow (s : State π) : State π :=
  match s.worker with
  | .closing parent =>
    if parent.cancelRequested then { s with worker := .leaving false, jobLock := none }
    else
      let parent := { parent with reconciling := true }
      { s.writeStats parent with worker := .closed parent, jobLock := none }
  | _ => s

/-- Finalising begins under the account's lock, in the session that closed the window. -/
def beginFinalize (s : State π) : State π :=
  match s.worker, s.userLock with
  | .closed parent, none => { s with worker := .finalizing parent, userLock := some .worker }
  | _, _ => s

/-- The accepted delivery is written beside the session's own copy of the map. -/
def persistDelivery (s : State π) (payload : π) (targets : List String) : State π :=
  match s.worker, s.jobLock with
  | .finalizing parent, none =>
    let delivery : Deliveries π := ⟨some payload, true, some targets, some ∅⟩
    { s.writeStats { parent with reconciled := true, delivery } with
      worker := .handing, userLock := none, advanced := delivery }
  | _, _ => s

def deliverCycle (s : State π) : State π :=
  match s.worker with
  | .handing =>
    let delivery := s.job.stats.delivery
    let targets := delivery.targets.getD []
    if delivery.pending then
      { s with worker := .delivering targets targets (delivery.done.getD ∅) false }
    else { s with worker := .leaving false }
  | _ => s

/-- The next target is done already, fails, or was handed over and is about to be booked. -/
def deliverTarget (s : State π) (delivered : Bool) : State π :=
  match s.worker with
  | .delivering _ [] _ failed => { s with worker := .leaving failed }
  | .delivering targets (target :: remaining) done failed =>
    if target ∈ done then { s with worker := .delivering targets remaining done failed }
    else if !delivered then { s with worker := .delivering targets remaining done true }
    else match s.jobLock with
      | none =>
        let worker := .booking targets target remaining failed s.job.stats
        { s with worker, jobLock := some .worker }
      | some _ => s
  | _ => s

def bookedTargets (target : String) (job : Stats π) : Finset String :=
  insert target (job.delivery.done.getD ∅)

/-- Book a target, and drop the delivery when it was the last. -/
def bookTarget (targets : List String) (target : String) (job : Stats π) : Stats π :=
  if ∀ t ∈ targets, t ∈ bookedTargets target job then { job with delivery := .none }
  else { job with delivery := { job.delivery with done := some (bookedTargets target job) } }

def saveTarget (s : State π) : State π :=
  match s.worker with
  | .booking targets target remaining failed job =>
    let stats := bookTarget targets target job
    { s.writeStats stats with
      worker := .delivering targets remaining (bookedTargets target job) failed
      jobLock := none
      advanced := stats.delivery }
  | _ => s

/-- Something of the worker's current part raises: its transaction is rolled back. -/
def fail (s : State π) : State π :=
  match s.worker with
  | .pulling | .closed _ | .handing => { s with worker := .leaving true }
  | .closing _ => { s with worker := .leaving true, jobLock := none }
  | .finalizing _ => { s with worker := .leaving true, userLock := none }
  | .booking targets target remaining _ job =>
    let worker := .delivering targets remaining (bookedTargets target job) true
    { s with worker, jobLock := none }
  | _ => s

def lockAccount (s : State π) (childFailed : Bool) : State π :=
  match s.worker, s.userLock with
  | .leaving failed, none =>
    let cancelled := s.job.stats.cancelRequested || s.childCancelled
    { s with
      worker := .ending (failed || childFailed) cancelled s.job.stats
      userLock := some .worker }
  | _, _ => s

def endCycle (s : State π) : State π :=
  match s.worker, s.jobLock with
  | .ending failed cancelled parent, none =>
    let stats := if cancelled && parent.followupRequested then
      { parent with followupRequested := false } else s.job.stats
    let status : SyncStatus :=
      if cancelled then .cancelled else if failed then .failed else .completed
    { s with job := ⟨status, stats⟩, worker := .ended cancelled, userLock := none }
  | _, _ => s

end worker

inductive Action (π : Type)
  | lockRequest (i : ℕ)
  | findActive (i : ℕ)
  | requestFollowup (i : ℕ)
  | abandon (i : ℕ)
  | readForCancel (i : ℕ)
  | requestCycleCancel (i : ℕ) (childActive : Bool)
  | markJobRunning
  | lockParent
  | closeWindow
  | beginFinalize
  | persistDelivery (payload : π) (targets : List String)
  | deliverCycle
  | deliverTarget (delivered : Bool)
  | saveTarget
  | fail
  | lockAccount (childFailed : Bool)
  | endCycle

def step (s : State π) : Action π → State π
  | .lockRequest i => lockRequest s i
  | .findActive i => findActive s i
  | .requestFollowup i => requestFollowup s i
  | .abandon i => abandon s i
  | .readForCancel i => readForCancel s i
  | .requestCycleCancel i childActive => requestCycleCancel s i childActive
  | .markJobRunning => markJobRunning s
  | .lockParent => lockParent s
  | .closeWindow => closeWindow s
  | .beginFinalize => beginFinalize s
  | .persistDelivery payload targets => persistDelivery s payload targets
  | .deliverCycle => deliverCycle s
  | .deliverTarget delivered => deliverTarget s delivered
  | .saveTarget => saveTarget s
  | .fail => fail s
  | .lockAccount childFailed => lockAccount s childFailed
  | .endCycle => endCycle s

def run (s : State π) (actions : List (Action π)) : State π := actions.foldl step s

end AnyList.Cycles.AccountCycle
