import AnyList.Cycles.AccountCycle

namespace AnyList.Cycles.AccountCycle

open Function

variable {π : Type} {s : State π}

/-- A trigger inside its transaction holds its account's lock, and once it has committed its
request is in the map until the cycle ends as cancelled. -/
def TriggerOk (userLock : Option Party) (stats : Stats π) (worker : Worker π) (i : ℕ) :
    Trigger π → Prop
  | .idle | .gone => True
  | .admitting => userLock = some (.trigger i)
  | .holding active => userLock = some (.trigger i) ∧
      (active.followupRequested = true → stats.followupRequested = true)
  | .coalesced => stats.followupRequested = true ∨ worker = .ended true

/-- A copy that the worker will write back under a lock is current as far as it matters. -/
def WorkerOk (userLock jobLock : Option Party) (stats : Stats π) : Worker π → Prop
  | .finalizing _ => userLock = some .worker
  | .ending _ _ parent => userLock = some .worker ∧ parent.delivery = stats.delivery
  | .closing parent => jobLock = some .worker ∧ parent = stats
  | .booking _ _ _ _ job => jobLock = some .worker ∧ job = stats
  | _ => True

def CancelOk (jobLock : Option Party) (stats : Stats π) (i : ℕ) : Cancel π → Prop
  | .holding parent => jobLock = some (.cancel i) ∧ parent = stats
  | _ => True

structure Consistent (s : State π) : Prop where
  triggers : ∀ i, TriggerOk s.userLock s.job.stats s.worker i (s.triggers i)
  worker : WorkerOk s.userLock s.jobLock s.job.stats s.worker
  cancels : ∀ i, CancelOk s.jobLock s.job.stats i (s.cancels i)
  advanced : s.job.stats.delivery = s.advanced

section frame

variable {userLock userLock' jobLock jobLock' : Option Party} {stats stats' : Stats π}
  {worker worker' : Worker π} {trigger : Trigger π} {cancel : Cancel π} {i : ℕ}

theorem TriggerOk.change (h : TriggerOk userLock stats worker i trigger)
    (hlock : userLock = some (.trigger i) → userLock' = some (.trigger i))
    (hstats : stats.followupRequested = true → stats'.followupRequested = true)
    (hworker : worker = .ended true → worker' = .ended true) :
    TriggerOk userLock' stats' worker' i trigger := by
  cases trigger with
  | idle => trivial
  | gone => trivial
  | admitting => exact hlock h
  | holding active => exact ⟨hlock h.1, fun hactive ↦ hstats (h.2 hactive)⟩
  | coalesced => exact h.imp hstats hworker

/-- A trigger outside its transaction depends on no lock. -/
theorem TriggerOk.unlocked (h : TriggerOk userLock stats worker i trigger)
    (hlock : userLock ≠ some (.trigger i))
    (hstats : stats.followupRequested = true → stats'.followupRequested = true)
    (hworker : worker = .ended true → worker' = .ended true) :
    TriggerOk userLock' stats' worker' i trigger :=
  h.change (fun heq ↦ absurd heq hlock) hstats hworker

theorem TriggerOk.ended (h : TriggerOk userLock stats worker i trigger)
    (hlock : userLock ≠ some (.trigger i)) :
    TriggerOk userLock' stats' (.ended true) i trigger := by
  cases trigger with
  | idle => trivial
  | gone => trivial
  | admitting => exact absurd h hlock
  | holding active => exact absurd h.1 hlock
  | coalesced => exact .inr rfl

theorem WorkerOk.change (h : WorkerOk userLock jobLock stats worker)
    (huser : userLock = some .worker → userLock' = some .worker)
    (hjob : jobLock = some .worker → jobLock' = some .worker ∧ stats' = stats)
    (hdelivery : stats'.delivery = stats.delivery) : WorkerOk userLock' jobLock' stats' worker := by
  cases worker with
  | finalizing => exact huser h
  | ending => exact ⟨huser h.1, h.2.trans hdelivery.symm⟩
  | closing => exact ⟨(hjob h.1).1, h.2.trans (hjob h.1).2.symm⟩
  | booking => exact ⟨(hjob h.1).1, h.2.trans (hjob h.1).2.symm⟩
  | _ => trivial

theorem CancelOk.change (h : CancelOk jobLock stats i cancel)
    (hjob : jobLock = some (.cancel i) → jobLock' = some (.cancel i) ∧ stats' = stats) :
    CancelOk jobLock' stats' i cancel := by
  cases cancel with
  | holding => exact ⟨(hjob h.1).1, h.2.trans (hjob h.1).2.symm⟩
  | _ => trivial

end frame

section triggers

variable {i : ℕ}

theorem consistent_lockRequest (h : Consistent s) (i : ℕ) : Consistent (lockRequest s i) := by
  unfold lockRequest
  split
  · rename_i hidle hfree
    refine ⟨forall_update_iff _ _ |>.mpr ⟨rfl, fun j _ ↦ ?_⟩, ?_, h.cancels, h.advanced⟩
    · exact (h.triggers j).unlocked (by simp [hfree]) (fun hf ↦ hf) (fun he ↦ he)
    · exact h.worker.change (by simp [hfree]) (fun hl ↦ ⟨hl, rfl⟩) rfl
  · exact h

/-- Dropping the account's lock at the end of a trigger's transaction. -/
theorem consistent_release (h : Consistent s) (hlock : s.userLock = some (.trigger i))
    {stats : Stats π} (hfree : s.jobLock = none ∨ stats = s.job.stats) {trigger : Trigger π}
    (hstats : s.job.stats.followupRequested = true → stats.followupRequested = true)
    (hdelivery : stats.delivery = s.job.stats.delivery)
    (htrigger : TriggerOk none stats s.worker i trigger) :
    Consistent { (s.writeStats stats).setTrigger i trigger with userLock := none } := by
  have hjob (party : Party) : s.jobLock = some party →
      s.jobLock = some party ∧ stats = s.job.stats := by
    intro hl
    exact ⟨hl, hfree.resolve_left (by simp [hl])⟩
  refine ⟨forall_update_iff _ _ |>.mpr ⟨htrigger, fun j hj ↦ ?_⟩, ?_, fun j ↦ ?_, ?_⟩
  · refine (h.triggers j).unlocked ?_ hstats fun he ↦ he
    simpa [hlock] using Ne.symm hj
  · exact h.worker.change (by simp [hlock]) (hjob .worker) hdelivery
  · exact (h.cancels j).change (hjob (.cancel j))
  · exact hdelivery.trans h.advanced

theorem consistent_findActive (h : Consistent s) (i : ℕ) : Consistent (findActive s i) := by
  unfold findActive
  split
  · rename_i hadmitting
    have hlock : s.userLock = some (.trigger i) := by simpa [hadmitting, TriggerOk] using h.triggers i
    split
    · exact ⟨forall_update_iff _ _ |>.mpr ⟨⟨hlock, fun hf ↦ hf⟩, fun j _ ↦ h.triggers j⟩,
        h.worker, h.cancels, h.advanced⟩
    · exact consistent_release h hlock (.inr rfl) (fun hf ↦ hf) rfl trivial
  · exact h

theorem consistent_abandon (h : Consistent s) (i : ℕ) : Consistent (abandon s i) := by
  unfold abandon
  split
  · rename_i hadmitting
    have hlock : s.userLock = some (.trigger i) := by simpa [hadmitting, TriggerOk] using h.triggers i
    exact consistent_release h hlock (.inr rfl) (fun hf ↦ hf) rfl trivial
  · rename_i active hholding
    have hok := h.triggers i
    rw [hholding] at hok
    exact consistent_release h hok.1 (.inr rfl) (fun hf ↦ hf) rfl trivial
  · exact h

/-- A request written back keeps the delivery exactly when its copy of it is current. -/
theorem consistent_requestFollowup (h : Consistent s)
    (hmeets : ∀ active, s.triggers i = .holding active → active.followupRequested = true ∨
      active.delivery = s.job.stats.delivery) : Consistent (requestFollowup s i) := by
  unfold requestFollowup
  split
  · rename_i active hholding hfree
    have hok := h.triggers i
    rw [hholding] at hok
    split
    · rename_i hfollowup
      exact consistent_release h hok.1 (.inr rfl) (fun hf ↦ hf) rfl (.inl (hok.2 hfollowup))
    · rename_i hfollowup
      have hdelivery := (hmeets active hholding).resolve_left hfollowup
      exact consistent_release h hok.1 (.inl hfree) (fun _ ↦ rfl) hdelivery (.inl rfl)
  · exact h

end triggers

section cancels

variable {i : ℕ}

theorem consistent_readForCancel (h : Consistent s) (i : ℕ) : Consistent (readForCancel s i) := by
  unfold readForCancel
  split
  · rename_i hidle hfree
    split
    · exact ⟨h.triggers, h.worker, forall_update_iff _ _ |>.mpr ⟨trivial, fun j _ ↦ h.cancels j⟩,
        h.advanced⟩
    · refine ⟨h.triggers, h.worker.change (fun hl ↦ hl) (by simp [hfree]) rfl,
        forall_update_iff _ _ |>.mpr ⟨⟨rfl, rfl⟩, fun j _ ↦ ?_⟩, h.advanced⟩
      exact (h.cancels j).change (by simp [hfree])
  · exact h

/-- The worker or a cancellation writes under the row lock a map that keeps the request. -/
theorem consistent_write (h : Consistent s) {party : Party} (hlock : s.jobLock = some party)
    (stats : Stats π) (worker : Worker π) (cancels : ℕ → Cancel π) (childCancelled : Bool)
    (advanced : Deliveries π)
    (hstats : s.job.stats.followupRequested = true → stats.followupRequested = true)
    (hworker : WorkerOk s.userLock none stats worker)
    (hended : s.worker = .ended true → worker = .ended true)
    (hcancels : ∀ j, cancels j = if party = .cancel j then .gone else s.cancels j)
    (hadvanced : stats.delivery = advanced) :
    Consistent { s.writeStats stats with
      worker, cancels, childCancelled, advanced, jobLock := none } := by
  refine ⟨fun j ↦ (h.triggers j).change (fun hl ↦ hl) hstats hended, hworker, fun j ↦ ?_, hadvanced⟩
  dsimp only
  rw [hcancels j]
  split
  · trivial
  · rename_i hparty
    refine (h.cancels j).change fun hl ↦ absurd ?_ hparty
    exact Option.some.inj (hlock.symm.trans hl)

theorem consistent_requestCycleCancel (h : Consistent s) (i : ℕ) (childActive : Bool) :
    Consistent (requestCycleCancel s i childActive) := by
  unfold requestCycleCancel
  split
  · rename_i parent hholding
    have hok := h.cancels i
    rw [hholding] at hok
    obtain ⟨hlock, rfl⟩ := hok
    refine consistent_write h hlock { s.job.stats with cancelRequested := true } s.worker _ _ _
      (fun hf ↦ hf) (h.worker.change (fun hl ↦ hl) (by simp [hlock]) rfl) (fun he ↦ he)
      (fun j ↦ ?_) h.advanced
    simp only [State.setCancel, State.writeStats, update_apply, Party.cancel.injEq, eq_comm]
  · exact h

end cancels

section worker

theorem consistent_markJobRunning (h : Consistent s) : Consistent (markJobRunning s) := by
  unfold markJobRunning
  split
  · rename_i hqueued
    split
    · refine ⟨fun j ↦ ?_, trivial, h.cancels, h.advanced⟩
      exact (h.triggers j).change (fun hl ↦ hl) (fun hf ↦ hf) (by simp [hqueued])
    · exact h
  · exact h

/-- The worker moves on without writing the map. -/
theorem consistent_move (h : Consistent s) {worker : Worker π} {userLock jobLock : Option Party}
    (hworker : WorkerOk userLock jobLock s.job.stats worker) (hended : s.worker ≠ .ended true)
    (huser : ∀ i, s.userLock = some (.trigger i) → userLock = some (.trigger i))
    (hjob : ∀ i, s.jobLock = some (.cancel i) → jobLock = some (.cancel i)) :
    Consistent { s with worker, userLock, jobLock } :=
  ⟨fun j ↦ (h.triggers j).change (huser j) (fun hf ↦ hf) fun he ↦ absurd he hended, hworker,
    fun j ↦ (h.cancels j).change fun hl ↦ ⟨hjob j hl, rfl⟩, h.advanced⟩

theorem consistent_lockParent (h : Consistent s) : Consistent (lockParent s) := by
  unfold lockParent
  split
  · rename_i hpulling hfree
    exact consistent_move h ⟨rfl, rfl⟩ (by simp [hpulling]) (fun _ hl ↦ hl) (by simp [hfree])
  · exact h

theorem consistent_closeWindow (h : Consistent s) : Consistent (closeWindow s) := by
  unfold closeWindow
  split
  · rename_i parent hclosing
    have hok := h.worker
    rw [hclosing] at hok
    obtain ⟨hlock, rfl⟩ := hok
    split
    · exact consistent_move h trivial (by simp [hclosing]) (fun _ hl ↦ hl) (by simp [hlock])
    · exact consistent_write h hlock { s.job.stats with reconciling := true } _ s.cancels _ _
        (fun hf ↦ hf) trivial (by simp [hclosing]) (fun _ ↦ rfl) h.advanced
  · exact h

theorem consistent_beginFinalize (h : Consistent s) : Consistent (beginFinalize s) := by
  unfold beginFinalize
  split
  · rename_i parent hclosed hfree
    exact consistent_move h rfl (by simp [hclosed]) (by simp [hfree]) (fun _ hl ↦ hl)
  · exact h

/-- Persisting the delivery keeps every request that the closing session already saw. -/
theorem consistent_persistDelivery (h : Consistent s) (payload : π) (targets : List String)
    (hmeets : ∀ parent, s.worker = .finalizing parent → s.job.stats.followupRequested = true →
      parent.followupRequested = true) : Consistent (persistDelivery s payload targets) := by
  unfold persistDelivery
  split
  · rename_i parent hfinalizing hfree
    have hlock : s.userLock = some .worker := by simpa [hfinalizing, WorkerOk] using h.worker
    refine ⟨fun j ↦ ?_, trivial, fun j ↦ (h.cancels j).change (by simp [hfree]), rfl⟩
    exact (h.triggers j).unlocked (by simp [hlock]) (hmeets parent hfinalizing)
      (by simp [hfinalizing])
  · exact h

theorem consistent_deliverCycle (h : Consistent s) : Consistent (deliverCycle s) := by
  unfold deliverCycle
  split
  · rename_i hhanding
    dsimp only
    split
    · exact consistent_move h trivial (by simp [hhanding]) (fun _ hl ↦ hl) (fun _ hl ↦ hl)
    · exact consistent_move h trivial (by simp [hhanding]) (fun _ hl ↦ hl) (fun _ hl ↦ hl)
  · exact h

theorem consistent_deliverTarget (h : Consistent s) (delivered : Bool) :
    Consistent (deliverTarget s delivered) := by
  unfold deliverTarget
  split
  · rename_i hdelivering
    exact consistent_move h trivial (by simp [hdelivering]) (fun _ hl ↦ hl) (fun _ hl ↦ hl)
  · rename_i hdelivering
    split
    · exact consistent_move h trivial (by simp [hdelivering]) (fun _ hl ↦ hl) (fun _ hl ↦ hl)
    · split
      · exact consistent_move h trivial (by simp [hdelivering]) (fun _ hl ↦ hl) (fun _ hl ↦ hl)
      · split
        · rename_i hfree
          exact consistent_move h ⟨rfl, rfl⟩ (by simp [hdelivering]) (fun _ hl ↦ hl)
            (by simp [hfree])
        · exact h
  · exact h

@[simp] theorem followupRequested_bookTarget (targets : List String) (target : String)
    (job : Stats π) : (bookTarget targets target job).followupRequested = job.followupRequested := by
  unfold bookTarget
  split <;> rfl

theorem consistent_saveTarget (h : Consistent s) : Consistent (saveTarget s) := by
  unfold saveTarget
  split
  · rename_i targets target remaining failed job hbooking
    have hok := h.worker
    rw [hbooking] at hok
    obtain ⟨hlock, rfl⟩ := hok
    exact consistent_write h hlock _ _ s.cancels _ _ (by simp) trivial (by simp [hbooking])
      (fun _ ↦ rfl) rfl
  · exact h

theorem consistent_fail (h : Consistent s) : Consistent (fail s) := by
  unfold fail
  have hok := h.worker
  split
  all_goals rename_i hworker
  · exact consistent_move h trivial (by simp [hworker]) (fun _ hl ↦ hl) (fun _ hl ↦ hl)
  · exact consistent_move h trivial (by simp [hworker]) (fun _ hl ↦ hl) (fun _ hl ↦ hl)
  · exact consistent_move h trivial (by simp [hworker]) (fun _ hl ↦ hl) (fun _ hl ↦ hl)
  · rw [hworker] at hok
    exact consistent_move h trivial (by simp [hworker]) (fun _ hl ↦ hl) (by simp [hok.1])
  · have hlock : s.userLock = some .worker := by simpa [hworker, WorkerOk] using hok
    exact consistent_move h trivial (by simp [hworker]) (by simp [hlock]) (fun _ hl ↦ hl)
  · rw [hworker] at hok
    exact consistent_move h trivial (by simp [hworker]) (fun _ hl ↦ hl) (by simp [hok.1])
  · exact h

theorem consistent_lockAccount (h : Consistent s) (childFailed : Bool) :
    Consistent (lockAccount s childFailed) := by
  unfold lockAccount
  split
  · rename_i failed hleaving hfree
    exact consistent_move h ⟨rfl, rfl⟩ (by simp [hleaving]) (by simp [hfree]) (fun _ hl ↦ hl)
  · exact h

/-- The end of a cycle gives a request up only with the whole cycle. -/
theorem consistent_endCycle (h : Consistent s) : Consistent (endCycle s) := by
  unfold endCycle
  split
  · rename_i failed cancelled parent hending hfree
    have hok := h.worker
    rw [hending] at hok
    have hcancels (stats : Stats π) : ∀ j, CancelOk s.jobLock stats j (s.cancels j) :=
      fun j ↦ (h.cancels j).change (by simp [hfree])
    have hunlocked (j : ℕ) : s.userLock ≠ some (.trigger j) := by simp [hok.1]
    cases cancelled with
    | true =>
      refine ⟨fun j ↦ (h.triggers j).ended (hunlocked j), trivial, hcancels _, ?_⟩
      dsimp only
      split
      · exact hok.2.trans h.advanced
      · exact h.advanced
    | false =>
      refine ⟨fun j ↦ ?_, trivial, hcancels _, h.advanced⟩
      exact (h.triggers j).unlocked (hunlocked j) (fun hf ↦ hf) (by simp [hending])
  · exact h

end worker

/-- A request must not write an older delivery back, and persisting the delivery must not write
an older copy back that lacks a request. -/
def Meets (s : State π) : Action π → Prop
  | .requestFollowup i => ∀ active, s.triggers i = .holding active →
      active.followupRequested = true ∨ active.delivery = s.job.stats.delivery
  | .persistDelivery _ _ => ∀ parent, s.worker = .finalizing parent →
      s.job.stats.followupRequested = true → parent.followupRequested = true
  | _ => True

def AllMeet (s : State π) : List (Action π) → Prop
  | [] => True
  | action :: actions => Meets s action ∧ AllMeet (step s action) actions

theorem consistent_step {action : Action π} (h : Consistent s) (hmeets : Meets s action) :
    Consistent (step s action) := by
  cases action with
  | lockRequest i => exact consistent_lockRequest h i
  | findActive i => exact consistent_findActive h i
  | requestFollowup i => exact consistent_requestFollowup h hmeets
  | abandon i => exact consistent_abandon h i
  | readForCancel i => exact consistent_readForCancel h i
  | requestCycleCancel i childActive => exact consistent_requestCycleCancel h i childActive
  | markJobRunning => exact consistent_markJobRunning h
  | lockParent => exact consistent_lockParent h
  | closeWindow => exact consistent_closeWindow h
  | beginFinalize => exact consistent_beginFinalize h
  | persistDelivery payload targets => exact consistent_persistDelivery h payload targets hmeets
  | deliverCycle => exact consistent_deliverCycle h
  | deliverTarget delivered => exact consistent_deliverTarget h delivered
  | saveTarget => exact consistent_saveTarget h
  | fail => exact consistent_fail h
  | lockAccount childFailed => exact consistent_lockAccount h childFailed
  | endCycle => exact consistent_endCycle h

theorem consistent_run (actions : List (Action π)) (h : Consistent s) (hall : AllMeet s actions) :
    Consistent (run s actions) := by
  induction actions generalizing s with
  | nil => exact h
  | cons action actions ih => exact ih (consistent_step h hall.1) hall.2

theorem consistent_queuedCycle (childJobIds : List ℕ) (automatic : Bool) :
    Consistent (queuedCycle childJobIds automatic : State π) :=
  ⟨fun _ ↦ trivial, trivial, fun _ ↦ trivial, rfl⟩

/-- In every interleaving whose writes meet their conditions, a request that found the cycle active
is still in the map when the cycle ends without cancellation, and the delivery bookkeeping is
always as the worker last left it. -/
theorem requests_survive_the_cycle (childJobIds : List ℕ) (automatic : Bool)
    (actions : List (Action π)) (h : AllMeet (queuedCycle childJobIds automatic) actions) :
    (∀ i, (run (queuedCycle childJobIds automatic) actions).triggers i = .coalesced →
      (run (queuedCycle childJobIds automatic) actions).worker = .ended false →
        (run (queuedCycle childJobIds automatic) actions).job.stats.followupRequested = true) ∧
    (run (queuedCycle childJobIds automatic) actions).job.stats.delivery =
      (run (queuedCycle childJobIds automatic) actions).advanced := by
  have hrun := consistent_run actions (consistent_queuedCycle childJobIds automatic) h
  refine ⟨fun i hcoalesced hended ↦ ?_, hrun.advanced⟩
  have hok := hrun.triggers i
  rw [hcoalesced, hended] at hok
  exact hok.resolve_right (by simp)

section examples

def request : List (Action Unit) := [.lockRequest 0, .findActive 0, .requestFollowup 0]

def deliverQueues : List (Action Unit) :=
  [.persistDelivery () ["queues"], .deliverCycle, .deliverTarget true, .saveTarget]

def finish : List (Action Unit) := [.deliverTarget true, .lockAccount false, .endCycle]

theorem requests_survive_the_cycle_pulling :
    (run (queuedCycle [2] false) ([.markJobRunning] ++ request ++ [.lockParent, .closeWindow,
      .beginFinalize] ++ deliverQueues ++ finish)).job.stats.followupRequested = true := by
  refine (requests_survive_the_cycle [2] false _ ?_).1 0 (by decide +kernel) (by decide +kernel)
  refine ⟨trivial, trivial, trivial, ?_, trivial, trivial, trivial, ?_, trivial, trivial, trivial,
    trivial, trivial, trivial, trivial⟩
  · rintro active ⟨⟩
    exact .inr rfl
  · rintro parent ⟨⟩ -
    rfl

def lost : State Unit :=
  run (queuedCycle [2] false) ([.markJobRunning, .lockParent, .closeWindow] ++ request ++
    [.beginFinalize] ++ deliverQueues ++ finish)

def restored : State Unit :=
  run (queuedCycle [2] false) [.markJobRunning, .lockParent, .closeWindow, .beginFinalize,
    .persistDelivery () ["queues"], .deliverCycle, .lockRequest 0, .findActive 0, .deliverTarget true,
    .saveTarget, .requestFollowup 0]

/-- A request that commits between the closing of the window and the persisting of the delivery is
gone at the end, and one that read the job before the last target was booked brings the finished
delivery back. -/
theorem request_lost_and_delivery_restored :
    (lost.triggers 0 = .coalesced ∧ lost.worker = .ended false ∧
      lost.job.stats.followupRequested = false) ∧
    restored.advanced = .none ∧ restored.job.stats.delivery.payload = some () := by
  decide +kernel

end examples

end AnyList.Cycles.AccountCycle
