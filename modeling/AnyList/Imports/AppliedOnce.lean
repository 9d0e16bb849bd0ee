import AnyList.Imports.CommitProtocol
import AnyList.Library.Runs

namespace AnyList.Imports

open AnyList.Library

variable {α δ : Type}

def Row.phase (row : Row α) : Phase α :=
  match row.status with
  | .review => .review row.revision row.items
  | .committing => .accepted row.items
  | .committed => .applied
  | _ => .closed

/-- A worker that applies holds the lock of a committing row, and one that gave up finds the row
committing or cancelled. -/
def StageOk (lock : Option Holder) (status : Status) : Stage → Prop
  | .applying | .checked => lock = some .worker ∧ status = .committing
  | .raised _ | .marking _ => status = .committing ∨ status = .cancelled
  | .queued | .pulling => True

def Closing (status : Status) : Prop := status = .committing ∨ status = .cancelled

structure Inv (apply : List α → δ → δ) (revision₀ : Int) (items₀ : List α) (personal₀ : δ)
    (s : System α δ) : Prop where
  idle : s.committing = false → s.workers = []
  single : s.workers.length ≤ 1
  stages : ∀ worker ∈ s.workers, StageOk s.lock s.row.status worker.stage
  cancelHolds : s.lock = some .cancel → s.row.status ≠ .committed
  history : History revision₀ items₀ s.log s.row.phase
  personal : s.personal = (applications s.log).foldl (fun d items ↦ apply items d) personal₀

namespace Inv

variable {apply : List α → δ → δ} {revision₀ : Int} {items₀ : List α} {personal₀ : δ}
variable {s s' : System α δ} {index : Nat} {worker : Worker} {stage : Stage}

theorem workers_eq (h : Inv apply revision₀ items₀ personal₀ s)
    (hworker : s.workers[index]? = some worker) : index = 0 ∧ s.workers = [worker] := by
  have hsingle := h.single
  match hworkers : s.workers, index with
  | [], _ => simp [hworkers] at hworker
  | [other], 0 => simpa [hworkers] using hworker
  | [other], index + 1 => simp [hworkers] at hworker
  | _ :: _ :: rest, _ =>
    rw [hworkers, List.length_cons, List.length_cons] at hsingle
    omega

/-- Nothing but the process's flags, its requests and the clock changes. -/
theorem frame (h : Inv apply revision₀ items₀ personal₀ s) (hrow : s'.row = s.row)
    (hpersonal : s'.personal = s.personal) (hlog : s'.log = s.log)
    (hworkers : s'.workers = s.workers) (hcommitting : s'.committing = s.committing)
    (hlock : s'.lock = s.lock) : Inv apply revision₀ items₀ personal₀ s' where
  idle := by
    rw [hcommitting, hworkers]
    exact h.idle
  single := by
    rw [hworkers]
    exact h.single
  stages := by
    rw [hworkers, hlock, hrow]
    exact h.stages
  cancelHolds := by
    rw [hlock, hrow]
    exact h.cancelHolds
  history := by
    rw [hlog, hrow]
    exact h.history
  personal := by
    rw [hpersonal, hlog]
    exact h.personal

theorem personal_append (h : Inv apply revision₀ items₀ personal₀ s) {event : Event α}
    (hevent : event.application = none) : s.personal =
      (applications (s.log ++ [event])).foldl (fun d items ↦ apply items d) personal₀ := by
  rw [applications_append, hevent, h.personal]
  simp

/-- A write of the row while no worker holds its lock. -/
theorem write (h : Inv apply revision₀ items₀ personal₀ s) {event : Event α}
    (hfree : s.lock ≠ some .worker) (hlock : s'.lock = none) (hworkers : s'.workers = s.workers)
    (hcommitting : s'.committing = s.committing) (hpersonal : s'.personal = s.personal)
    (hclosing : Closing s.row.status → Closing s'.row.status)
    (hlog : s'.log = s.log ++ [event]) (hevent : event.application = none)
    (hhistory : History revision₀ items₀ (s.log ++ [event]) s'.row.phase) :
    Inv apply revision₀ items₀ personal₀ s' where
  idle := by
    rw [hcommitting, hworkers]
    exact h.idle
  single := by
    rw [hworkers]
    exact h.single
  stages := by
    rw [hworkers]
    intro worker hmem
    have hstage := h.stages worker hmem
    match hcase : worker.stage with
    | .applying | .checked =>
      rw [hcase] at hstage
      exact absurd hstage.1 hfree
    | .raised _ | .marking _ =>
      rw [hcase] at hstage
      exact hclosing hstage
    | .queued | .pulling => trivial
  cancelHolds := by simp [hlock]
  history := by
    rw [hlog]
    exact hhistory
  personal := by
    rw [hpersonal, hlog]
    exact h.personal_append hevent

/-- The worker goes on to another stage, and takes or gives back the lock. -/
theorem setStage (h : Inv apply revision₀ items₀ personal₀ s) (lock : Option Holder)
    (hworker : s.workers[index]? = some worker) (hstage : StageOk lock s.row.status stage)
    (hlock : lock = some .cancel → s.row.status ≠ .committed) :
    Inv apply revision₀ items₀ personal₀ { s.setStage index worker stage with lock := lock } := by
  obtain ⟨rfl, hworkers⟩ := h.workers_eq hworker
  refine ⟨fun hidle ↦ ?_, ?_, ?_, hlock, h.history, h.personal⟩
  · have hnone := h.idle hidle
    simp [hworkers] at hnone
  · simp [System.setStage, hworkers]
  · simpa [System.setStage, hworkers] using hstage

theorem of_idle (hworkers : s'.workers = [])
    (hcancel : s'.lock = some .cancel → s'.row.status ≠ .committed)
    (hhistory : History revision₀ items₀ s'.log s'.row.phase)
    (hpersonal : s'.personal =
      (applications s'.log).foldl (fun d items ↦ apply items d) personal₀) :
    Inv apply revision₀ items₀ personal₀ s' where
  idle _ := hworkers
  single := by simp [hworkers]
  stages := by simp [hworkers]
  cancelHolds := hcancel
  history := hhistory
  personal := hpersonal

theorem workers_finish (h : Inv apply revision₀ items₀ personal₀ s)
    (hworker : s.workers[index]? = some worker) : (s.finish index).workers = [] := by
  obtain ⟨rfl, hworkers⟩ := h.workers_eq hworker
  simp [System.finish, hworkers]

theorem finish (h : Inv apply revision₀ items₀ personal₀ s)
    (hworker : s.workers[index]? = some worker) :
    Inv apply revision₀ items₀ personal₀ (s.finish index) :=
  of_idle (h.workers_finish hworker) h.cancelHolds h.history h.personal

theorem phase_ne_applied (hstatus : s.row.status ≠ .committed) : s.row.phase ≠ .applied := by
  unfold Row.phase
  cases hcase : s.row.status <;> simp_all

section requests

theorem expire (h : Inv apply revision₀ items₀ personal₀ s) (hlock : s.lock = none)
    (hstatus : s.row.status ≠ .committed) : Inv apply revision₀ items₀ personal₀ s.expire :=
  h.write (by simp [hlock]) hlock rfl rfl rfl (fun _ ↦ .inr rfl) rfl rfl
    (.close h.history (phase_ne_applied hstatus) trivial)

theorem loadOwned (h : Inv apply revision₀ items₀ personal₀ s) {lock available : Bool}
    (hfound : (lock = true → s.lock = none) → Inv apply revision₀ items₀ personal₀ s') :
    Inv apply revision₀ items₀ personal₀ (s.loadOwned lock available s') := by
  unfold System.loadOwned
  split
  · next hexpired =>
    split
    · exact h
    · next hfree =>
      exact h.expire (by simpa using hfree) (of_decide_eq_true hexpired).2
  · split
    · exact h
    · next hfree =>
      split
      · exact h
      · exact hfound fun hlock ↦ by simpa [hlock] using hfree

theorem commitRequest (h : Inv apply revision₀ items₀ personal₀ s) (hlock : s.lock = none)
    (strip : String → String) (key : Option String) (revision : Int) (keyUsed : Bool) :
    Inv apply revision₀ items₀ personal₀ (s.commitRequest strip key revision keyUsed) := by
  unfold System.commitRequest
  split
  · exact h
  · split
    · split
      · exact h.frame rfl rfl rfl rfl rfl rfl
      · exact h
    · split
      · exact h
      · next hreview =>
        simp only [ne_eq, not_or, not_not] at hreview
        have hhistory := h.history
        rw [Row.phase, hreview.1] at hhistory
        exact h.write (by simp [hlock]) hlock rfl rfl rfl (fun _ ↦ .inl rfl) rfl rfl
          (.accept hhistory)

theorem edit (h : Inv apply revision₀ items₀ personal₀ s) (hlock : s.lock = none) (revision : Int)
    (patch : List α → Option (List α)) :
    Inv apply revision₀ items₀ personal₀ (s.edit revision patch) := by
  unfold System.edit
  split
  · exact h
  · next hreview =>
    simp only [ne_eq, not_or, not_not] at hreview
    split
    · exact h
    · have hhistory := h.history
      rw [Row.phase, hreview.1] at hhistory
      refine h.write (by simp [hlock]) hlock rfl rfl rfl (by simp [Closing, hreview.1]) rfl rfl ?_
      rw [Row.phase]
      simp only [hreview.1]
      exact .edit hhistory

theorem cancelLock (h : Inv apply revision₀ items₀ personal₀ s) (hlock : s.lock = none) :
    Inv apply revision₀ items₀ personal₀ s.cancelLock := by
  unfold System.cancelLock
  split
  · exact h.frame rfl rfl rfl rfl rfl rfl
  · next hcommitted =>
    split
    · exact h
    · refine ⟨h.idle, h.single, fun worker hmem ↦ ?_, fun _ ↦ hcommitted, h.history, h.personal⟩
      have hstage := h.stages worker hmem
      match hcase : worker.stage with
      | .applying | .checked => simp [hcase, StageOk, hlock] at hstage
      | .raised _ | .marking _ => simpa [hcase, StageOk] using hstage
      | .queued | .pulling => trivial

theorem cancelCommit (h : Inv apply revision₀ items₀ personal₀ s) (hlock : s.lock = some .cancel) :
    Inv apply revision₀ items₀ personal₀ s.cancelCommit :=
  h.write (by simp [hlock]) rfl rfl rfl rfl (fun _ ↦ .inr rfl) rfl rfl
    (.close h.history (phase_ne_applied (h.cancelHolds hlock)) trivial)

theorem cancelAbort (h : Inv apply revision₀ items₀ personal₀ s) (hlock : s.lock = some .cancel) :
    Inv apply revision₀ items₀ personal₀ { s with lock := none } := by
  refine ⟨h.idle, h.single, fun worker hmem ↦ ?_, by simp, h.history, h.personal⟩
  have hstage := h.stages worker hmem
  match hcase : worker.stage with
  | .applying | .checked => simp [hcase, StageOk, hlock] at hstage
  | .raised _ | .marking _ => simpa [hcase, StageOk] using hstage
  | .queued | .pulling => trivial

theorem cleanup (h : Inv apply revision₀ items₀ personal₀ s) :
    Inv apply revision₀ items₀ personal₀ s.cleanup := by
  unfold System.cleanup
  split
  · next hexpired =>
    obtain ⟨-, hstatus, -, hlock⟩ := hexpired
    exact h.write (by simp [hlock]) hlock rfl rfl rfl (fun _ ↦ .inr rfl) rfl rfl
      (.close h.history (phase_ne_applied hstatus) trivial)
  · exact h

theorem scheduleCommit (h : Inv apply revision₀ items₀ personal₀ s) (key : String) :
    Inv apply revision₀ items₀ personal₀ (s.scheduleCommit key) := by
  unfold System.scheduleCommit
  split
  · next hidle =>
    have hworkers := h.idle hidle.2
    refine ⟨by simp, by simp [hworkers], ?_, h.cancelHolds, h.history, h.personal⟩
    simp [hworkers, StageOk]
  · exact h

end requests

section worker

theorem handle (h : Inv apply revision₀ items₀ personal₀ s)
    (hworker : s.workers[index]? = some worker) (hlock : s.lock = none) (failure : Failure) :
    Inv apply revision₀ items₀ personal₀ (s.handle index failure) := by
  have hcancel : s.lock ≠ some .cancel := by simp [hlock]
  unfold System.handle
  split
  · exact h.finish hworker
  · next hcommitting =>
    rw [not_not] at hcommitting
    have hhistory := h.history
    rw [Row.phase, hcommitting] at hhistory
    split
    · exact of_idle (h.workers_finish hworker) (fun hheld ↦ absurd hheld hcancel)
        (.close hhistory (by simp) trivial) (h.personal_append rfl)
    · exact of_idle (h.workers_finish hworker) (fun hheld ↦ absurd hheld hcancel)
        (.reopen hhistory) (h.personal_append rfl)

theorem overwrite (h : Inv apply revision₀ items₀ personal₀ s)
    (hworker : s.workers[index]? = some worker) {revision : Int}
    (hstage : worker.stage = .marking revision) :
    Inv apply revision₀ items₀ personal₀ (s.overwrite index revision) := by
  have hmem : worker ∈ s.workers := List.mem_of_getElem? hworker
  have hstatus : Closing s.row.status := by
    have hmarking := h.stages worker hmem
    rw [hstage] at hmarking
    exact hmarking
  have hopen : s.row.status ≠ .committed := by
    rcases hstatus with hstatus | hstatus <;> simp [hstatus]
  exact of_idle (h.workers_finish hworker) (fun _ ↦ by simp [System.overwrite])
    (.close h.history (phase_ne_applied hopen) trivial) (h.personal_append rfl)

theorem commitImport (h : Inv apply revision₀ items₀ personal₀ s)
    (hworker : s.workers[index]? = some worker) (hstage : worker.stage = .checked) :
    Inv apply revision₀ items₀ personal₀
      ((s.setStage index worker .pulling).commitImport apply) := by
  have hheld : StageOk s.lock s.row.status worker.stage :=
    h.stages worker (List.mem_of_getElem? hworker)
  rw [hstage] at hheld
  have hhistory := h.history
  rw [Row.phase, hheld.2] at hhistory
  obtain ⟨rfl, hworkers⟩ := h.workers_eq hworker
  refine ⟨fun hidle ↦ ?_, ?_, ?_, by simp [System.commitImport], .apply hhistory, ?_⟩
  · have hnone := h.idle hidle
    simp [hworkers] at hnone
  · simp [System.commitImport, System.setStage, hworkers]
  · simp [System.commitImport, System.setStage, hworkers, StageOk]
  · simp only [System.commitImport, System.setStage]
    rw [applications_append, List.foldl_append, ← h.personal]
    rfl

theorem begin (h : Inv apply revision₀ items₀ personal₀ s)
    (hworker : s.workers[index]? = some worker) :
    Inv apply revision₀ items₀ personal₀ (s.begin index worker) := by
  unfold System.begin
  split
  · exact h.finish hworker
  · next hmatch =>
    simp only [ne_eq, not_or, not_not] at hmatch
    split
    · exact h.setStage s.lock hworker (.inl hmatch.1) h.cancelHolds
    · exact h.setStage _ hworker ⟨rfl, hmatch.1⟩ (by simp)

theorem work (h : Inv apply revision₀ items₀ personal₀ s)
    (hworker : s.workers[index]? = some worker) (step : WorkerStep) :
    Inv apply revision₀ items₀ personal₀ (s.work apply index worker step) := by
  have hstage := h.stages worker (List.mem_of_getElem? hworker)
  cases step with
  | begin =>
    simp only [System.work]
    split
    · exact h.begin hworker
    · exact h
  | raise failure connectionChanged =>
    simp only [System.work]
    split
    · next hraise =>
      rw [hraise.1] at hstage
      exact h.setStage _ hworker (.inl hstage.2) (by simp)
    · split
      · next hchecked =>
        rw [hchecked] at hstage
        exact h.setStage _ hworker (.inl hstage.2) (by simp)
      · exact h
  | check =>
    simp only [System.work]
    split
    · exact h
    · next happlying =>
      rw [not_not.mp happlying] at hstage
      split
      · exact h.setStage _ hworker (.inl hstage.2) (by simp)
      · exact h.setStage s.lock hworker hstage h.cancelHolds
  | commit =>
    simp only [System.work]
    split
    · next hchecked => exact h.commitImport hworker hchecked
    · exact h
  | handle =>
    simp only [System.work]
    split
    · split
      · next hcommitting =>
        exact h.setStage s.lock hworker (.inl hcommitting) h.cancelHolds
      · exact h.finish hworker
    · split
      · next hlock => exact h.handle hworker hlock _
      · exact h
    · exact h
  | overwrite =>
    simp only [System.work]
    split
    · next hmarking =>
      split
      · exact h.overwrite hworker hmarking
      · exact h
    · exact h
  | finish =>
    simp only [System.work]
    split
    · exact h.finish hworker
    · exact h

end worker

theorem step (h : Inv apply revision₀ items₀ personal₀ s) (strip : String → String)
    (action : Action α) : Inv apply revision₀ items₀ personal₀ (s.step strip apply action) := by
  cases action with
  | tick seconds => exact h.frame rfl rfl rfl rfl rfl rfl
  | commit key revision keyUsed available =>
    exact h.loadOwned fun hlock ↦ h.commitRequest (hlock rfl) strip key revision keyUsed
  | poll available =>
    refine h.loadOwned fun _ ↦ ?_
    split
    · exact h.frame rfl rfl rfl rfl rfl rfl
    · exact h
  | resume =>
    simp only [System.step, System.resume]
    split
    · exact h.frame rfl rfl rfl rfl rfl rfl
    · exact h
  | schedule index =>
    simp only [System.step]
    split
    · exact h
    · have hframe : Inv apply revision₀ items₀ personal₀
          { s with scheduled := s.scheduled.eraseIdx index } := h.frame rfl rfl rfl rfl rfl rfl
      exact hframe.scheduleCommit _
  | work index workerStep =>
    simp only [System.step]
    split
    · exact h
    · next hworker => exact h.work hworker workerStep
  | cancel available => exact h.loadOwned fun _ ↦ h.frame rfl rfl rfl rfl rfl rfl
  | cancelLock available =>
    simp only [System.step]
    split
    · exact h
    · have hanswered : Inv apply revision₀ items₀ personal₀ s.answered :=
        h.frame rfl rfl rfl rfl rfl rfl
      exact hanswered.loadOwned fun hlock ↦ hanswered.cancelLock (hlock rfl)
  | cancelCommit =>
    simp only [System.step]
    split
    · next hlock => exact h.cancelCommit hlock
    · exact h
  | cancelAbort =>
    simp only [System.step]
    split
    · next hlock => exact h.cancelAbort hlock
    · exact h
  | edit revision patch available => exact h.loadOwned fun hlock ↦ h.edit (hlock rfl) revision patch
  | cleanup => exact h.cleanup
  | crash => exact of_idle rfl (by simp [System.step, System.crash]) h.history h.personal

theorem reviewed (now : Int) (idempotencyKey : Option String) (expiresAt : Int) :
    Inv apply revision₀ items₀ personal₀
      (System.reviewed now idempotencyKey revision₀ items₀ expiresAt personal₀) :=
  of_idle rfl (by simp [System.reviewed]) .start rfl

end Inv

namespace System

variable (strip : String → String) (apply : List α → δ → δ)

def run (s : System α δ) (actions : List (Action α)) : System α δ :=
  actions.foldl (fun s action ↦ s.step strip apply action) s

theorem run_append (s : System α δ) (actions later : List (Action α)) :
    s.run strip apply (actions ++ later) = (s.run strip apply actions).run strip apply later :=
  List.foldl_append

theorem log_loadOwned {s s' : System α δ} (lock available : Bool) (h : s.log <+: s'.log) :
    s.log <+: (s.loadOwned lock available s').log := by
  unfold loadOwned
  split
  · split
    · exact List.prefix_rfl
    · exact List.prefix_append _ _
  · split
    · exact List.prefix_rfl
    · split
      · exact List.prefix_rfl
      · exact h

theorem log_commitRequest (s : System α δ) (key : Option String) (revision : Int) (keyUsed : Bool) :
    s.log <+: (s.commitRequest strip key revision keyUsed).log := by
  unfold commitRequest
  repeat' split
  all_goals first | exact List.prefix_rfl | exact List.prefix_append _ _

theorem log_edit (s : System α δ) (revision : Int) (patch : List α → Option (List α)) :
    s.log <+: (s.edit revision patch).log := by
  unfold edit
  repeat' split
  all_goals first | exact List.prefix_rfl | exact List.prefix_append _ _

theorem log_work (s : System α δ) (index : Nat) (worker : Worker) (workerStep : WorkerStep) :
    s.log <+: (s.work apply index worker workerStep).log := by
  cases workerStep <;> simp only [work, begin, handle]
  all_goals repeat' split
  all_goals first | exact List.prefix_rfl | exact List.prefix_append _ _

/-- What happened to a draft stays in its log. -/
theorem log_step (s : System α δ) (action : Action α) :
    s.log <+: (s.step strip apply action).log := by
  cases action with
  | tick | crash => exact List.prefix_rfl
  | commit key revision keyUsed available =>
    exact log_loadOwned _ _ (log_commitRequest strip s key revision keyUsed)
  | poll available =>
    refine log_loadOwned _ _ ?_
    split <;> exact List.prefix_rfl
  | resume =>
    simp only [step, resume]
    split <;> exact List.prefix_rfl
  | schedule index =>
    simp only [step, scheduleCommit]
    repeat' split
    all_goals exact List.prefix_rfl
  | work index workerStep =>
    simp only [step]
    split
    · exact List.prefix_rfl
    · exact log_work apply s index _ workerStep
  | cancel available => exact log_loadOwned _ _ List.prefix_rfl
  | cancelLock available =>
    simp only [step]
    split
    · exact List.prefix_rfl
    · refine log_loadOwned (s := s.answered) _ _ ?_
      unfold cancelLock
      repeat' split
      all_goals exact List.prefix_rfl
  | cancelCommit =>
    simp only [step]
    split
    · exact List.prefix_append _ _
    · exact List.prefix_rfl
  | cancelAbort =>
    simp only [step]
    split <;> exact List.prefix_rfl
  | edit revision patch available => exact log_loadOwned _ _ (log_edit s revision patch)
  | cleanup =>
    simp only [step, cleanup]
    split
    · exact List.prefix_append _ _
    · exact List.prefix_rfl

theorem log_run (s : System α δ) (actions : List (Action α)) :
    s.log <+: (s.run strip apply actions).log :=
  Runs.invariant (I := fun s' ↦ s.log <+: s'.log) List.prefix_rfl
    fun s' action h ↦ h.trans (log_step strip apply s' action)

theorem personal_raise (s : System α δ) (index : Nat) (failure : Failure)
    (connectionChanged : Bool) :
    (s.step strip apply (.work index (.raise failure connectionChanged))).personal = s.personal ∧
      (s.step strip apply (.work index (.raise failure connectionChanged))).row = s.row := by
  simp only [step]
  split
  · exact ⟨rfl, rfl⟩
  · simp only [work]
    repeat' split
    all_goals exact ⟨rfl, rfl⟩

end System

section contract

variable (strip : String → String) (apply : List α → δ → δ)

/-- What a state of an import promises for itself and for every run from it. -/
structure Contract (personal₀ : δ) (s : System α δ) : Prop where
  /-- The items were applied in at most one transaction, and the session is committed exactly then. -/
  once : (applications s.log).length ≤ 1
  committed_iff : s.row.status = .committed ↔ applications s.log ≠ []
  personal_eq : s.personal = (applications s.log).foldl (fun d items ↦ apply items d) personal₀
  /-- What was applied is what the last accepted commit found in review, with no end before it. -/
  asAccepted : ∀ before items after, s.log = before ++ .applied items :: after →
    after = [] ∧ (∃ revision, lastAccepted before = some (revision, items)) ∧
      ∀ event ∈ before, ¬event.Closes
  closed : s.row.status = .cancelled → ∀ later, (s.run strip apply later).personal = s.personal ∧
    (s.run strip apply later).row.status ≠ .committed
  /-- A failed validation changes nothing, and its worker returns the draft to review unless it was
  cancelled meanwhile. -/
  invalid : ∀ index connectionChanged,
    (s.step strip apply (.work index (.raise .invalid connectionChanged))).personal = s.personal ∧
      (s.step strip apply (.work index (.raise .invalid connectionChanged))).row = s.row
  returned : ∀ (index : Nat) key, s.workers[index]? = some ⟨key, .raised .invalid⟩ → s.lock = none →
    (s.step strip apply (.work index .handle)).personal = s.personal ∧
    (s.step strip apply (.work index .handle)).workers = [] ∧
    (s.row.status = .committing ∧ (s.step strip apply (.work index .handle)).row =
        { s.row with status := .review, revision := s.row.revision + 1 } ∨
      s.row.status = .cancelled ∧ (s.step strip apply (.work index .handle)).row = s.row)

variable {strip apply} {revision₀ : Int} {items₀ : List α} {personal₀ : δ} {s : System α δ}

theorem Inv.run (h : Inv apply revision₀ items₀ personal₀ s) (strip : String → String)
    (actions : List (Action α)) :
    Inv apply revision₀ items₀ personal₀ (s.run strip apply actions) :=
  Runs.invariant (I := Inv apply revision₀ items₀ personal₀) h
    fun _ action h ↦ h.step strip action

theorem Inv.committed_iff (h : Inv apply revision₀ items₀ personal₀ s) :
    s.row.status = .committed ↔ applications s.log ≠ [] := by
  constructor
  · intro hcommitted
    have hhistory := h.history
    rw [Row.phase, hcommitted] at hhistory
    obtain ⟨_, _, items, -, happlied, -⟩ := hhistory.of_applied
    simp [happlied]
  · intro happlied
    by_contra hcommitted
    exact happlied (h.history.applications_eq_nil (phase_ne_applied hcommitted))

theorem Inv.once (h : Inv apply revision₀ items₀ personal₀ s) :
    (applications s.log).length ≤ 1 := by
  by_cases hcommitted : s.row.status = .committed
  · have hhistory := h.history
    rw [Row.phase, hcommitted] at hhistory
    obtain ⟨_, _, items, -, happlied, -⟩ := hhistory.of_applied
    simp [happlied]
  · simp [h.history.applications_eq_nil (phase_ne_applied hcommitted)]

theorem Inv.asAccepted (h : Inv apply revision₀ items₀ personal₀ s)
    {before after : List (Event α)} {items : List α}
    (hlog : s.log = before ++ .applied items :: after) :
    after = [] ∧ (∃ revision, lastAccepted before = some (revision, items)) ∧
      ∀ event ∈ before, ¬event.Closes := by
  have hcommitted : s.row.status = .committed := by
    rw [h.committed_iff, hlog]
    simp [applications, Event.application]
  have hhistory := h.history
  rw [Row.phase, hcommitted] at hhistory
  obtain ⟨earlier, revision, applied, hend, happlied, haccepted, hopen⟩ := hhistory.of_applied
  rcases List.eq_nil_or_concat after with rfl | ⟨rest, last, rfl⟩
  · obtain ⟨rfl, hlast⟩ := List.append_inj' (hlog.symm.trans hend) rfl
    obtain rfl : items = applied := by simpa using hlast
    exact ⟨rfl, ⟨revision, haccepted⟩, hopen⟩
  · have htwice : s.log = (before ++ .applied items :: rest) ++ [last] := by simp [hlog]
    obtain ⟨-, hlast⟩ := List.append_inj' (htwice.symm.trans hend) rfl
    obtain rfl : last = .applied applied := by simpa using hlast
    have hcount := congrArg List.length happlied
    simp only [hlog, applications, List.filterMap_append, List.filterMap_cons, Event.application,
      List.concat_eq_append, List.length_append, List.length_cons, List.filterMap_nil,
      List.length_nil] at hcount
    omega

/-- Once a draft is cancelled or expired nothing of it is applied any more. -/
theorem Inv.closed (h : Inv apply revision₀ items₀ personal₀ s) (hstatus : s.row.status = .cancelled)
    (later : List (Action α)) : (s.run strip apply later).personal = s.personal ∧
      (s.run strip apply later).row.status ≠ .committed := by
  have hlater := h.run strip later
  have hhistory := h.history
  rw [Row.phase, hstatus] at hhistory
  have hnever : (s.run strip apply later).row.status ≠ .committed := by
    intro hcommitted
    have happlied := hlater.history
    rw [Row.phase, hcommitted] at happlied
    obtain ⟨before, _, items, hend, -, -, hopen⟩ := happlied.of_applied
    obtain ⟨event, hearlier, hcloses⟩ := hhistory.exists_closes
    have hmem := (System.log_run strip apply s later).subset hearlier
    rw [hend, List.mem_append, List.mem_singleton] at hmem
    rcases hmem with hmem | rfl
    · exact hopen event hmem hcloses
    · exact hcloses
  refine ⟨?_, hnever⟩
  rw [hlater.personal, h.personal, hlater.history.applications_eq_nil (phase_ne_applied hnever),
    h.history.applications_eq_nil (phase_ne_applied (by simp [hstatus]))]

theorem Inv.returned (h : Inv apply revision₀ items₀ personal₀ s) {index : Nat} {key : String}
    (hworker : s.workers[index]? = some ⟨key, .raised .invalid⟩) (hlock : s.lock = none) :
    (s.step strip apply (.work index .handle)).personal = s.personal ∧
    (s.step strip apply (.work index .handle)).workers = [] ∧
    (s.row.status = .committing ∧ (s.step strip apply (.work index .handle)).row =
        { s.row with status := .review, revision := s.row.revision + 1 } ∨
      s.row.status = .cancelled ∧ (s.step strip apply (.work index .handle)).row = s.row) := by
  have hstatus : Closing s.row.status := h.stages _ (List.mem_of_getElem? hworker)
  have hworkers := h.workers_finish hworker
  simp only [System.step, hworker, System.work, hlock, if_true]
  rcases hstatus with hstatus | hstatus
  · simp only [System.handle, hstatus, ne_eq, not_true, if_false]
    exact ⟨rfl, hworkers, .inl ⟨trivial, trivial⟩⟩
  · simp only [System.handle, hstatus, ne_eq, reduceCtorEq, not_false_eq_true, if_true]
    exact ⟨rfl, hworkers, .inr ⟨trivial, rfl⟩⟩

end contract

/-- Every run of commit requests, workers, crashes and restarts, cancellations, expiry and edits on a
reviewed draft applies it at most once, and only as it was accepted. -/
theorem import_contract (strip : String → String) (apply : List α → δ → δ) (now revision : Int)
    (idempotencyKey : Option String) (items : List α) (expiresAt : Int) (personal : δ)
    (actions : List (Action α)) :
    Contract strip apply personal
      ((System.reviewed now idempotencyKey revision items expiresAt personal).run strip apply
        actions) := by
  have hreviewed : Inv apply revision items personal
      (System.reviewed now idempotencyKey revision items expiresAt personal) :=
    Inv.reviewed now idempotencyKey expiresAt
  have h := hreviewed.run strip actions
  exact {
    once := h.once
    committed_iff := h.committed_iff
    personal_eq := h.personal
    asAccepted := fun _ _ _ hlog ↦ h.asAccepted hlog
    closed := fun hstatus later ↦ h.closed hstatus later
    invalid := fun index connectionChanged ↦
      System.personal_raise strip apply _ index .invalid connectionChanged
    returned := fun _ _ hworker hlock ↦ h.returned hworker hlock }

end AnyList.Imports
