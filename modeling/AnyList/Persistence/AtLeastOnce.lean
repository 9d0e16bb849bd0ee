import AnyList.Persistence.CycleDelivery

namespace AnyList.Persistence.CycleDelivery

open AnyList.Library
open AnyList.Timestamps (DateTime)

/-- A batch as it is stored, by this release or an earlier one: none of its targets is done. -/
structure IsBatch (batch : Stats) : Prop where
  pending : batch.deliveryPending = true
  fresh : batch.deliveryDone.getD [] = []

theorem isBatch_persistDelivery (isoformat : DateTime → String) (account : Account)
    (state : PullCycleState) : IsBatch (persistDelivery isoformat account state) := ⟨rfl, rfl⟩

def Event.upgrade : Event → Option (List Target × List (String × Value))
  | upgraded targets delivery => some (targets, delivery)
  | _ => none

/-- The targets recorded with a batch and its payload, once `log` has happened. -/
def recordedBatch (batch : Stats) (log : List Event) :
    Option (List Target) × Option (List (String × Value)) :=
  match log.findSome? Event.upgrade with
  | some (targets, delivery) => (some targets, some delivery)
  | none => (batch.deliveryTargets, batch.delivery)

def Settled (log : List Event) (target : Target) : Prop :=
  .flush target true ∈ log ∨ .replaced target ∈ log

/-- The batch is still there, with its payload and its targets. -/
def Kept (batch row : Stats) (log : List Event) : Prop :=
  row.deliveryPending = true ∧ (row.deliveryTargets, row.delivery) = recordedBatch batch log

def AllSettled (batch : Stats) (log : List Event) : Prop :=
  ∃ targets, (recordedBatch batch log).1 = some targets ∧ ∀ target ∈ targets, Settled log target

/-- Nothing recorded as done is flushed again. -/
def NeverAgain (log : List Event) : Prop :=
  ∀ target succeeded, log.Pairwise fun earlier later ↦
    earlier = .recorded target → later ≠ .flush target succeeded

/-- Nothing at all is flushed after the payload was dropped. -/
def QuietOnceDropped (log : List Event) : Prop :=
  ∀ target succeeded, log.Pairwise fun earlier later ↦
    earlier = .dropped → later ≠ .flush target succeeded

/-- Unless it crashes, a run that comes to one of its targets comes to all that are not done. -/
def TriesAll (batch row : Stats) (log : List Event) (outcome : Outcome) : Prop :=
  outcome.fate ≠ .crash → (∃ event ∈ outcome.events, event.target.isSome = true) →
    ∀ targets, (recordedBatch batch (log ++ outcome.events)).1 = some targets →
      ∀ target ∈ targets, target ∈ row.deliveryDone.getD [] ∨
        ∃ event ∈ outcome.events, event.target = some target

/-- How an attempt at a target ends. -/
inductive Attempted (targets : List Target) (row : Stats) (done : List Target) (target : Target) :
    Progress → Prop
  | crashed : Attempted targets row done target ⟨row, done, [], .crash⟩
  | failed (done' : List Target) (event : Event) (fate : Fate) :
      event = .unread target ∨ event = .replaced target ∨ (∃ ok, event = .flush target ok) →
      fate ≠ .done → done' = done ∨ done' = markDone (row.deliveryDone.getD []) target →
      Attempted targets row done target ⟨row, done', [event], fate⟩
  | recorded (event : Event) : event = .flush target true ∨ event = .replaced target →
      Attempted targets row done target
        ⟨{ row with deliveryDone := some (sortedNames (markDone (row.deliveryDone.getD []) target)) },
          markDone (row.deliveryDone.getD []) target, [event, .recorded target], .done⟩
  | dropped (event : Event) : event = .flush target true ∨ event = .replaced target →
      (∀ t ∈ targets, t ∈ markDone (row.deliveryDone.getD []) target) →
      Attempted targets row done target
        ⟨.dropped, markDone (row.deliveryDone.getD []) target,
          [event, .recorded target, .dropped], .done⟩

@[simp] theorem mem_markDone {done : List Target} {target t : Target} :
    t ∈ markDone done target ↔ t ∈ done ∨ t = target := by
  unfold markDone
  split_ifs with h
  · exact ⟨.inl, fun ht ↦ ht.elim id fun ht ↦ ht ▸ h⟩
  · simp

@[simp] theorem mem_sortedNames {done : List Target} {t : Target} :
    t ∈ sortedNames done ↔ t ∈ done := List.mem_mergeSort

section attempts

variable {userId : Int} {state : PullCycleState} {targets : List Target} {moment : Moment}
variable {row : Stats} {done : List Target} {target : Target}

theorem attempted_recordTarget {record : RecordFate} {event : Event}
    (h : event = .flush target true ∨ event = .replaced target) :
    Attempted targets row done target (recordTarget targets record row done [event] target) := by
  have hevent : event = .unread target ∨ event = .replaced target ∨
      ∃ ok, event = .flush target ok := by
    rcases h with h | h
    · exact .inr (.inr ⟨true, h⟩)
    · exact .inr (.inl h)
  cases record with
  | done =>
    simp only [recordTarget]
    split_ifs with hall
    · exact .dropped event h (by simpa using hall)
    · exact .recorded event h
  | unread => exact .failed done event .raises hevent (by simp) (.inl rfl)
  | uncommitted => exact .failed _ event .raises hevent (by simp) (.inr rfl)
  | crash => exact .failed done event .crash hevent (by simp) (.inl rfl)

theorem attempted_flushTarget :
    Attempted targets row done target
      (flushTarget userId state targets moment row done target) := by
  unfold flushTarget
  split_ifs with hcurrent
  · cases hflush : moment.flush with
    | done => exact attempted_recordTarget (.inl rfl)
    | raises => exact .failed done _ .raises (.inr (.inr ⟨false, rfl⟩)) (by simp) (.inl rfl)
    | crash => exact .failed done _ .crash (.inr (.inr ⟨false, rfl⟩)) (by simp) (.inl rfl)
  · exact attempted_recordTarget (.inr rfl)

theorem attempted_deliverTarget :
    Attempted targets row done target
      (deliverTarget userId state targets moment row done target) := by
  unfold deliverTarget
  split
  · exact .crashed
  · exact .failed done _ .raises (.inl rfl) (by simp) (.inl rfl)
  · exact attempted_flushTarget

end attempts

section logs

variable {batch row : Stats} {log events : List Event} {target : Target}

theorem Settled.append (h : Settled log target) : Settled (log ++ events) target :=
  h.imp (List.mem_append_left _) (List.mem_append_left _)

theorem Settled.append_left (h : Settled events target) : Settled (log ++ events) target :=
  h.imp (List.mem_append_right _) (List.mem_append_right _)

theorem recordedBatch_append (h : ∀ event ∈ events, event.upgrade = none) :
    recordedBatch batch (log ++ events) = recordedBatch batch log := by
  have hnone : events.findSome? Event.upgrade = none := List.findSome?_eq_none_iff.mpr h
  rw [recordedBatch, List.findSome?_append, hnone, Option.or_none, recordedBatch]

theorem NeverAgain.append (h : NeverAgain log) (h' : NeverAgain events)
    (hcross : ∀ t, .recorded t ∈ log → ∀ ok, .flush t ok ∉ events) :
    NeverAgain (log ++ events) := by
  intro t ok
  refine List.pairwise_append.mpr ⟨h t ok, h' t ok, ?_⟩
  rintro earlier hearlier later hlater rfl rfl
  exact hcross t hearlier ok hlater

theorem QuietOnceDropped.append (h : QuietOnceDropped log) (h' : QuietOnceDropped events)
    (hcross : .dropped ∈ log → ∀ t ok, .flush t ok ∉ events) :
    QuietOnceDropped (log ++ events) := by
  intro t ok
  refine List.pairwise_append.mpr ⟨h t ok, h' t ok, ?_⟩
  rintro earlier hearlier later hlater rfl rfl
  exact hcross hearlier t ok hlater

end logs

/-- The standing of a batch whose payload is kept. -/
structure Pending (batch row : Stats) (log : List Event) : Prop where
  kept : Kept batch row log
  marked : ∀ target, .recorded target ∈ log → target ∈ row.deliveryDone.getD []
  settled : ∀ target ∈ row.deliveryDone.getD [], Settled log target
  undropped : .dropped ∉ log
  again : NeverAgain log
  quiet : QuietOnceDropped log

/-- The standing of a batch whose payload was dropped. -/
structure Gone (batch row : Stats) (log : List Event) : Prop where
  dropped : row = .dropped
  settled : AllSettled batch log
  again : NeverAgain log
  quiet : QuietOnceDropped log

/-- A run between two of its targets. -/
inductive Delivering (batch : Stats) (targets : List Target) (row : Stats) (done : List Target)
    (log : List Event) : Prop
  | pending : Pending batch row log → row.deliveryTargets = some targets →
      (∀ t ∈ row.deliveryDone.getD [], t ∈ done) → Delivering batch targets row done log
  | gone : Gone batch row log → (∀ t ∈ targets, t ∈ done) →
      Delivering batch targets row done log

section steps

variable {batch row : Stats} {targets done : List Target} {log : List Event} {target : Target}

theorem Pending.append_failed (h : Pending batch row log)
    (hnew : target ∉ row.deliveryDone.getD []) {event : Event}
    (hevent : event = .unread target ∨ event = .replaced target ∨ ∃ ok, event = .flush target ok) :
    Pending batch row (log ++ [event]) := by
  have hupgrade : ∀ e ∈ [event], e.upgrade = none := by
    rcases hevent with rfl | rfl | ⟨ok, rfl⟩ <;> simp [Event.upgrade]
  refine ⟨⟨h.kept.1, ?_⟩, fun t ht ↦ ?_, fun t ht ↦ (h.settled t ht).append, ?_, ?_, ?_⟩
  · rw [recordedBatch_append hupgrade]
    exact h.kept.2
  · rcases List.mem_append.mp ht with ht | ht
    · exact h.marked t ht
    · rcases hevent with rfl | rfl | ⟨ok, rfl⟩ <;> simp at ht
  · rw [List.mem_append, not_or]
    refine ⟨h.undropped, ?_⟩
    rcases hevent with rfl | rfl | ⟨ok, rfl⟩ <;> simp
  · refine h.again.append (fun _ _ ↦ List.pairwise_singleton _ _) fun t ht ok hflush ↦ ?_
    have hmarked := h.marked t ht
    rcases hevent with rfl | rfl | ⟨ok', rfl⟩ <;> simp at hflush
    obtain ⟨rfl, -⟩ := hflush
    exact hnew hmarked
  · exact h.quiet.append (fun _ _ ↦ List.pairwise_singleton _ _) fun hdropped ↦
      absurd hdropped h.undropped

/-- What is recorded of a batch after a target was settled. -/
theorem Pending.append_recorded (h : Pending batch row log)
    (hnew : target ∉ row.deliveryDone.getD []) {event : Event}
    (hevent : event = .flush target true ∨ event = .replaced target) :
    Pending batch
      { row with deliveryDone := some (sortedNames (markDone (row.deliveryDone.getD []) target)) }
      (log ++ [event, .recorded target]) := by
  have hfailed : Pending batch row (log ++ [event]) := h.append_failed hnew
    (hevent.elim (fun h ↦ .inr (.inr ⟨true, h⟩)) fun h ↦ .inr (.inl h))
  have hsettled : Settled [event, .recorded target] target := by
    rcases hevent with rfl | rfl <;> simp [Settled]
  have hsplit : log ++ [event, .recorded target] = (log ++ [event]) ++ [.recorded target] := by
    simp
  refine ⟨⟨h.kept.1, ?_⟩, fun t ht ↦ ?_, fun t ht ↦ ?_, ?_, ?_, ?_⟩
  · rw [hsplit, recordedBatch_append (by simp [Event.upgrade])]
    exact hfailed.kept.2
  · rw [hsplit, List.mem_append, List.mem_singleton, Event.recorded.injEq] at ht
    simp only [Option.getD_some, mem_sortedNames, mem_markDone]
    exact ht.imp_left (hfailed.marked t)
  · simp only [Option.getD_some, mem_sortedNames, mem_markDone] at ht
    obtain ht | rfl := ht
    · exact (h.settled t ht).append
    · exact hsettled.append_left
  · rw [hsplit, List.mem_append, not_or]
    exact ⟨hfailed.undropped, by simp⟩
  · rw [hsplit]
    exact hfailed.again.append (fun _ _ ↦ List.pairwise_singleton _ _) (by simp)
  · rw [hsplit]
    exact hfailed.quiet.append (fun _ _ ↦ List.pairwise_singleton _ _) (by simp)

theorem Delivering.attempt (h : Delivering batch targets row done log) (htarget : target ∈ targets)
    (hnew : target ∉ done) {p : Progress} (hp : Attempted targets row done target p) :
    Delivering batch targets p.row p.done (log ++ p.events) := by
  cases h with
  | gone _ hall => exact absurd (hall target htarget) hnew
  | pending hpending htargets hdone =>
    have hunmarked : target ∉ row.deliveryDone.getD [] := fun hmem ↦ hnew (hdone target hmem)
    cases hp with
    | crashed =>
      rw [List.append_nil]
      exact .pending hpending htargets hdone
    | failed done' event fate hevent _ hdone' =>
      refine .pending (hpending.append_failed hunmarked hevent) htargets fun t ht ↦ ?_
      rcases hdone' with rfl | rfl
      · exact hdone t ht
      · exact mem_markDone.mpr (.inl ht)
    | recorded event hevent =>
      exact .pending (hpending.append_recorded hunmarked hevent) htargets fun t ht ↦
        mem_sortedNames.mp ht
    | dropped event hevent hall =>
      have hrecorded := hpending.append_recorded hunmarked hevent
      have hsplit : log ++ [event, .recorded target, .dropped] =
          (log ++ [event, .recorded target]) ++ [.dropped] := by
        simp
      rw [hsplit]
      refine .gone ⟨rfl, ⟨targets, ?_, fun t ht ↦ ?_⟩, ?_, ?_⟩ hall
      · rw [recordedBatch_append (by simp [Event.upgrade]), ← hrecorded.kept.2]
        exact htargets
      · exact (hrecorded.settled t (mem_sortedNames.mpr (hall t ht))).append
      · exact hrecorded.again.append (fun _ _ ↦ List.pairwise_singleton _ _) (by simp)
      · exact hrecorded.quiet.append (fun _ _ ↦ List.pairwise_singleton _ _) (by simp)

end steps

section loop

variable (userId : Int) (state : PullCycleState) (script : ℕ → Moment) (i : ℕ)
variable {batch row : Stats} {targets done : List Target} {log : List Event} {target : Target}
variable {p : Progress}

theorem Attempted.exists_event (h : Attempted targets row done target p) (hfate : p.fate ≠ .crash) :
    ∃ event ∈ p.events, event.target = some target := by
  cases h with
  | crashed => exact absurd rfl hfate
  | failed done' event fate hevent =>
    refine ⟨event, List.mem_singleton_self _, ?_⟩
    rcases hevent with rfl | rfl | ⟨ok, rfl⟩ <;> rfl
  | recorded event hevent => exact ⟨.recorded target, by simp, rfl⟩
  | dropped event hevent => exact ⟨.recorded target, by simp, rfl⟩

theorem Attempted.upgrade_eq_none (h : Attempted targets row done target p) :
    ∀ event ∈ p.events, event.upgrade = none := by
  cases h with
  | crashed => simp
  | failed done' event fate hevent =>
    rcases hevent with rfl | rfl | ⟨ok, rfl⟩ <;> simp [Event.upgrade]
  | recorded event hevent => rcases hevent with rfl | rfl <;> simp [Event.upgrade]
  | dropped event hevent => rcases hevent with rfl | rfl <;> simp [Event.upgrade]

theorem Attempted.mem_done (h : Attempted targets row done target p)
    (hdone : ∀ t ∈ row.deliveryDone.getD [], t ∈ done) {t : Target} (ht : t ∈ p.done) :
    t ∈ done ∨ t = target := by
  have hmarked : t ∈ markDone (row.deliveryDone.getD []) target → t ∈ done ∨ t = target :=
    fun h ↦ (mem_markDone.mp h).imp_left (hdone t)
  cases h with
  | crashed => exact .inl ht
  | failed done' event fate _ _ hdone' =>
    rcases hdone' with rfl | rfl
    · exact .inl ht
    · exact hmarked ht
  | recorded => exact hmarked ht
  | dropped => exact hmarked ht

theorem Delivering.done_subset (h : Delivering batch targets row done log)
    (htarget : target ∈ targets) (hnew : target ∉ done) :
    ∀ t ∈ row.deliveryDone.getD [], t ∈ done := by
  cases h with
  | pending _ _ hdone => exact hdone
  | gone _ hall => exact absurd (hall target htarget) hnew

theorem deliverTargets_cons_of_crash {todo : List Target} (hnew : target ∉ done)
    (hcrash : (deliverTarget userId state targets (script i) row done target).fate = .crash) :
    deliverTargets userId state targets script i (target :: todo) row done =
      deliverTarget userId state targets (script i) row done target := by
  simp only [deliverTargets, if_neg hnew, hcrash]

theorem deliverTargets_cons_of_ne_crash {todo : List Target} (hnew : target ∉ done)
    (hfate : (deliverTarget userId state targets (script i) row done target).fate ≠ .crash) :
    let step := deliverTarget userId state targets (script i) row done target
    let rest := deliverTargets userId state targets script (i + 1) todo step.row step.done
    deliverTargets userId state targets script i (target :: todo) row done =
      { rest with
        events := step.events ++ rest.events
        fate := if step.fate = .raises ∧ rest.fate = .done then .raises else rest.fate } := by
  simp only [deliverTargets, if_neg hnew]

/-- The loop keeps the standing of its batch and comes to every target that was not done. -/
theorem Delivering.deliverTargets {todo : List Target}
    (h : Delivering batch targets row done log) (htodo : ∀ t ∈ todo, t ∈ targets) :
    let out := deliverTargets userId state targets script i todo row done
    Delivering batch targets out.row out.done (log ++ out.events) ∧
      (∀ event ∈ out.events, event.upgrade = none) ∧
      (out.fate ≠ .crash → ∀ t ∈ todo, t ∈ done ∨ ∃ event ∈ out.events, event.target = some t) := by
  induction todo generalizing i row done log with
  | nil => simpa [CycleDelivery.deliverTargets] using h
  | cons target todo ih =>
    obtain ⟨htarget, htodo⟩ := List.forall_mem_cons.mp htodo
    by_cases hdone : target ∈ done
    · have hrest := ih (i + 1) h htodo
      simp only [CycleDelivery.deliverTargets, if_pos hdone]
      refine ⟨hrest.1, hrest.2.1, fun hfate t ht ↦ ?_⟩
      obtain rfl | ht := List.mem_cons.mp ht
      · exact .inl hdone
      · exact hrest.2.2 hfate t ht
    · have hattempt : Attempted targets row done target
          (deliverTarget userId state targets (script i) row done target) :=
        attempted_deliverTarget
      have hstep := h.attempt htarget hdone hattempt
      by_cases hcrash :
          (deliverTarget userId state targets (script i) row done target).fate = .crash
      · simp only [deliverTargets_cons_of_crash userId state script i hdone hcrash]
        exact ⟨hstep, hattempt.upgrade_eq_none, fun hfate ↦ absurd hcrash hfate⟩
      · have hrest := ih (i + 1) hstep htodo
        simp only [deliverTargets_cons_of_ne_crash userId state script i hdone hcrash]
        refine ⟨by simpa only [List.append_assoc] using hrest.1,
          List.forall_mem_append.mpr ⟨hattempt.upgrade_eq_none, hrest.2.1⟩, fun hfate t ht ↦ ?_⟩
        obtain rfl | ht := List.mem_cons.mp ht
        · obtain ⟨event, hmem, hevent⟩ := hattempt.exists_event hcrash
          exact .inr ⟨event, List.mem_append_left _ hmem, hevent⟩
        · have hlater := hrest.2.2 (fun hc ↦ hfate (by simp [hc])) t ht
          obtain hmem | ⟨event, hmem, hevent⟩ := hlater
          · obtain ht | rfl := hattempt.mem_done (h.done_subset htarget hdone) hmem
            · exact .inl ht
            · obtain ⟨event, hmem, hevent⟩ := hattempt.exists_event hcrash
              exact .inr ⟨event, List.mem_append_left _ hmem, hevent⟩
          · exact .inr ⟨event, List.mem_append_right _ hmem, hevent⟩

end loop

section runs

variable (isoformat : DateTime → String) (fromisoformat : String → Option DateTime) (userId : Int)
variable {batch row : Stats} {log : List Event}

/-- The standing of a batch between two runs. -/
inductive Standing (batch row : Stats) (log : List Event) : Prop
  | pending : Pending batch row log →
      (row.deliveryTargets = none → row.deliveryDone.getD [] = []) → Standing batch row log
  | gone : Gone batch row log → Standing batch row log

theorem Delivering.standing {targets done : List Target}
    (h : Delivering batch targets row done log) : Standing batch row log := by
  cases h with
  | pending hpending htargets _ =>
    refine .pending hpending fun hnone ↦ ?_
    simp [htargets] at hnone
  | gone hgone _ => exact .gone hgone

theorem standing_of_isBatch (h : IsBatch batch) : Standing batch batch [] := by
  refine .pending ⟨⟨h.pending, rfl⟩, by simp, ?_, by simp, ?_, ?_⟩ fun _ ↦ h.fresh
  · rw [h.fresh]
    simp
  · exact fun _ _ ↦ .nil
  · exact fun _ _ ↦ .nil

/-- Recording the targets of a batch of an earlier release. -/
theorem Pending.upgrade (h : Pending batch row log) (htargets : row.deliveryTargets = none)
    (hfresh : row.deliveryDone.getD [] = []) (targets : List Target)
    (delivery : List (String × Value)) :
    Pending batch
      { row with
        delivery := some delivery, deliveryTargets := some targets, deliveryDone := some [] }
      (log ++ [.upgraded targets delivery]) := by
  have hnone : log.findSome? Event.upgrade = none := by
    have hrecorded := congrArg Prod.fst h.kept.2
    rw [htargets, recordedBatch] at hrecorded
    cases hfind : log.findSome? Event.upgrade with
    | none => rfl
    | some found => simp [hfind] at hrecorded
  refine ⟨⟨h.kept.1, ?_⟩, fun t ht ↦ ?_, by simp, ?_, ?_, ?_⟩
  · rw [recordedBatch, List.findSome?_append, hnone]
    rfl
  · rw [List.mem_append, List.mem_singleton] at ht
    obtain ht | ht := ht
    · have hmarked := h.marked t ht
      rw [hfresh] at hmarked
      exact absurd hmarked List.not_mem_nil
    · exact Event.noConfusion ht
  · rw [List.mem_append, not_or]
    exact ⟨h.undropped, by simp⟩
  · exact h.again.append (fun _ _ ↦ List.pairwise_singleton _ _) (by simp)
  · exact h.quiet.append (fun _ _ ↦ List.pairwise_singleton _ _) (by simp)

/-- What a run can be: it leaves the batch alone, delivers it, or gives it its targets first. -/
theorem deliverCycle_cases (run : Run) (row : Stats) :
    (∃ fate, deliverCycle isoformat fromisoformat userId run row = ⟨row, [], fate⟩) ∨
    (∃ state targets, row.deliveryPending = true ∧ row.deliveryTargets = some targets ∧
      ∃ progress, progress = deliverTargets userId state targets run.script 0 targets row
        (row.deliveryDone.getD []) ∧
      deliverCycle isoformat fromisoformat userId run row =
        ⟨progress.row, progress.events, progress.fate⟩) ∨
    (∃ state targets delivery, row.deliveryPending = true ∧ row.deliveryTargets = none ∧
      ∃ progress, progress = deliverTargets userId state targets run.script 0 targets
        { row with
          delivery := some delivery, deliveryTargets := some targets, deliveryDone := some [] } [] ∧
      deliverCycle isoformat fromisoformat userId run row =
        ⟨progress.row, .upgraded targets delivery :: progress.events, progress.fate⟩) := by
  unfold deliverCycle
  cases hpending : row.deliveryPending with
  | false => exact .inl ⟨.done, rfl⟩
  | true =>
    cases run.state.or (row.delivery.bind (PullCycleState.restore fromisoformat)) with
    | none => exact .inl ⟨.raises, rfl⟩
    | some state =>
      cases htargets : row.deliveryTargets with
      | some targets => exact .inr (.inl ⟨state, targets, rfl, rfl, _, rfl, rfl⟩)
      | none =>
        cases run.upgrade with
        | raises => exact .inl ⟨.raises, rfl⟩
        | crash => exact .inl ⟨.crash, rfl⟩
        | done =>
          exact .inr (.inr ⟨(deliveryTargets run.account state).2,
            (deliveryTargets run.account state).1, _, rfl, rfl, _, rfl, rfl⟩)

theorem Standing.pending_of_deliveryPending (h : Standing batch row log)
    (hpending : row.deliveryPending = true) : Pending batch row log ∧
      (row.deliveryTargets = none → row.deliveryDone.getD [] = []) := by
  cases h with
  | pending h hfresh => exact ⟨h, hfresh⟩
  | gone h => simp [h.dropped, Stats.dropped] at hpending

theorem Standing.deliverCycle (h : Standing batch row log) (run : Run) :
    let out := deliverCycle isoformat fromisoformat userId run row
    Standing batch out.row (log ++ out.events) ∧ TriesAll batch row log out := by
  obtain ⟨fate, hout⟩ | ⟨state, targets, hpending, htargets, progress, hprogress, hout⟩ |
    ⟨state, targets, delivery, hpending, htargets, progress, hprogress, hout⟩ :=
      deliverCycle_cases isoformat fromisoformat userId run row
  · simp only [hout, List.append_nil]
    refine ⟨h, fun _ hevent ↦ ?_⟩
    simp at hevent
  · obtain ⟨hbatch, hfresh⟩ := h.pending_of_deliveryPending hpending
    have hloop := (Delivering.pending hbatch htargets fun t ht ↦ ht).deliverTargets
      userId state run.script 0 fun t ht ↦ ht
    simp only [hout]
    rw [← hprogress] at hloop
    refine ⟨hloop.1.standing, fun hfate _ recorded hrecorded ↦ ?_⟩
    rw [recordedBatch_append hloop.2.1, ← hbatch.kept.2] at hrecorded
    obtain rfl : targets = recorded := Option.some.inj (htargets.symm.trans hrecorded)
    exact hloop.2.2 hfate
  · obtain ⟨hbatch, hfresh⟩ := h.pending_of_deliveryPending hpending
    have hupgraded := hbatch.upgrade htargets (hfresh htargets) targets delivery
    have hstart : Delivering batch targets
        { row with
          delivery := some delivery, deliveryTargets := some targets, deliveryDone := some [] } []
        (log ++ [.upgraded targets delivery]) := .pending hupgraded rfl (by simp)
    have hloop := hstart.deliverTargets userId state run.script 0 fun t ht ↦ ht
    have hsplit : log ++ .upgraded targets delivery :: progress.events =
        log ++ [.upgraded targets delivery] ++ progress.events := by
      simp
    simp only [hout]
    rw [← hprogress] at hloop
    refine ⟨hsplit ▸ hloop.1.standing, fun hfate _ recorded hrecorded t ht ↦ ?_⟩
    rw [hsplit, recordedBatch_append hloop.2.1, ← hupgraded.kept.2] at hrecorded
    obtain rfl : targets = recorded := Option.some.inj hrecorded
    obtain hmem | ⟨event, hmem, hevent⟩ := hloop.2.2 hfate t ht
    · exact absurd hmem List.not_mem_nil
    · exact .inr ⟨event, List.mem_cons_of_mem _ hmem, hevent⟩

theorem Standing.deliverCycles (h : Standing batch row log) (runs : List Run) :
    let out := deliverCycles isoformat fromisoformat userId runs row
    Standing batch out.1 (log ++ out.2) := by
  induction runs generalizing row log with
  | nil => simpa [CycleDelivery.deliverCycles] using h
  | cons run runs ih =>
    have hrest := ih (h.deliverCycle isoformat fromisoformat userId run).1
    simpa only [CycleDelivery.deliverCycles, List.append_assoc] using hrest

/-- Whatever fails and wherever a run breaks off, a batch is delivered at least once: its payload
stays until all of its recorded targets are settled, no target is flushed again once it is recorded
as done, a failing target keeps no other from being tried, and once the payload is dropped nothing
is flushed. -/
theorem delivered_at_least_once (h : IsBatch batch) (runs : List Run) :
    let out := deliverCycles isoformat fromisoformat userId runs batch
    (Kept batch out.1 out.2 ∨ AllSettled batch out.2) ∧ NeverAgain out.2 ∧
      (∀ run, TriesAll batch out.1 out.2
        (deliverCycle isoformat fromisoformat userId run out.1)) ∧
      QuietOnceDropped out.2 ∧
      (¬Kept batch out.1 out.2 → ∀ run,
        (deliverCycle isoformat fromisoformat userId run out.1).events = []) := by
  have hstanding := (standing_of_isBatch h).deliverCycles isoformat fromisoformat userId runs
  simp only [List.nil_append] at hstanding
  have htries (run : Run) := (hstanding.deliverCycle isoformat fromisoformat userId run).2
  intro out
  cases hstanding with
  | pending hpending _ =>
    exact ⟨.inl hpending.kept, hpending.again, htries, hpending.quiet, fun hnot ↦
      absurd hpending.kept hnot⟩
  | gone hgone =>
    refine ⟨.inr hgone.settled, hgone.again, htries, hgone.quiet, fun _ run ↦ ?_⟩
    rw [show out.1 = .dropped from hgone.dropped]
    rfl

end runs

section film

open PullCycleState (reported isoformat fromisoformat)

/-- A server that takes deliveries, under the identity it had or a later one, and a cloud. -/
def home (identityVersion : Int) : Account where
  connections := [⟨3, 1, identityVersion, true, false⟩]
  pushes provider := decide (provider = .trakt)

/-- The server fails, the cloud is served, and the process dies before the queues are recorded. -/
def brokenOff : Run where
  state := some reported
  account := home 1
  upgrade := .done
  script i := ⟨.done, home 1, if i = 0 then .raises else .done, if i = 2 then .crash else .done⟩

/-- Meanwhile the server was replaced. -/
def repeated : Run where
  state := none
  account := home 2
  upgrade := .done
  script _ := ⟨.done, home 2, .done, .done⟩

theorem reported_delivered_at_least_once :
    let batch := persistDelivery isoformat (home 1) reported
    let out := deliverCycles isoformat fromisoformat 1 [brokenOff, repeated] batch
    (Kept batch out.1 out.2 ∨ AllSettled batch out.2) ∧ NeverAgain out.2 ∧
      (∀ run, TriesAll batch out.1 out.2 (deliverCycle isoformat fromisoformat 1 run out.1)) ∧
      QuietOnceDropped out.2 ∧
      (¬Kept batch out.1 out.2 → ∀ run,
        (deliverCycle isoformat fromisoformat 1 run out.1).events = []) :=
  delivered_at_least_once isoformat fromisoformat 1
    (isBatch_persistDelivery isoformat (home 1) reported) _

end film

end AnyList.Persistence.CycleDelivery
